import ContentLoom.Number.Binary64

/-!
# The shortest decimal of a binary number

Every finite number is nearest to all reals of an interval around it, whose
ends belong to it when the significand is even.  The shortest decimal is the
multiple of the largest power of ten that lies in that interval; of two such
multiples the nearer is taken, and of two equally near ones the even one.
-/

namespace ContentLoom.Binary64

/-- The ends of the interval of `x` in quarters of its last place. -/
def quarterEnds (x : Binary64) : Nat × Nat :=
  let m := x.significand
  let low := if m = 0x10000000000000 ∧ x.exponent ≠ -1074 then 4 * m - 1 else 4 * m - 2
  (low, 4 * m + 2)

/-- The multiple of `10 ^ k` that lies in the interval of `x`, if there is one. -/
def multipleAt? (x : Binary64) (k : Int) : Option Nat :=
  let quarter : Int := x.exponent - 2
  let up := Nat.pow 2 quarter.toNat * Nat.pow 10 (-k).toNat
  let unit := Nat.pow 10 k.toNat * Nat.pow 2 (-quarter).toNat
  let (low, high) := x.quarterEnds
  let value := 4 * x.significand * up
  let inside := fun c =>
    if x.significand % 2 = 0 then low * up ≤ c * unit ∧ c * unit ≤ high * up
    else low * up < c * unit ∧ c * unit < high * up
  let below := value / unit
  let above := below + 1
  if inside below then
    if inside above then
      let toBelow := value - below * unit
      let toAbove := above * unit - value
      if toBelow < toAbove then some below
      else if toAbove < toBelow then some above
      else if below % 2 = 0 then some below else some above
    else some below
  else if inside above then some above
  else none

/-- Tries the powers of ten downwards from `k`; without success the exact decimal is taken. -/
def shortestFrom (x : Binary64) : Nat → Int → Nat × Int
  | 0, _ =>
    if 0 ≤ x.exponent then (x.significand * Nat.pow 2 x.exponent.toNat, 0)
    else (x.significand * Nat.pow 5 (-x.exponent).toNat, x.exponent)
  | fuel + 1, k =>
    match x.multipleAt? k with
    | some c => (c, k)
    | none => shortestFrom x fuel (k - 1)

/-- The digits and the power of ten of the shortest decimal of a magnitude. -/
def shortest (x : Binary64) : Nat × Int :=
  if x.isZero then (0, 0)
  else
    let bits : Int := (x.significand.log2 : Int) + 1 + x.exponent
    shortestFrom x 24 ((bits * 30103).fdiv 100000 + 1)

example : (ofDecimal? false 3 (-1)).map shortest = some (3, -1) := by decide +kernel

end ContentLoom.Binary64

/-!
# Finite binary floating-point numbers

A finite number of 64 bits is a sign, a significand below `2 ^ 53` and a power
of two.  Rounding takes an exact quotient of natural numbers to the nearest
such number, a half going to the even significand, and fails where the result
would not be finite.  All of it is arithmetic on natural numbers.
-/

namespace ContentLoom

/-- The forms in which a magnitude is held: the significand has at most 53 bits, and the first of
them is set unless the exponent is least. -/
def Binary64.Canonical (significand : Nat) (exponent : Int) : Prop :=
  significand < 0x20000000000000 ∧ -1074 ≤ exponent ∧ exponent ≤ 971 ∧
    (0x10000000000000 ≤ significand ∨ exponent = -1074)

instance (significand : Nat) (exponent : Int) :
    Decidable (Binary64.Canonical significand exponent) := by
  unfold Binary64.Canonical
  infer_instance

/-- The number `± significand * 2 ^ exponent`; both zeros are numbers of their own. -/
structure Binary64 where
  negative : Bool
  significand : Nat
  exponent : Int
  canonical : Binary64.Canonical significand exponent
deriving DecidableEq

namespace Binary64

/-- Zero with the given sign. -/
def zero (negative : Bool) : Binary64 := ⟨negative, 0, -1074, by decide⟩

instance : Inhabited Binary64 := ⟨zero false⟩

/-- Whether the number is one of the two zeros. -/
def isZero (x : Binary64) : Bool := x.significand == 0

/-- The number with its sign changed. -/
def neg (x : Binary64) : Binary64 := { x with negative := !x.negative }

theorem neg_neg (x : Binary64) : x.neg.neg = x := by
  cases x
  simp [neg]

/-- The number in these parts, where they are canonical. -/
def ofParts? (negative : Bool) (significand : Nat) (exponent : Int) : Option Binary64 :=
  if h : Canonical significand exponent then some ⟨negative, significand, exponent, h⟩ else none

/-! ### Rounding -/

/-- The quotient `num / den` in units of `2 ^ e`, as a quotient of natural numbers. -/
def inUnits (num den : Nat) (e : Int) : Nat × Nat :=
  (num * Nat.pow 2 (-e).toNat, den * Nat.pow 2 e.toNat)

/-- The quotient rounded to a natural number, a half to the even neighbour. -/
def divNearest (num den : Nat) : Nat :=
  let q := num / den
  let r := num % den
  if den < 2 * r then q + 1
  else if 2 * r = den ∧ q % 2 = 1 then q + 1
  else q

/-- The exponent whose units give `num / den` a significand of 53 bits, or the least exponent. -/
def exponentFor (num den : Nat) : Int :=
  let least : Int := (num.log2 : Int) - (den.log2 : Int) - 53
  let (n, d) := inUnits num den least
  let e := if 0x20000000000000 ≤ n / d then least + 1 else least
  max e (-1074)

/-- The number nearest to `num / den` with the given sign; none if it is not finite. -/
def ofRatio? (negative : Bool) (num den : Nat) : Option Binary64 :=
  if num = 0 then some (zero negative)
  else
    let e := exponentFor num den
    let (n, d) := inUnits num den e
    let m := divNearest n d
    if m = 0x20000000000000 then ofParts? negative 0x10000000000000 (e + 1)
    else ofParts? negative m e

/-- The number nearest to a natural number. -/
def ofNat? (n : Nat) : Option Binary64 := ofRatio? false n 1

/-- The number nearest to `digits * 10 ^ scale`.  Where the scale alone puts it beyond the greatest
number or far below the least one, the power is not computed. -/
def ofDecimal? (negative : Bool) (digits : Nat) (scale : Int) : Option Binary64 :=
  if digits = 0 then some (zero negative)
  else if 308 < scale then none
  else if digits.log2 + 3 * scale < -1100 then some (zero negative)
  else ofRatio? negative (digits * Nat.pow 10 scale.toNat) (Nat.pow 10 (-scale).toNat)

/-- The magnitude as a quotient of natural numbers. -/
def toRatio (x : Binary64) : Nat × Nat :=
  (x.significand * Nat.pow 2 x.exponent.toNat, Nat.pow 2 (-x.exponent).toNat)

/-- The product of two magnitudes, rounded, with the sign of the first factor. -/
def scaleUp? (x y : Binary64) : Option Binary64 :=
  let (a, b) := x.toRatio
  let (c, d) := y.toRatio
  ofRatio? x.negative (a * c) (b * d)

/-- The quotient of two magnitudes, rounded, with the sign of the dividend. -/
def scaleDown? (x y : Binary64) : Option Binary64 :=
  let (a, b) := x.toRatio
  let (c, d) := y.toRatio
  ofRatio? x.negative (a * d) (b * c)

example : (ofDecimal? false 1 (-1)).map (fun x => (x.significand, x.exponent)) =
    some (7205759403792794, -56) := by decide +kernel

end Binary64

end ContentLoom

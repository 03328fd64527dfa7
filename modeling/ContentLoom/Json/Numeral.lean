import ContentLoom.Json.Basic

/-!
# JSON numerals

A numeral is scanned into its parts and then given a value.  An integer that
fits 64 bits, signed or unsigned, stays an integer; every other numeral becomes
a floating-point number.  Its digits are packed into a 64-bit significand as
long as they fit, the rest only counts, and the significand is rounded before
it is scaled by a rounded power of ten.
-/

namespace ContentLoom.Json

/-- The parts of a numeral as written. -/
structure Numeral where
  negative : Bool
  whole : List Char
  fraction : Option (List Char)
  /-- The sign of the exponent, negative or not, and its digits. -/
  exponent : Option (Bool × List Char)
deriving DecidableEq

namespace Numeral

/-! ### Scanning -/

/-- A fraction, if a point follows; a point without a digit is refused. -/
def scanFraction : List Char → Option (Option (List Char) × List Char)
  | '.' :: cs =>
    match cs.takeWhile Char.isDigit with
    | [] => none
    | ds => some (some ds, cs.dropWhile Char.isDigit)
  | cs => some (none, cs)

/-- An exponent, if its mark follows; a mark without a digit is refused. -/
def scanExponent (cs : List Char) : Option (Option (Bool × List Char) × List Char) :=
  match cs with
  | c :: rest =>
    if c = 'e' ∨ c = 'E' then
      let (negative, rest) := match rest with
        | '+' :: r => (false, r)
        | '-' :: r => (true, r)
        | r => (false, r)
      match rest.takeWhile Char.isDigit with
      | [] => none
      | ds => some (some (negative, ds), rest.dropWhile Char.isDigit)
    else some (none, cs)
  | [] => some (none, [])

/-- The digits before the point: a lone zero, or digits that do not begin with zero. -/
def scanWhole : List Char → Option (List Char × List Char)
  | '0' :: cs =>
    match cs with
    | c :: _ => if c.isDigit then none else some (['0'], cs)
    | [] => some (['0'], [])
  | cs =>
    match cs.takeWhile Char.isDigit with
    | [] => none
    | ds => some (ds, cs.dropWhile Char.isDigit)

/-- The numeral at the beginning of a text, and what follows it. -/
def scan (cs : List Char) : Option (Numeral × List Char) := do
  let (negative, cs) := match cs with
    | '-' :: rest => (true, rest)
    | cs => (false, cs)
  let (whole, cs) ← scanWhole cs
  let (fraction, cs) ← scanFraction cs
  let (exponent, cs) ← scanExponent cs
  some (⟨negative, whole, fraction, exponent⟩, cs)

/-! ### Value -/

/-- The value of a decimal digit. -/
def digitValue (c : Char) : Nat := c.toNat - '0'.toNat

/-- The number that a list of digits denotes. -/
def digitsValue (ds : List Char) : Nat := ds.foldl (fun n d => n * 10 + digitValue d) 0

/-- The greatest significand. -/
def significandLimit : Nat := 0xffffffffffffffff

/-- Appends digits to a significand while it stays within 64 bits; also the digits left over. -/
def pack (significand : Nat) : List Char → Nat × List Char
  | [] => (significand, [])
  | d :: ds =>
    let next := significand * 10 + digitValue d
    if next ≤ significandLimit then pack next ds else (significand, d :: ds)

/-- Scales by a power of ten, in steps of `10 ^ 308`; none if the number is not finite. -/
def scaleByTen? : Nat → Binary64 → Int → Option Binary64
  | steps, x, e =>
    if e.natAbs ≤ 308 then do
      let power ← Binary64.ofNat? (Nat.pow 10 e.natAbs)
      if 0 ≤ e then x.scaleUp? power else x.scaleDown? power
    else if x.isZero then some x
    else if 0 ≤ e then none
    else
      match steps with
      | 0 => some (Binary64.zero x.negative)
      | steps + 1 => do
        let power ← Binary64.ofNat? (Nat.pow 10 308)
        scaleByTen? steps (← x.scaleDown? power) (e + 308)

/-- The floating-point number with a significand and a power of ten. -/
def assemble? (negative : Bool) (significand : Nat) (scale : Int) : Option Binary64 := do
  let x ← scaleByTen? 4 (← Binary64.ofNat? significand) scale
  some (if negative then x.neg else x)

/-- An exponent that fits 32 bits, or none. -/
def exponentValue? (ds : List Char) : Option Nat :=
  let n := digitsValue ds
  if n ≤ 0x7fffffff then some n else none

/-- A value kept within the signed 32-bit integers. -/
def saturate (n : Int) : Int := max (-0x80000000) (min 0x7fffffff n)

/-- The floating-point reading of a numeral; none if it is out of range. -/
def toFloat? (n : Numeral) : Option Binary64 :=
  let (whole, uncounted) := pack 0 n.whole
  let (significand, scale) : Nat × Int := match n.fraction with
    | none => (whole, uncounted.length)
    | some ds =>
      let (packed, left) := pack whole ds
      (packed, uncounted.length - ((ds.length : Int) - left.length))
  match n.exponent with
  | none => assemble? n.negative significand scale
  | some (down, ds) =>
    match exponentValue? ds with
    | some e => assemble? n.negative significand (saturate (if down then scale - e else scale + e))
    | none => if significand ≠ 0 ∧ ¬down then none else some (Binary64.zero n.negative)

/-- The value of a numeral; none if it is out of range. -/
def toJson? (n : Numeral) : Option Json :=
  match n.fraction, n.exponent with
  | none, none =>
    let value := digitsValue n.whole
    if n.negative then
      if value ≠ 0 ∧ value ≤ 0x8000000000000000 then some (.int (-value))
      else n.toFloat?.map .float
    else if value ≤ significandLimit then some (.int value)
    else n.toFloat?.map .float
  | _, _ => n.toFloat?.map .float

end Numeral

end ContentLoom.Json

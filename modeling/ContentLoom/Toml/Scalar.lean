import ContentLoom.Toml.Text

/-!
# TOML scalars

Truth values, integers in four bases, floating-point numbers, and dates and
times, as the documents that stand for them.  A number beyond every type has no
document, an integer beyond 64 bits only one that may be passed over, and a
date is held in an object of its own.
-/

namespace ContentLoom.Toml

/-! ### Numbers -/

/-- Digits with single underscores between them, without these. -/
def grouped? (isDigit : Char → Bool) (cs : List Char) : Option (List Char) :=
  let groups := Text.segments '_' cs
  if groups.all fun g => !g.isEmpty && g.all isDigit then some groups.flatten else none

/-- The document of an integer.  One beyond 64 bits may be passed over up to 128 bits. -/
def integerDocument (n : Int) : Json.Document :=
  if -0x8000000000000000 ≤ n ∧ n < 0x10000000000000000 then .int n
  else
    .fault (decide (-0x80000000000000000000000000000000 ≤ n ∧
      n < 0x100000000000000000000000000000000))

/-- An integer in another base after its mark. -/
def inBase? (base : Nat) (cs : List Char) : Option Json.Document := do
  let ds ← grouped? (fun c => ((Json.Document.hexValue? c).map (decide <| · < base)).getD false) cs
  let values ← ds.mapM Json.Document.hexValue?
  some (integerDocument (values.foldl (fun (n v : Nat) => n * base + v) 0 : Nat))

/-- The sign of a number, negative or not, and what follows it. -/
def sign : List Char → Bool × List Char
  | '+' :: rest => (false, rest)
  | '-' :: rest => (true, rest)
  | cs => (false, cs)

/-- Digits of a whole number: no zero at the front of others. -/
def whole? (cs : List Char) : Option (List Char) := do
  let ds ← grouped? Char.isDigit cs
  match ds with
  | '0' :: _ :: _ => none
  | ds => some ds

/-- A floating-point number from the digits before and after the point and its exponent. -/
def floatDocument (negative : Bool) (whole fraction : List Char) (exponent : Int) :
    Json.Document :=
  match Binary64.ofDecimal? negative (Json.Numeral.digitsValue (whole ++ fraction))
      (exponent - fraction.length) with
  | some x => .float x
  | none => .fault false

/-- The exponent after its mark. -/
def exponent? (cs : List Char) : Option Int := do
  let (negative, cs) := sign cs
  let ds ← grouped? Char.isDigit cs
  let n : Int := Json.Numeral.digitsValue ds
  some (if negative then -n else n)

/-- A decimal number. -/
def decimal? (cs : List Char) : Option Json.Document := do
  let (negative, cs) := sign cs
  let isMark := fun c : Char => c = 'e' || c = 'E'
  let mantissa := cs.takeWhile fun c => !isMark c
  let exponent ← match cs.dropWhile (fun c => !isMark c) with
    | [] => some none
    | _ :: rest => (exponent? rest).map some
  match Text.cutFirst? '.' mantissa with
  | some (whole, fraction) =>
    let whole ← whole? whole
    let fraction ← grouped? Char.isDigit fraction
    some (floatDocument negative whole fraction (exponent.getD 0))
  | none =>
    let whole ← whole? mantissa
    match exponent with
    | some e => some (floatDocument negative whole [] e)
    | none =>
      let n : Int := Json.Numeral.digitsValue whole
      some (integerDocument (if negative then -n else n))

/-! ### Dates and times -/

/-- A number of exactly so many digits between two bounds. -/
def fixed? (digits low high : Nat) (cs : List Char) : Option Nat :=
  if cs.length = digits ∧ cs.all Char.isDigit then
    let n := Json.Numeral.digitsValue cs
    if low ≤ n ∧ n ≤ high then some n else none
  else none

/-- The number of days of a month. -/
def daysIn (year month : Nat) : Nat :=
  if month = 2 then
    if (year % 4 = 0 ∧ year % 100 ≠ 0) ∨ year % 400 = 0 then 29 else 28
  else if month = 4 ∨ month = 6 ∨ month = 9 ∨ month = 11 then 30
  else 31

/-- Whether a text is a date of the calendar. -/
def isDate (cs : List Char) : Bool :=
  match Text.segments '-' cs with
  | [y, m, d] =>
    match fixed? 4 0 9999 y, fixed? 2 1 12 m with
    | some y, some m => (fixed? 2 1 (daysIn y m) d).isSome
    | _, _ => false
  | _ => false

/-- The fraction of a second in its usual text, with its point: at most nine digits, no zero at the
end, and nothing at all if no digit is left. -/
def fraction? (ds : List Char) : Option (List Char) :=
  if ds.isEmpty ∨ !ds.all Char.isDigit then none
  else
    match ((ds.take 9).reverse.dropWhile (· = '0')).reverse with
    | [] => some []
    | ds => some ('.' :: ds)

/-- A time of the day in its usual text, which has the seconds that may be left out. -/
def time? (cs : List Char) : Option (List Char) :=
  let isPart := fun (high : Nat) (ds : List Char) => (fixed? 2 0 high ds).isSome
  let (clock, fraction) := match Text.cutFirst? '.' cs with
    | some (clock, fraction) => (clock, some fraction)
    | none => (cs, none)
  match Text.segments ':' clock, fraction with
  | [h, m], none => if isPart 23 h && isPart 59 m then some (clock ++ [':', '0', '0']) else none
  | [h, m, s], none => if isPart 23 h && isPart 59 m && isPart 60 s then some clock else none
  | [h, m, s], some ds =>
    if isPart 23 h && isPart 59 m && isPart 60 s then (fraction? ds).map (clock ++ ·) else none
  | _, _ => none

/-- An offset of hours and minutes after its sign, in its usual text: an offset of nothing is
positive. -/
def offset? (mark : Char) (cs : List Char) : Option (List Char) :=
  match Text.segments ':' cs with
  | [h, m] => do
    let hours ← fixed? 2 0 23 h
    let minutes ← fixed? 2 0 59 m
    some ((if hours = 0 ∧ minutes = 0 then '+' else mark) :: cs)
  | _ => none

/-- A time of the day with an offset, if there is one. -/
def offsetTime? (cs : List Char) : Option (List Char) :=
  match cs.reverse with
  | 'Z' :: back => (time? back.reverse).map (· ++ ['Z'])
  | 'z' :: back => (time? back.reverse).map (· ++ ['Z'])
  | _ =>
    let clock := cs.takeWhile fun c => c ≠ '+' ∧ c ≠ '-'
    match cs.dropWhile fun c => c ≠ '+' ∧ c ≠ '-' with
    | [] => time? cs
    | mark :: rest => do
      let offset ← offset? mark rest
      (time? clock).map (· ++ offset)

/-- A date, a time or both in their usual text. -/
def moment? (cs : List Char) : Option (List Char) :=
  if isDate cs then some cs
  else if isDate (cs.take 10) then
    match cs.drop 10 with
    | c :: rest =>
      if c = 'T' ∨ c = 't' ∨ c = ' ' then
        (offsetTime? rest).map fun t => cs.take 10 ++ 'T' :: t
      else none
    | [] => none
  else time? cs

/-- The member under which a date is held. -/
def momentMember : String := "$__toml_private_datetime"

/-! ### All scalars -/

/-- The document of a scalar that is not a string. -/
def scalarDocument? (cs : List Char) : Option Json.Document :=
  match cs with
  | ['t', 'r', 'u', 'e'] => some (.bool true)
  | ['f', 'a', 'l', 's', 'e'] => some (.bool false)
  | '0' :: 'x' :: rest => inBase? 16 rest
  | '0' :: 'o' :: rest => inBase? 8 rest
  | '0' :: 'b' :: rest => inBase? 2 rest
  | _ =>
    if (sign cs).2 = ['i', 'n', 'f'] ∨ (sign cs).2 = ['n', 'a', 'n'] then some .notFinite
    else
      match moment? cs with
      | some text => some (.obj [(momentMember, .str (String.ofList text))] (.closed .moment))
      | none => decimal? cs

/-- A character that can stand in a scalar. -/
def isScalarChar (c : Char) : Bool :=
  c.isAlphanum || c == '+' || c == '-' || c == '.' || c == ':' || c == '_'

/-- The characters of the scalar at the beginning of a text; a date may have a time after a
space. -/
def scalarChars (cs : List Char) : List Char × List Char :=
  let word := cs.takeWhile isScalarChar
  match cs.dropWhile isScalarChar with
  | ' ' :: c :: rest =>
    if isDate word ∧ c.isDigit then
      (word ++ ' ' :: (c :: rest).takeWhile isScalarChar, (c :: rest).dropWhile isScalarChar)
    else (word, ' ' :: c :: rest)
  | rest => (word, rest)

end ContentLoom.Toml

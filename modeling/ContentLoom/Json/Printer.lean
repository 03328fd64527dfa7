import ContentLoom.Json.Basic
import ContentLoom.Number.Shortest

/-!
# Writing JSON

The compact form has no space outside strings.  The pretty form puts each item
and member on a line of its own, indented by two spaces a level, and leaves
empty containers closed.  In strings only the quote, the backslash and the
control characters are escaped.
-/

namespace ContentLoom.Json

/-! ### Numbers -/

/-- The lowest and the highest decimal exponent that is written positionally. -/
def positionalExponents : Int × Int := (-5, 15)

/-- The digits of a magnitude with the point after the digit of weight `10 ^ 0`: `5.0`, `0.001`. -/
def positional (digits : List Char) (scale : Int) : List Char :=
  let point : Int := digits.length + scale
  if 0 ≤ scale then digits ++ List.replicate scale.toNat '0' ++ ['.', '0']
  else if 0 < point then digits.take point.toNat ++ '.' :: digits.drop point.toNat
  else '0' :: '.' :: (List.replicate (-point).toNat '0' ++ digits)

/-- The digits of a magnitude with the point after the first: `1.5e+16`, `1e-7`. -/
def scientific (digits : List Char) (exponent : Int) : List Char :=
  let sign := if exponent < 0 then '-' else '+'
  let fraction := match digits.tail with
    | [] => []
    | rest => '.' :: rest
  digits.take 1 ++ fraction ++ 'e' :: sign :: (toString exponent.natAbs).toList

/-- The text of a floating-point number; it always has a point or an exponent. -/
def floatText (x : Binary64) : String :=
  let (value, scale) := x.shortest
  let digits := (toString value).toList
  let exponent : Int := digits.length + scale - 1
  let (low, high) := positionalExponents
  let magnitude :=
    if low ≤ exponent ∧ exponent ≤ high then positional digits scale else scientific digits exponent
  String.ofList (if x.negative then '-' :: magnitude else magnitude)

/-! ### Strings -/

/-- The digit of a value below sixteen, in small letters. -/
def hexDigit (n : Nat) : Char := (Nat.digitChar n)

/-- A character inside a string. -/
def escape (c : Char) : List Char :=
  if c = '"' then ['\\', '"']
  else if c = '\\' then ['\\', '\\']
  else if c.toNat < 0x20 then
    match c.toNat with
    | 0x08 => ['\\', 'b']
    | 0x09 => ['\\', 't']
    | 0x0a => ['\\', 'n']
    | 0x0c => ['\\', 'f']
    | 0x0d => ['\\', 'r']
    | n => ['\\', 'u', '0', '0', hexDigit (n / 16), hexDigit (n % 16)]
  else [c]

/-- A string with its quotes. -/
def quoted (text : String) : List Char :=
  '"' :: (text.toList.flatMap escape ++ ['"'])

/-! ### Compact form -/

mutual

/-- The characters of the compact form. -/
def compactChars : Json → List Char
  | .null => "null".toList
  | .bool true => "true".toList
  | .bool false => "false".toList
  | .int n => (toString n).toList
  | .float x => (floatText x).toList
  | .str s => quoted s
  | .arr items => '[' :: (compactItems items ++ [']'])
  | .obj members => '{' :: (compactMembers members ++ ['}'])

/-- Items with commas between them. -/
def compactItems : List Json → List Char
  | [] => []
  | [item] => compactChars item
  | item :: rest => compactChars item ++ ',' :: compactItems rest

/-- Members with commas between them. -/
def compactMembers : List (String × Json) → List Char
  | [] => []
  | [(name, value)] => quoted name ++ ':' :: compactChars value
  | (name, value) :: rest =>
    quoted name ++ ':' :: (compactChars value ++ ',' :: compactMembers rest)

end

/-- The compact text of a value. -/
def compact (j : Json) : String := String.ofList j.compactChars

/-! ### Pretty form -/

/-- A line break and the indentation of a level. -/
def lineBreak (level : Nat) : List Char := '\n' :: List.replicate (2 * level) ' '

mutual

/-- The characters of the pretty form at a level. -/
def prettyChars (level : Nat) : Json → List Char
  | .arr [] => ['[', ']']
  | .obj [] => ['{', '}']
  | .arr items => '[' :: (prettyItems (level + 1) items ++ lineBreak level ++ [']'])
  | .obj members => '{' :: (prettyMembers (level + 1) members ++ lineBreak level ++ ['}'])
  | .null => "null".toList
  | .bool true => "true".toList
  | .bool false => "false".toList
  | .int n => (toString n).toList
  | .float x => (floatText x).toList
  | .str s => quoted s

/-- Items, each on its own line. -/
def prettyItems (level : Nat) : List Json → List Char
  | [] => []
  | [item] => lineBreak level ++ prettyChars level item
  | item :: rest => lineBreak level ++ prettyChars level item ++ ',' :: prettyItems level rest

/-- Members, each on its own line. -/
def prettyMembers (level : Nat) : List (String × Json) → List Char
  | [] => []
  | [(name, value)] => lineBreak level ++ quoted name ++ ':' :: ' ' :: prettyChars level value
  | (name, value) :: rest =>
    lineBreak level ++ quoted name ++ ':' :: ' ' :: prettyChars level value ++
      ',' :: prettyMembers level rest

end

/-- The pretty text of a value. -/
def pretty (j : Json) : String := String.ofList (j.prettyChars 0)

end ContentLoom.Json

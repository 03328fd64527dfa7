import ContentLoom.Text.Case
import ContentLoom.Text.Numeric
import ContentLoom.Text.Segments

/-!
# Words of generated code

How a text becomes an identifier: characters that cannot stand in one are
replaced, and a digit at the front gets an underscore before it.
-/

namespace ContentLoom.Naming

/-- A character of an identifier. -/
def isWordChar (c : Char) : Bool := Text.isAlphanumeric c || c == '_'

/-- The text with an underscore for every character that cannot stand in an identifier. -/
def sanitizeChars (cs : List Char) : List Char :=
  let word := cs.map fun c => if isWordChar c then c else '_'
  match word with
  | c :: _ => if c.isDigit then '_' :: word else word
  | [] => []

/-- The identifier for a text. -/
def sanitize (s : String) : String := String.ofList (sanitizeChars s.toList)

/-- The text with its first character lowered. -/
def lowerFirst (s : String) : String :=
  match s.toList with
  | [] => ""
  | c :: cs => String.ofList (Text.toLower c ++ cs)

/-- The last part of the name of a type, without its arguments. -/
def simpleTypeName (s : String) : String :=
  String.ofList (Text.afterLast '.' (s.toList.takeWhile (· ≠ '<')))

end ContentLoom.Naming

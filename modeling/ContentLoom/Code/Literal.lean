/-!
# String literals of generated code

A text between quotes, with escapes for the quote, the backslash and four
control characters.
-/

namespace ContentLoom.Code

/-- A character inside a literal. -/
def escape (c : Char) : List Char :=
  if c = '"' then ['\\', '"']
  else if c = '\\' then ['\\', '\\']
  else if c = '\n' then ['\\', 'n']
  else if c = '\r' then ['\\', 'r']
  else if c = '\t' then ['\\', 't']
  else if c = '\x00' then ['\\', '0']
  else [c]

/-- The characters of the literal for a text. -/
def literalChars (cs : List Char) : List Char := '"' :: (cs.flatMap escape ++ ['"'])

/-- The literal for a text. -/
def literal (s : String) : String := String.ofList (literalChars s.toList)

end ContentLoom.Code

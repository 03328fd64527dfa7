import ContentLoom.Json.Reader
import ContentLoom.Text.Segments

/-!
# TOML keys and strings

Bare and quoted keys, and the four kinds of strings.  A basic string has
escapes and a literal one has none; both may stand between three quotes and
then hold line breaks, the first of which does not count.
-/

namespace ContentLoom.Toml

/-- What is left after spaces and tabs. -/
def skipBlanks (cs : List Char) : List Char := cs.dropWhile fun c => c = ' ' || c = '\t'

/-- A control character other than a tab. -/
def isControl (c : Char) : Bool := (c.toNat < 0x20 && c != '\t') || c.toNat == 0x7f

/-- What is left after one line break, if the text begins with one. -/
def lineBreak? : List Char → Option (List Char)
  | '\n' :: rest => some rest
  | '\r' :: '\n' :: rest => some rest
  | _ => none

/-! ### Escapes -/

/-- The character with a number in hexadecimal digits. -/
def scalar? (digits : List Char) : Option Char := do
  let values ← digits.mapM Json.Document.hexValue?
  let n := values.foldl (fun n v => n * 16 + v) 0
  if n < 0xD800 ∨ (0xE000 ≤ n ∧ n < 0x110000) then some (Char.ofNat n) else none

/-- The character that a short escape stands for. -/
def shortEscape? : Char → Option Char
  | 'b' => some '\x08'
  | 'e' => some '\x1b'
  | 't' => some '\t'
  | 'n' => some '\n'
  | 'f' => some '\x0c'
  | 'r' => some '\r'
  | '"' => some '"'
  | '\\' => some '\\'
  | _ => none

/-- The character with a number of so many hexadecimal digits at the beginning of a text. -/
def numbered? (digits : Nat) (cs : List Char) : Option (Char × List Char) :=
  if digits ≤ cs.length then (scalar? (cs.take digits)).map fun c => (c, cs.drop digits) else none

/-- The character of an escape after its backslash. -/
def escape? : List Char → Option (Char × List Char)
  | 'x' :: rest => numbered? 2 rest
  | 'u' :: rest => numbered? 4 rest
  | 'U' :: rest => numbered? 8 rest
  | c :: rest => (shortEscape? c).map fun e => (e, rest)
  | [] => none

/-! ### Strings -/

/-- A basic string after its opening quote. -/
def basicString : Nat → List Char → Option (List Char × List Char)
  | 0, _ => none
  | _ + 1, [] => none
  | _ + 1, '"' :: rest => some ([], rest)
  | fuel + 1, '\\' :: rest => do
    let (c, rest) ← escape? rest
    let (cs, rest) ← basicString fuel rest
    some (c :: cs, rest)
  | fuel + 1, c :: rest =>
    if isControl c then none
    else (basicString fuel rest).map fun (cs, after) => (c :: cs, after)

/-- A literal string after its opening quote. -/
def literalString : List Char → Option (List Char × List Char)
  | [] => none
  | '\'' :: rest => some ([], rest)
  | c :: rest =>
    if isControl c then none
    else (literalString rest).map fun (cs, after) => (c :: cs, after)

/-- The end of a string of several lines: three quotes, with up to two more that belong to it. -/
def closing? (quote : Char) (cs : List Char) : Option (List Char × List Char) :=
  let n := (cs.takeWhile (· = quote)).length
  if 3 ≤ n ∧ n ≤ 5 then some (List.replicate (n - 3) quote, cs.drop n) else none

/-- What is left after blanks and line breaks. -/
def skipFolded : List Char → List Char
  | [] => []
  | '\r' :: '\n' :: rest => skipFolded rest
  | c :: rest => if c = ' ' ∨ c = '\t' ∨ c = '\n' then skipFolded rest else c :: rest

/-- What is left after a backslash at the end of a line, with all blanks and line breaks. -/
def foldedLine? (cs : List Char) : Option (List Char) :=
  (lineBreak? (skipBlanks cs)).map skipFolded

/-- A string of several lines after its opening quotes. -/
def longString (quote : Char) (escapes : Bool) : Nat → List Char → Option (List Char × List Char)
  | 0, _ => none
  | fuel + 1, cs =>
    match closing? quote cs with
    | some (inner, rest) => some (inner, rest)
    | none =>
      match cs with
      | [] => none
      | '\r' :: rest =>
        match rest with
        | '\n' :: rest =>
          (longString quote escapes fuel rest).map fun (cs, after) => ('\r' :: '\n' :: cs, after)
        | _ => none
      | c :: rest =>
        if escapes ∧ c = '\\' then
          match foldedLine? rest with
          | some rest => longString quote escapes fuel rest
          | none => do
            let (c, rest) ← escape? rest
            let (cs, rest) ← longString quote escapes fuel rest
            some (c :: cs, rest)
        else if c = quote then
          if 3 ≤ (cs.takeWhile (· = quote)).length then none
          else (longString quote escapes fuel rest).map fun (cs, after) => (c :: cs, after)
        else if isControl c ∧ c ≠ '\n' then none
        else (longString quote escapes fuel rest).map fun (cs, after) => (c :: cs, after)

/-- The string at the beginning of a text. -/
def string? (cs : List Char) : Option (String × List Char) :=
  let made := match cs with
    | '"' :: '"' :: '"' :: rest =>
      longString '"' true (cs.length + 1) ((lineBreak? rest).getD rest)
    | '\'' :: '\'' :: '\'' :: rest =>
      longString '\'' false (cs.length + 1) ((lineBreak? rest).getD rest)
    | '"' :: rest => basicString (cs.length + 1) rest
    | '\'' :: rest => literalString rest
    | _ => none
  made.map fun (s, rest) => (String.ofList s, rest)

/-! ### Keys -/

/-- A character of a bare key. -/
def isBareChar (c : Char) : Bool := c.isAlphanum || c == '_' || c == '-'

/-- One part of a key. -/
def simpleKey? (cs : List Char) : Option (String × List Char) :=
  match cs with
  | '"' :: rest => (basicString (cs.length + 1) rest).map fun (s, r) => (String.ofList s, r)
  | '\'' :: rest => (literalString rest).map fun (s, r) => (String.ofList s, r)
  | _ =>
    match cs.takeWhile isBareChar with
    | [] => none
    | key => some (String.ofList key, cs.dropWhile isBareChar)

/-- The number of parts that a key may have. -/
def partLimit : Nat := 80

/-- A key of one part or more, up to a number of them, with dots between them; blanks around the
parts do not count. -/
def keyOf? : Nat → List Char → Option (List String × List Char)
  | 0, _ => none
  | most + 1, cs => do
    let (part, rest) ← simpleKey? (skipBlanks cs)
    match skipBlanks rest with
    | '.' :: rest =>
      let (parts, rest) ← keyOf? most rest
      some (part :: parts, rest)
    | rest => some ([part], rest)

/-- The key at the beginning of a text. -/
def key? (cs : List Char) : Option (List String × List Char) := keyOf? partLimit cs

end ContentLoom.Toml

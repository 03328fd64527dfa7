import ContentLoom.Json.Decode
import ContentLoom.Text.Blank
import ContentLoom.Text.Numeric
import ContentLoom.TypeRef.Basic

/-!
# Reading type references

A reference is a name, arguments between angle brackets, array brackets and a
question mark, of which only the name is needed.  Blanks may stand before and
after each of them.  A text is refused where no further character can be read;
the offset counts bytes.
-/

namespace ContentLoom.TypeRef

/-! ### Refusals -/

/-- What was missing. -/
inductive Expected where
  | name
  | argumentEnd
  | bracket
  | textEnd
deriving DecidableEq

/-- The words for what was missing. -/
def Expected.message : Expected → String
  | name => "expected a type name"
  | argumentEnd => "expected ',' or '>'"
  | bracket => "expected ']'"
  | textEnd => "unexpected trailing input"

/-- A text that is no reference, and the offset where it stops being one. -/
structure Refusal where
  text : String
  expected : Expected
  offset : Nat
deriving DecidableEq

/-- The words of a refusal. -/
def Refusal.message (r : Refusal) : String :=
  "invalid type reference '" ++ r.text ++ "': " ++ r.expected.message ++ " at offset " ++
    toString r.offset

/-! ### Parts -/

/-- A character of a name. -/
def isNameChar (c : Char) : Bool := Text.isAlphanumeric c || c == '_' || c == '.' || c == ':'

/-- The mark of a name that starts at the root of all namespaces. -/
def rootMark : List Char := "global::".toList

/-- A name without the root mark. -/
def withoutRootMark (cs : List Char) : List Char := (Text.afterPrefix? rootMark cs).getD cs

/-- A failed reading: what was missing, and the characters from there on. -/
abbrev Halt := Expected × List Char

/-- The number of array brackets, each pair followed by blanks, and what follows them. -/
def brackets : Nat → List Char → Except Halt (Nat × List Char)
  | 0, cs => .ok (0, cs)
  | fuel + 1, cs =>
    match cs with
    | '[' :: inner =>
      match Text.trimStart inner with
      | ']' :: rest =>
        match brackets fuel (Text.trimStart rest) with
        | .ok (n, rest) => .ok (n + 1, rest)
        | .error halt => .error halt
      | rest => .error (.bracket, rest)
    | _ => .ok (0, cs)

/-- A name with array brackets after it. -/
def bracketed (name : List Char) (n : Nat) : String :=
  String.ofList (name ++ (List.replicate n ['[', ']']).flatten)

/-- A question mark, if one follows. -/
def questionMark : List Char → Bool × List Char
  | '?' :: rest => (true, rest)
  | cs => (false, cs)

mutual

/-- The reference at the beginning of a text, and what follows it. -/
def parseType : Nat → List Char → Except Halt (TypeRef × List Char)
  | 0, cs => .error (.name, cs)
  | fuel + 1, cs =>
    let start := Text.trimStart cs
    let name := withoutRootMark (start.takeWhile isNameChar)
    let afterName := start.dropWhile isNameChar
    if name.isEmpty then .error (.name, afterName)
    else
      match argumentList fuel (Text.trimStart afterName) with
      | .error halt => .error halt
      | .ok (arguments, afterArguments) =>
        match brackets fuel (Text.trimStart afterArguments) with
        | .error halt => .error halt
        | .ok (n, afterBrackets) =>
          let (nullable, rest) := questionMark afterBrackets
          .ok (⟨bracketed name n, arguments, nullable⟩, rest)

/-- The arguments between angle brackets, if one opens, and what follows them. -/
def argumentList : Nat → List Char → Except Halt (List TypeRef × List Char)
  | 0, cs => .ok ([], cs)
  | fuel + 1, cs =>
    match cs with
    | '<' :: rest => argumentsFrom fuel rest
    | _ => .ok ([], cs)

/-- One argument or more up to the closing bracket, and what follows it. -/
def argumentsFrom : Nat → List Char → Except Halt (List TypeRef × List Char)
  | 0, cs => .error (.name, cs)
  | fuel + 1, cs =>
    match parseType fuel cs with
    | .error halt => .error halt
    | .ok (argument, rest) =>
      match Text.trimStart rest with
      | ',' :: rest =>
        match argumentsFrom fuel rest with
        | .error halt => .error halt
        | .ok (arguments, rest) => .ok (argument :: arguments, rest)
      | '>' :: rest => .ok ([argument], rest)
      | rest => .error (.argumentEnd, rest)

end

/-! ### Texts -/

/-- The number of bytes of some characters. -/
def byteLength (cs : List Char) : Nat := cs.foldr (fun c n => c.utf8Size + n) 0

/-- The reference that a list of characters spells, or where it stops being one. -/
def ofChars (cs : List Char) : Except Halt TypeRef :=
  match parseType (3 * cs.length + 3) cs with
  | .error halt => .error halt
  | .ok (t, rest) =>
    match Text.trimStart rest with
    | [] => .ok t
    | rest => .error (.textEnd, rest)

/-- The reference that a text spells. -/
def parse (text : String) : Except Refusal TypeRef :=
  match ofChars text.toList with
  | .ok t => .ok t
  | .error (expected, rest) =>
    .error ⟨text, expected, byteLength text.toList - byteLength rest⟩

/-- The reference of a document. -/
def ofDocument (d : Json.Document) : Except Json.Fault TypeRef :=
  match d.readText with
  | .error fault => .error fault
  | .ok text =>
    match parse text with
    | .ok t => .ok t
    | .error refusal => .error (.refused refusal.message)

/-- The reference as a JSON text. -/
def toJson (t : TypeRef) : Json := .str t.text

end ContentLoom.TypeRef

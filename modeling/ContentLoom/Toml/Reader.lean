import ContentLoom.Json.Decode
import ContentLoom.Toml.Scalar
import ContentLoom.Toml.Table

/-!
# Reading TOML

A text is a sequence of lines: keys with values, headers of tables and of items
of arrays, comments.  All of it becomes one document; a text with a fault has
none.
-/

namespace ContentLoom.Toml

/-! ### Values -/

/-- What is left after a comment, if the text begins with one; control characters are refused, but
for the one that belongs to the line break. -/
def skipComment (cs : List Char) : Option (List Char) :=
  match cs with
  | '#' :: rest =>
    let line := rest.takeWhile (· ≠ '\n')
    let after := rest.dropWhile (· ≠ '\n')
    let kept := if line.getLast? = some '\r' ∧ !after.isEmpty then line.dropLast else line
    if kept.any isControl then none else some after
  | _ => some cs

/-- What is left after blanks, line breaks and comments. -/
def skipLines : Nat → List Char → Option (List Char)
  | 0, cs => some cs
  | fuel + 1, cs => do
    let rest ← skipComment (skipBlanks cs)
    match lineBreak? rest with
    | some rest => skipLines fuel rest
    | none => some rest

/-- The number of arrays and tables in braces that may lie one in another. -/
def nestingLimit : Nat := 80

mutual

/-- The value at the beginning of a text, in which so many containers may lie one in another. -/
def value? : Nat → Nat → List Char → Option (Json.Document × List Char)
  | 0, _, _ => none
  | fuel + 1, depth, cs =>
    match cs, depth with
    | '"' :: _, _ => (string? cs).map fun (s, rest) => (.str s, rest)
    | '\'' :: _, _ => (string? cs).map fun (s, rest) => (.str s, rest)
    | '[' :: rest, depth + 1 =>
      (arrayItems fuel depth rest).map fun (ds, rest) => (.arr ds (.closed .lenient), rest)
    | '{' :: rest, depth + 1 =>
      (inlineEntries fuel depth [] rest).map fun (entries, rest) =>
        (Node.document (.table .header entries), rest)
    | _, _ => do
      let (word, rest) := scalarChars cs
      let d ← scalarDocument? word
      some (d, rest)

/-- The items of an array up to its bracket; a comma may stand after the last. -/
def arrayItems : Nat → Nat → List Char → Option (List Json.Document × List Char)
  | 0, _, _ => none
  | fuel + 1, depth, cs => do
    match ← skipLines cs.length cs with
    | ']' :: rest => some ([], rest)
    | cs =>
      let (d, rest) ← value? fuel depth cs
      match ← skipLines rest.length rest with
      | ']' :: rest => some ([d], rest)
      | ',' :: rest =>
        let (ds, rest) ← arrayItems fuel depth rest
        some (d :: ds, rest)
      | _ => none

/-- The entries of a table in braces up to its closing brace; a comma may stand after the last, and
line breaks and comments around everything but the dots of a key. -/
def inlineEntries :
    Nat → Nat → List (String × Node) → List Char → Option (List (String × Node) × List Char)
  | 0, _, _, _ => none
  | fuel + 1, depth, entries, cs => do
    match ← skipLines cs.length cs with
    | '}' :: rest => some (entries, rest)
    | cs =>
      let (key, rest) ← key? cs
      match ← skipLines rest.length rest with
      | '=' :: rest =>
        let (d, rest) ← value? fuel depth (← skipLines rest.length rest)
        let entries ← Node.store d true key entries
        match ← skipLines rest.length rest with
        | '}' :: rest => some (entries, rest)
        | ',' :: rest => inlineEntries fuel depth entries rest
        | _ => none
      | _ => none

end

/-! ### Lines -/

/-- The tables read so far, and the path to the one that lines add to. -/
structure Progress where
  root : List (String × Node)
  path : List String

/-- Stores a value in the table at the end of a path that headers opened. -/
def storeAt (p : Progress) (d : Json.Document) (key : List String) : Option Progress :=
  (Node.along (Node.store d true key) p.path p.root).map fun root => { p with root := root }

/-- Reads a header after its brackets and opens what it names. -/
def header? (cs : List Char) (ending : List Char) (p : Progress)
    (make : List String → String → List (String × Node) → Option (List (String × Node))) :
    Option (Progress × List Char) := do
  let (key, rest) ← key? cs
  let rest ← Text.afterPrefix? ending rest
  let name ← key.getLast?
  let root ← make key.dropLast name p.root
  some (⟨root, key⟩, rest)

/-- Reads one line without its end. -/
def line? (p : Progress) (cs : List Char) : Option (Progress × List Char) :=
  match cs with
  | '[' :: '[' :: rest => header? rest [']', ']'] p Node.openItem
  | '[' :: rest => header? rest [']'] p Node.openTable
  | _ => do
    let (key, rest) ← key? cs
    match rest with
    | '=' :: rest =>
      let (d, rest) ← value? (2 * rest.length + 2) nestingLimit (skipBlanks rest)
      let p ← storeAt p d key
      some (p, rest)
    | _ => none

/-- Reads the lines of a text. -/
def lines? : Nat → Progress → List Char → Option Progress
  | 0, _, _ => none
  | fuel + 1, p, cs => do
    match ← skipLines (cs.length + 1) cs with
    | [] => some p
    | cs =>
      let (p, rest) ← line? p cs
      match ← skipComment (skipBlanks rest) with
      | [] => some p
      | rest => lines? fuel p (← lineBreak? rest)

/-- The document of a text. -/
def document? (text : String) : Option Json.Document :=
  let cs := match text.toList with
    | '\ufeff' :: rest => rest
    | cs => cs
  (lines? (cs.length + 1) ⟨[], []⟩ cs).map fun p => Node.document (.table .header p.root)

/-- Decodes a TOML text. -/
def decodeText {α : Type} (read : Json.Document → Except Json.Fault α) (text : String) :
    Except Json.Fault α :=
  match document? text with
  | some d => read d
  | none => .error .malformed

end ContentLoom.Toml

import ContentLoom.Json.Document
import ContentLoom.Json.Numeral

/-!
# Reading JSON

The reader turns a text into a document.  A fault of the grammar ends the
reading where it occurs.  Three faults are skippable, because a value that is
not looked at need not be represented: a numeral out of range, half of a
surrogate pair, and a container inside 127 others.
-/

namespace ContentLoom.Json.Document

/-- What is left after the spaces, tabs and line breaks. -/
def skipSpace (cs : List Char) : List Char :=
  cs.dropWhile fun c => c = ' ' || c = '\n' || c = '\t' || c = '\r'

/-! ### Strings -/

/-- A piece of a string: a character, or a UTF-16 unit given by its number. -/
inductive Piece where
  | char (c : Char)
  | unit (n : Nat)

/-- The value of a hexadecimal digit. -/
def hexValue? (c : Char) : Option Nat :=
  let n := c.toNat
  if '0' ≤ c ∧ c ≤ '9' then some (n - 48)
  else if 'a' ≤ c ∧ c ≤ 'f' then some (n - 87)
  else if 'A' ≤ c ∧ c ≤ 'F' then some (n - 55)
  else none

/-- The raw characters up to the closing quote, and what follows it. -/
def scanString : List Char → Option (List Char × List Char)
  | [] => none
  | '"' :: rest => some ([], rest)
  | '\\' :: c :: rest => (scanString rest).map fun (raw, after) => ('\\' :: c :: raw, after)
  | c :: rest =>
    if c.toNat < 0x20 then none
    else (scanString rest).map fun (raw, after) => (c :: raw, after)

/-- The character that a short escape stands for. -/
def shortEscape? : Char → Option Char
  | '"' => some '"'
  | '\\' => some '\\'
  | '/' => some '/'
  | 'b' => some '\x08'
  | 'f' => some '\x0c'
  | 'n' => some '\n'
  | 'r' => some '\r'
  | 't' => some '\t'
  | _ => none

/-- The pieces of the raw characters of a string; none for an escape that does not exist. -/
def pieces? : List Char → Option (List Piece)
  | [] => some []
  | '\\' :: 'u' :: a :: b :: c :: d :: rest => do
    let n := (← hexValue? a) * 4096 + (← hexValue? b) * 256 + (← hexValue? c) * 16 + (← hexValue? d)
    some (.unit n :: (← pieces? rest))
  | '\\' :: c :: rest => do
    let e ← shortEscape? c
    some (.char e :: (← pieces? rest))
  | c :: rest => (pieces? rest).map (.char c :: ·)

/-- The characters of the pieces; none for half of a surrogate pair. -/
def join? : List Piece → Option (List Char)
  | [] => some []
  | .char c :: rest => (join? rest).map (c :: ·)
  | .unit high :: .unit low :: rest =>
    if 0xD800 ≤ high ∧ high < 0xDC00 then
      if 0xDC00 ≤ low ∧ low < 0xE000 then
        (join? rest).map (Char.ofNat (0x10000 + (high - 0xD800) * 0x400 + (low - 0xDC00)) :: ·)
      else none
    else if 0xDC00 ≤ high ∧ high < 0xE000 then none
    else (join? (.unit low :: rest)).map (Char.ofNat high :: ·)
  | .unit n :: rest =>
    if 0xD800 ≤ n ∧ n < 0xE000 then none else (join? rest).map (Char.ofNat n :: ·)

/-- The text of a string after its opening quote, none if it holds half of a pair, and what
follows the string. -/
def readString (cs : List Char) : Option (Option String × List Char) := do
  let (raw, rest) ← scanString cs
  let pieces ← pieces? raw
  some ((join? pieces).map String.ofList, rest)

/-! ### Values -/

/-- The number of containers that may enclose one another. -/
def nestingLimit : Nat := 127

/-- A container that lies within `depth` others, if so many are allowed. -/
def withinLimit (depth : Nat) (container : Document) (goesOn : Bool) : Document :=
  if depth < nestingLimit then container else .fault goesOn

mutual

/-- The value at the beginning of a text within `depth` containers, and what follows it. -/
def readValue : Nat → Nat → List Char → Document × Option (List Char)
  | 0, _, _ => (.fault false, none)
  | fuel + 1, depth, cs =>
    match skipSpace cs with
    | '"' :: rest =>
      match readString rest with
      | some (some s, rest) => (.str s, some rest)
      | some (none, rest) => (.fault true, some rest)
      | none => (.fault false, none)
    | '[' :: rest =>
      let (items, stop, rest) : List Document × Stop × Option (List Char) := match skipSpace rest with
        | ']' :: rest => ([], .closed .streamed, some rest)
        | rest => readItems fuel (depth + 1) rest
      (withinLimit depth (.arr items stop) rest.isSome, rest)
    | '{' :: rest =>
      let (members, stop, rest) : List (String × Document) × Stop × Option (List Char) :=
        match skipSpace rest with
        | '}' :: rest => ([], .closed .streamed, some rest)
        | rest => readMembers fuel (depth + 1) rest
      (withinLimit depth (.obj members stop) rest.isSome, rest)
    | 'n' :: 'u' :: 'l' :: 'l' :: rest => (.null, some rest)
    | 't' :: 'r' :: 'u' :: 'e' :: rest => (.bool true, some rest)
    | 'f' :: 'a' :: 'l' :: 's' :: 'e' :: rest => (.bool false, some rest)
    | rest =>
      match Numeral.scan rest with
      | some (numeral, rest) =>
        match numeral.toJson? with
        | some (.int n) => (.int n, some rest)
        | some (.float x) => (.float x, some rest)
        | _ => (.fault true, some rest)
      | none => (.fault false, none)

/-- The items of an array from the first value on, how they end, and what follows the array. -/
def readItems : Nat → Nat → List Char → List Document × Stop × Option (List Char)
  | 0, _, _ => ([], .cut false, none)
  | fuel + 1, depth, cs =>
    match readValue fuel depth cs with
    | (item, none) => ([item], .cut false, none)
    | (item, some rest) =>
      match skipSpace rest with
      | ']' :: rest => ([item], .closed .streamed, some rest)
      | ',' :: rest =>
        let (items, stop, rest) := readItems fuel depth rest
        (item :: items, stop, rest)
      | _ => ([item], .cut false, none)

/-- The members of an object from the first name on, how they end, and what follows the object. -/
def readMembers : Nat → Nat → List Char → List (String × Document) × Stop × Option (List Char)
  | 0, _, _ => ([], .cut false, none)
  | fuel + 1, depth, cs =>
    match skipSpace cs with
    | '"' :: rest =>
      match readString rest with
      | none => ([], .cut false, none)
      | some (name, rest) =>
        let (value, rest) : Document × Option (List Char) := match skipSpace rest with
          | ':' :: rest => readValue fuel depth rest
          | _ => (.fault false, none)
        let (members, stop, rest) : List (String × Document) × Stop × Option (List Char) :=
          match rest with
          | none => ([], .cut false, none)
          | some rest =>
            match skipSpace rest with
            | '}' :: rest => ([], .closed .streamed, some rest)
            | ',' :: rest => readMembers fuel depth rest
            | _ => ([], .cut false, none)
        match name with
        | some name => ((name, value) :: members, stop, rest)
        | none => ([], .cut rest.isSome, rest)
    | _ => ([], .cut false, none)

end

/-- The document of a text, and whether nothing but space follows its value. -/
def ofText (text : String) : Document × Bool :=
  let cs := text.toList
  match readValue (2 * cs.length + 2) 0 cs with
  | (value, some rest) => (value, (skipSpace rest).isEmpty)
  | (value, none) => (value, false)

end Document

/-- The value of a JSON text. -/
def read? (text : String) : Option Json :=
  match Document.ofText text with
  | (document, true) => document.toJson?
  | (_, false) => none

end ContentLoom.Json

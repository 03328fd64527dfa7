import ContentLoom.Pattern.Grammar

/-!
# Log filters

A filter is a sequence of directives between commas; empty ones do not count.
A directive is a level, or a target with perhaps a span in brackets and a level
after an equals sign.  A field of a span stands in braces, perhaps with a value.

The signs of a directive are looked for in its text without blanks at the ends,
and the pieces between them are taken from the text with its blanks, at the
same distances in bytes from its beginning.  So blanks in front move every
piece, and an edge that comes to lie inside a character cuts it.
-/

namespace ContentLoom.Command.LogFilter

/-- Why a text is no filter. -/
inductive Refusal where
  | malformed
  /-- An edge of a piece lies inside a character. -/
  | cutCharacter
deriving DecidableEq

/-! ### Levels -/

/-- The names of levels. -/
def levelNames : List String := ["trace", "debug", "info", "warn", "error", "off"]

/-- The number that digits denote. -/
def numberOf (digits : List Char) : Nat :=
  digits.foldl (fun n c => n * 10 + (c.toNat - '0'.toNat)) 0

/-- The digits of a number, without a plus sign in front. -/
def unsigned : List Char → List Char
  | '+' :: digits => digits
  | digits => digits

/-- A level by name or by a number up to five. -/
def isLevel (cs : List Char) : Bool :=
  let digits := unsigned cs
  levelNames.any (fun name => Text.eqIgnoringAsciiCase cs name.toList) ||
    (!digits.isEmpty && digits.all Char.isDigit && numberOf digits ≤ 5)

/-! ### Values of fields -/

/-- What follows the sign of a number. -/
def afterSign : List Char → List Char
  | '+' :: cs => cs
  | '-' :: cs => cs
  | cs => cs

/-- Whether there are only digits, and at least one. -/
def isDigits (cs : List Char) : Bool := !cs.isEmpty && cs.all Char.isDigit

/-- Whether a text is a decimal number without its exponent. -/
def isMantissa (cs : List Char) : Bool :=
  match Text.cutFirst? '.' cs with
  | some (whole, fraction) => isDigits (whole ++ fraction)
  | none => isDigits cs

/-- Whether a text is a number. -/
def isNumber (cs : List Char) : Bool :=
  let body := afterSign cs
  let isMark := fun c : Char => c == 'e' || c == 'E'
  ["inf", "infinity", "nan"].any (fun name => Text.eqIgnoringAsciiCase body name.toList) ||
    match body.dropWhile fun c => !isMark c with
    | [] => isMantissa body
    | _ :: exponent => isMantissa (body.takeWhile fun c => !isMark c) && isDigits (afterSign exponent)

/-- Whether the value of a field, which stands after its first equals sign and before a second, is
a number or a pattern. -/
def isField (cs : List Char) : Bool :=
  match Text.segments '=' cs with
  | _ :: value :: _ => isNumber value || Pattern.isPattern value
  | _ => true

/-! ### Pieces -/

/-- The characters after so many bytes, unless these end inside a character. -/
def dropBytes? : Nat → List Char → Option (List Char)
  | 0, cs => some cs
  | _ + 1, [] => none
  | n + 1, c :: cs => if c.utf8Size ≤ n + 1 then dropBytes? (n + 1 - c.utf8Size) cs else none

/-- The characters that take so many bytes, if these do not end inside a character. -/
def takeBytes? : Nat → List Char → Option (List Char)
  | 0, _ => some []
  | _ + 1, [] => none
  | n + 1, c :: cs =>
    if c.utf8Size ≤ n + 1 then (takeBytes? (n + 1 - c.utf8Size) cs).map (c :: ·) else none

/-- The number of bytes of a text. -/
def byteSize (cs : List Char) : Nat := cs.foldr (fun c n => c.utf8Size + n) 0

/-- A text that is being read: as it is written, and how many bytes of it without the blanks in
front have been read. -/
structure Cursor where
  written : List Char
  position : Nat

namespace Cursor

/-- Goes over characters and takes the piece in their place. -/
def take (k : Cursor) (cs : List Char) : Except Refusal (List Char × Cursor) :=
  match (dropBytes? k.position k.written).bind (takeBytes? (byteSize cs)) with
  | some piece => .ok (piece, { k with position := k.position + byteSize cs })
  | none => .error .cutCharacter

/-- Goes over one sign, which is a single byte. -/
def passSign (k : Cursor) : Cursor := { k with position := k.position + 1 }

/-- All that is written from here on. -/
def toEnd (k : Cursor) : Except Refusal (List Char) :=
  match dropBytes? k.position k.written with
  | some piece => .ok piece
  | none => .error .cutCharacter

end Cursor

/-- Requires what a directive has to be. -/
def require (condition : Bool) : Except Refusal Unit :=
  if condition then .ok () else .error .malformed

/-! ### Directives -/

/-- A level after its equals sign, which may be left out. -/
def checkLevel (k : Cursor) : Except Refusal Unit := do
  let level ← k.toEnd
  require (level.isEmpty || isLevel level)

/-- What may follow a span. -/
def checkAfterSpan (k : Cursor) : List Char → Except Refusal Unit
  | [] => .ok ()
  | '=' :: _ => checkLevel k.passSign
  | _ => .error .malformed

/-- The field of a span after its brace, and what follows it. -/
def checkField (k : Cursor) (cs : List Char) : Except Refusal Unit :=
  match Text.cutFirst? '}' cs with
  | none => .error .malformed
  | some (field, rest) => do
    let (piece, k) ← k.take field
    require (!piece.isEmpty && isField piece)
    match rest with
    | ']' :: rest => checkAfterSpan k.passSign.passSign rest
    | _ => .error .malformed

/-- A span after its bracket, and what follows it. -/
def checkSpan (k : Cursor) (cs : List Char) : Except Refusal Unit :=
  let name := cs.takeWhile fun c => c ≠ ']' ∧ c ≠ '{'
  match cs.drop name.length with
  | [] => .error .malformed
  | c :: rest => do
    let (_, k) ← k.take name
    if c = ']' then checkAfterSpan k.passSign rest else checkField k.passSign rest

/-- A character at the beginning of a target. -/
def startsTarget (c : Char) : Bool := Text.isAlphanumeric c || c == '-' || c == ':' || c == '_'

/-- One directive. -/
def checkDirective (written : List Char) : Except Refusal Unit :=
  match Text.trim written with
  | [] => .error .malformed
  | '[' :: rest => checkSpan ⟨written, 1⟩ rest
  | first :: more => do
    require (startsTarget first)
    let target := (first :: more).takeWhile fun c => c ≠ '=' ∧ c ≠ '['
    match (first :: more).drop target.length with
    | [] => .ok ()
    | c :: rest =>
      let (_, k) ← Cursor.take ⟨written, 0⟩ target
      if c = '=' then checkLevel k.passSign else checkSpan k.passSign rest

/-- Checks the directives of a filter in order. -/
def check (text : String) : Except Refusal Unit :=
  ((Text.segments ',' text.toList).filter fun d => !d.isEmpty).forM checkDirective

end ContentLoom.Command.LogFilter

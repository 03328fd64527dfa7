import ContentLoom.Json.Reader
import ContentLoom.Text.Blank

/-!
# Escapes in patterns

A pattern is read under a mode, which its own flags change.  The tables of
Unicode are not at hand, so whatever needs one is refused: the kinds of
characters and the edges of words under Unicode, and letters whose case does
not count.  What would match bytes that are no text is refused as well.
-/

namespace ContentLoom.Pattern

/-! ### Modes -/

/-- The flags in force where a pattern is read. -/
structure Mode where
  /-- Capital letters are not told from small ones. -/
  caseless : Bool
  /-- Kinds of characters are those of Unicode, not of ASCII. -/
  unicode : Bool
  /-- Blanks and comments do not count. -/
  spaced : Bool
deriving DecidableEq

namespace Mode

/-- The flags at the beginning of a pattern. -/
def standard : Mode := ⟨false, true, false⟩

/-- Whether characters can be compared: for all of Unicode only if their case counts. -/
def comparesChars (m : Mode) : Bool := !(m.caseless && m.unicode)

/-- Whether a character can be an item of a set: beyond ASCII only under Unicode. -/
def hasItem (m : Mode) (c : Char) : Bool := m.comparesChars && (m.unicode || c.toNat < 0x80)

end Mode

/-- What is left after blanks and comments, from inside a comment or not; a comment goes up to the
end of its line. -/
def skipSpace (inComment : Bool) : List Char → List Char
  | [] => []
  | c :: cs =>
    if inComment then skipSpace (c != '\n') cs
    else if Text.isBlank c then skipSpace false cs
    else if c = '#' then skipSpace true cs
    else c :: cs

/-- What is left after all that does not count. -/
def Mode.skip (m : Mode) (cs : List Char) : List Char :=
  if m.spaced then skipSpace false cs else cs

theorem skipSpace_length (inComment : Bool) (cs : List Char) :
    (skipSpace inComment cs).length ≤ cs.length := by
  induction cs generalizing inComment with
  | nil => simp [skipSpace]
  | cons c cs ih =>
    unfold skipSpace
    split
    · exact Nat.le_succ_of_le (ih _)
    · split
      · exact Nat.le_succ_of_le (ih _)
      · split
        · exact Nat.le_succ_of_le (ih _)
        · exact Nat.le_refl _

theorem Mode.skip_length (m : Mode) (cs : List Char) : (m.skip cs).length ≤ cs.length := by
  unfold Mode.skip
  split
  · exact skipSpace_length false cs
  · exact Nat.le_refl _

/-! ### Escapes -/

/-- What an escape stands for. -/
inductive Escape where
  | char (c : Char)
  /-- A kind of characters, such as the digits. -/
  | kind
  /-- A place between characters, such as the end of the text. -/
  | place
deriving DecidableEq

/-- The number of so many hexadecimal digits, and what follows it. -/
def hexNumber? (m : Mode) : Nat → Nat → List Char → Option (Nat × List Char)
  | 0, n, cs => some (n, cs)
  | digits + 1, n, cs =>
    match m.skip cs with
    | c :: rest => do
      let v ← Json.Document.hexValue? c
      hexNumber? m digits (n * 16 + v) rest
    | [] => none

/-- The character with a number of so many digits. -/
def numbered? (m : Mode) (digits : Nat) (cs : List Char) : Option (Char × List Char) := do
  let (n, rest) ← hexNumber? m digits 0 cs
  if n < 0xD800 ∨ (0xE000 ≤ n ∧ n < 0x110000) then some (Char.ofNat n, m.skip rest) else none

/-- The control character that a letter stands for. -/
def control? : Char → Option Char
  | 'a' => some '\x07'
  | 'f' => some '\x0c'
  | 't' => some '\t'
  | 'n' => some '\n'
  | 'r' => some '\r'
  | 'v' => some '\x0b'
  | _ => none

/-- Whether a character loses its meaning by a backslash: every one of ASCII but letters, digits
and the marks for the edges of words. -/
def isEscapable (c : Char) : Bool := c.toNat < 0x80 && !c.isAlphanum && c != '<' && c != '>'

/-- Whether a letter after a backslash names a kind of characters of ASCII. -/
def namesKind (c : Char) : Bool := c == 'd' || c == 's' || c == 'w'

/-- Whether a character after a backslash names an edge of a word, or a place inside one. -/
def namesWordEdge (c : Char) : Bool := c == 'b' || c == 'B' || c == '<' || c == '>'

/-- The escape at the beginning of a text after its backslash. -/
def escape? (m : Mode) : List Char → Option (Escape × List Char)
  | [] => none
  | 'x' :: rest => do
    let (c, rest) ← numbered? m 2 rest
    if m.unicode || c.toNat < 0x80 then some (.char c, rest) else none
  | 'u' :: rest => (numbered? m 4 rest).map fun (c, rest) => (.char c, rest)
  | 'U' :: rest => (numbered? m 8 rest).map fun (c, rest) => (.char c, rest)
  | 'A' :: rest => some (.place, rest)
  | 'z' :: rest => some (.place, rest)
  | c :: rest =>
    match control? c with
    | some e => some (.char e, rest)
    | none =>
      if isEscapable c then some (.char c, rest)
      else if m.unicode then none
      else if namesKind c then some (.kind, rest)
      else if namesWordEdge c then some (.place, rest)
      else none

end ContentLoom.Pattern

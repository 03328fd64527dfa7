import ContentLoom.Digest.Sha1
import ContentLoom.Json.Decode
import ContentLoom.Text.Blank
import ContentLoom.Text.Segments

/-!
# Content type identifiers

An identifier has 128 bits.  It is read from its 32 hexadecimal digits in any
case, plain or with hyphens, the latter also in braces or after `urn:uuid:`,
and it is written in small digits.  A type without an identifier of its own
gets one that is derived from its name.
-/

namespace ContentLoom

/-- The identifier of a content type. -/
structure Identifier where
  bits : BitVec 128
deriving DecidableEq

namespace Identifier

instance : Inhabited Identifier := ⟨⟨0⟩⟩

/-! ### Writing -/

/-- The hexadecimal digit at a place, the most significant first. -/
def digitAt (id : Identifier) (place : Nat) : Char :=
  Nat.digitChar (id.bits.toNat / Nat.pow 16 (31 - place) % 16)

/-- All 32 digits. -/
def digits (id : Identifier) : List Char := (List.range 32).map id.digitAt

theorem length_digits (id : Identifier) : id.digits.length = 32 := by simp [digits]

/-- All 32 digits in one word. -/
def hex (id : Identifier) : String := String.ofList id.digits

/-- The first eight digits, by which names are told apart. -/
def short (id : Identifier) : String := String.ofList (id.digits.take 8)

/-- The places before which a hyphen is written. -/
def hyphenPlaces : List Nat := [8, 12, 16, 20]

/-- The digits in groups of 8, 4, 4, 4 and 12 with hyphens between them. -/
def hyphenated (id : Identifier) : List Char :=
  (List.range 32).flatMap fun i =>
    if hyphenPlaces.contains i then ['-', id.digitAt i] else [id.digitAt i]

/-- The usual text of an identifier. -/
def text (id : Identifier) : String := String.ofList id.hyphenated

/-! ### Reading -/

/-- The number that 32 hexadecimal digits denote. -/
def ofDigits? (cs : List Char) : Option Identifier := do
  let values ← cs.mapM Json.Document.hexValue?
  if values.length = 32 then
    some ⟨BitVec.ofNat 128 (values.foldl (fun n v => n * 16 + v) 0)⟩
  else none

/-- An identifier in groups with hyphens between them. -/
def ofHyphenated? (cs : List Char) : Option Identifier :=
  match Text.segments '-' cs with
  | [a, b, c, d, e] =>
    if a.length = 8 ∧ b.length = 4 ∧ c.length = 4 ∧ d.length = 4 ∧ e.length = 12 then
      ofDigits? (a ++ b ++ c ++ d ++ e)
    else none
  | _ => none

/-- The name under which identifiers are written as resource names. -/
def resourcePrefix : List Char := "urn:uuid:".toList

/-- An identifier in one of the accepted forms, without blanks around it. -/
def ofChars? (cs : List Char) : Option Identifier :=
  match cs with
  | '{' :: rest =>
    match rest.reverse with
    | '}' :: inner => ofHyphenated? inner.reverse
    | _ => none
  | _ =>
    if (cs.take 9).map Text.asciiLower = resourcePrefix then ofHyphenated? (cs.drop 9)
    else (ofDigits? cs).orElse fun _ => ofHyphenated? cs

/-- The identifier of a marker, where blanks around it do not count. -/
def parse? (text : String) : Option Identifier := ofChars? (Text.trim text.toList)

/-! ### Deriving -/

/-- The name space of derived identifiers. -/
def derivationNamespace : Identifier := ⟨0x4c0e61b295a74d3e8f210b6dc3a97e54⟩

/-- The bytes of an identifier. -/
def bytes (id : Identifier) : List UInt8 := Digest.bytesOf 16 id.bits.toNat

/-- The identifier derived from a name: a digest marked as version 5 of the usual variant. -/
def derive (name : String) : Identifier :=
  let digest := Digest.Sha1.digest (derivationNamespace.bytes ++ name.toUTF8.toList)
  let value := (digest.take 16).foldl (fun n b => n * 256 + b.toNat) 0
  let bits := BitVec.ofNat 128 value
  let versioned := (bits &&& ~~~(0xf#128 <<< 76)) ||| (0x5#128 <<< 76)
  ⟨(versioned &&& ~~~(0x3#128 <<< 62)) ||| (0x2#128 <<< 62)⟩

/-! ### JSON -/

/-- The identifier as a JSON text. -/
def toJson (id : Identifier) : Json := .str id.text

/-- The identifier of a JSON text in one of the accepted forms. -/
def ofDocument (d : Json.Document) : Except Json.Fault Identifier := do
  match ofChars? (← d.readText).toList with
  | some id => .ok id
  | none => .error .malformed

end Identifier

end ContentLoom

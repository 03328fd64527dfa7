import ContentLoom.Json.Decode

/-!
# Conversions

How the value of a property is transformed on its way into the model: copied,
or converted by one of the known converters, by the converter of an enumeration
or by a converter that a marker names.
-/

namespace ContentLoom

/-- The converters that every pipeline knows. -/
inductive KnownConverter where
  | media
  | block
  | embeddedBlock
  | contentReference
  | contentArea
  | link
  | xhtmlString
deriving DecidableEq

namespace KnownConverter

/-- Every known converter, in the order of registration. -/
def all : List KnownConverter :=
  [block, embeddedBlock, contentArea, link, xhtmlString, contentReference, media]

theorem mem_all (c : KnownConverter) : c ∈ all := by cases c <;> decide

/-- The name without the words around it. -/
def stem : KnownConverter → String
  | media => "Media"
  | block => "Block"
  | embeddedBlock => "EmbeddedBlock"
  | contentReference => "ContentReference"
  | contentArea => "ContentArea"
  | link => "Link"
  | xhtmlString => "XhtmlString"

/-- The interface by which the converter is asked for. -/
def contract (c : KnownConverter) : String := "I" ++ c.stem ++ "Converter"

/-- The class that does the work unless another is registered. -/
def implementation (c : KnownConverter) : String := c.stem ++ "Converter"

/-- The converters by the names they have in JSON. -/
def named : List (String × KnownConverter) := [
  ("media", media), ("block", block), ("embedded_block", embeddedBlock),
  ("content_reference", contentReference), ("content_area", contentArea), ("link", link),
  ("xhtml_string", xhtmlString)]

/-- The name in JSON. -/
def jsonName : KnownConverter → String
  | media => "media"
  | block => "block"
  | embeddedBlock => "embedded_block"
  | contentReference => "content_reference"
  | contentArea => "content_area"
  | link => "link"
  | xhtmlString => "xhtml_string"

theorem lookup_jsonName (c : KnownConverter) : named.lookup c.jsonName = some c := by
  cases c <;> decide

/-- The place in the order in which converters are sorted. -/
def rank : KnownConverter → Nat
  | media => 0
  | block => 1
  | embeddedBlock => 2
  | contentReference => 3
  | contentArea => 4
  | link => 5
  | xhtmlString => 6

end KnownConverter

/-- How a property value is transformed. -/
inductive Conversion where
  | copy
  | known (converter : KnownConverter)
  | enumeration (type : String)
  | custom (type : String)
deriving DecidableEq

namespace Conversion

instance : Inhabited Conversion := ⟨copy⟩

/-- Whether the value is copied. -/
def isCopy : Conversion → Bool
  | copy => true
  | _ => false

theorem isCopy_iff (k : Conversion) : k.isCopy = true ↔ k = copy := by
  cases k <;> simp [isCopy]

/-- The type by which the converter is asked for; `None` for a copy. -/
def text : Conversion → String
  | copy => "None"
  | known c => c.contract
  | enumeration type => "IEnumConverter<" ++ type ++ ">"
  | custom type => type

/-! ### JSON -/

/-- The kinds of conversion as JSON names them. -/
inductive Kind where
  | none
  | wellKnown
  | enum
  | custom
deriving DecidableEq

/-- The kinds by name. -/
def kinds : List (String × Kind) :=
  [("none", .none), ("well_known", .wellKnown), ("enum", .enum), ("custom", .custom)]

/-- The conversion as JSON. -/
def toJson : Conversion → Json
  | copy => .obj [("kind", .str "none")]
  | known c => .obj [("kind", .str "well_known"), ("converter", .str c.jsonName)]
  | enumeration type => .obj [("kind", .str "enum"), ("enum_type", .str type)]
  | custom type => .obj [("kind", .str "custom"), ("type_name", .str type)]

/-- A record with one field that has no default. -/
def oneField {α β : Type} (name : String) (read : Json.Document → Except Json.Fault α)
    (make : α → β) : Json.Document → Except Json.Fault β :=
  Json.Document.readRecord [name] (Option.none : Option α)
    (fun slot _ d => Json.Document.once slot name (read d))
    (fun layout slot => (Json.Document.required layout name slot).map make)

/-- The conversion of a document. -/
def ofDocument (d : Json.Document) : Except Json.Fault Conversion := do
  let (kind, fields) ← d.readTagged "kind" kinds
  match kind with
  | .none => fields.readNothing.map fun _ => copy
  | .wellKnown =>
    oneField "converter" (Json.Document.readVariant KnownConverter.named) known fields
  | .enum => oneField "enum_type" Json.Document.readText enumeration fields
  | .custom => oneField "type_name" Json.Document.readText custom fields

end Conversion

end ContentLoom

import ContentLoom.Content.Value
import ContentLoom.Json.Decode

/-!
# Content as JSON

A value is an object with its kind and, unless it is null, the value itself.
An item is an object with its type, its reference and its properties.
-/

namespace ContentLoom

/-! ### Writing -/

namespace AreaEntry

/-- An entry as JSON; a display option that is not given is left out. -/
def toJson (e : AreaEntry) : Json :=
  .obj (("reference", .int e.reference.id.toNat) ::
    match e.displayOption with
    | some option => [("display_option", .str option)]
    | none => [])

end AreaEntry

namespace ContentValue

/-- A kind with its value. -/
def tagged (kind : String) (value : Json) : Json := .obj [("kind", .str kind), ("value", value)]

mutual

/-- A value as JSON. -/
def toJson : ContentValue → Json
  | null => .obj [("kind", .str "null")]
  | bool b => tagged "bool" (.bool b)
  | integer n => tagged "integer" (.int n.toInt)
  | float x => tagged "float" (.float x)
  | text s => tagged "string" (.str s)
  | enumeration variant => tagged "enum" (.str variant)
  | url address => tagged "url" (.str address)
  | reference target => tagged "reference" (.int target.id.toNat)
  | area entries => tagged "area" (.obj [("items", .arr (entries.map AreaEntry.toJson))])
  | xhtml markup => tagged "xhtml" (.str markup)
  | block item => tagged "block" (itemToJson item)
  | list values => tagged "list" (.arr (valuesToJson values))

/-- An item as JSON. -/
def itemToJson : ContentItem → Json
  | ⟨contentType, r, properties⟩ =>
    .obj [("content_type", .str contentType), ("reference", .int r.id.toNat),
      ("properties", .obj (propertiesToJson properties))]

/-- The values of a list as JSON. -/
def valuesToJson : List ContentValue → List Json
  | [] => []
  | v :: vs => toJson v :: valuesToJson vs

/-- The properties of an item as JSON. -/
def propertiesToJson : List (String × ContentValue) → List (String × Json)
  | [] => []
  | (name, v) :: rest => (name, toJson v) :: propertiesToJson rest

end

end ContentValue

/-- An item as JSON. -/
def ContentItem.toJson (item : ContentItem) : Json := ContentValue.itemToJson item

/-! ### Reading -/

/-- The reference of a document. -/
def ContentReference.ofDocument (d : Json.Document) : Except Json.Fault ContentReference :=
  d.readNat64.map fun n => ⟨UInt64.ofNat n⟩

namespace AreaEntry

/-- The fields of an entry read so far. -/
structure Draft where
  reference : Option ContentReference
  displayOption : Option (Option String)

open Json.Document in
/-- The entry of a document. -/
def ofDocument : Json.Document → Except Json.Fault AreaEntry :=
  readRecord ["reference", "display_option"] (⟨none, none⟩ : Draft)
    (fun e field d =>
      match field with
      | "reference" => do
        pure { e with reference := ← once e.reference field (ContentReference.ofDocument d) }
      | _ => do
        pure { e with displayOption := ← once e.displayOption field (d.readOption readText) })
    (fun layout e => do
      pure ⟨← required layout "reference" e.reference, e.displayOption.getD none⟩)

open Json.Document in
/-- The entries of an area. -/
def areaOfDocument : Json.Document → Except Json.Fault (List AreaEntry) :=
  readRecord ["items"] (none : Option (List AreaEntry))
    (fun entries field d => once entries field (d.readList ofDocument))
    (fun layout entries => required layout "items" entries)

end AreaEntry

namespace ContentItem

/-- The fields of an item read so far. -/
structure Draft where
  contentType : Option String
  reference : Option ContentReference
  properties : Option (List (String × ContentValue))

open Json.Document in
/-- The item of a document whose values are read by `readValue`. -/
def readWith (readValue : Json.Document → Except Json.Fault ContentValue) :
    Json.Document → Except Json.Fault ContentItem :=
  readRecord ["content_type", "reference", "properties"] (⟨none, none, none⟩ : Draft)
    (fun i field d =>
      match field with
      | "content_type" => do pure { i with contentType := ← once i.contentType field d.readText }
      | "reference" => do
        pure { i with reference := ← once i.reference field (ContentReference.ofDocument d) }
      | _ => do
        pure { i with
          properties := ← once i.properties field ((d.readEntries readValue).map Entries.sorted) })
    (fun layout i => do
      pure ⟨← required layout "content_type" i.contentType, i.reference.getD .empty,
        i.properties.getD []⟩)

end ContentItem

namespace ContentValue

/-- The kinds of values as JSON names them. -/
inductive Kind where
  | null
  | bool
  | integer
  | float
  | text
  | enumeration
  | url
  | reference
  | area
  | xhtml
  | block
  | list
deriving DecidableEq

/-- The kinds by name. -/
def kinds : List (String × Kind) :=
  [("null", .null), ("bool", .bool), ("integer", .integer), ("float", .float), ("string", .text),
    ("enum", .enumeration), ("url", .url), ("reference", .reference), ("area", .area),
    ("xhtml", .xhtml), ("block", .block), ("list", .list)]

/-- A signed integer of 64 bits. -/
def integerOfDocument (d : Json.Document) : Except Json.Fault Int64 :=
  (d.readInt (-0x8000000000000000) 0x7fffffffffffffff).map Int64.ofInt

/-- No value. -/
def nullOfDocument : Json.Document → Except Json.Fault ContentValue
  | .null => .ok null
  | _ => .error .malformed

/-- The value of a kind, where values inside it are read by `readValue`. -/
def readKind (readValue : Json.Document → Except Json.Fault ContentValue) (kind : Kind)
    (d : Json.Document) : Except Json.Fault ContentValue :=
  match kind with
  | .null => nullOfDocument d
  | .bool => d.readBool.map bool
  | .integer => (integerOfDocument d).map integer
  | .float => d.readFloat.map float
  | .text => d.readText.map text
  | .enumeration => d.readText.map enumeration
  | .url => d.readText.map url
  | .reference => (ContentReference.ofDocument d).map reference
  | .area => (AreaEntry.areaOfDocument d).map area
  | .xhtml => d.readText.map xhtml
  | .block => (ContentItem.readWith readValue d).map block
  | .list => (d.readList readValue).map list

/-- The value of a kind where none is given. -/
def absent? : Kind → Option ContentValue
  | .null => some null
  | _ => none

/-- The value of a document with values in it down to a depth. -/
def readTo : Nat → Json.Document → Except Json.Fault ContentValue
  | 0, _ => .error .malformed
  | depth + 1, d => d.readAdjacent "kind" "value" kinds (readKind (readTo depth)) absent?

/-- The value of a document. -/
def ofDocument (d : Json.Document) : Except Json.Fault ContentValue := readTo d.height d

end ContentValue

/-- The item of a document. -/
def ContentItem.ofDocument (d : Json.Document) : Except Json.Fault ContentItem :=
  ContentItem.readWith (ContentValue.readTo d.height) d

end ContentLoom

import ContentLoom.Number.Binary64
import ContentLoom.Entries
import ContentLoom.Text.Segments

/-!
# Content

An item of content is an instance of a content class: the name of its exact
type, its reference, and the raw values of its properties.  A value may hold
further items in the place of a property.  The names of the properties of an
item increase by code point; every operation here keeps them so.
-/

namespace ContentLoom

/-! ### References -/

/-- What a stored item is found by. -/
structure ContentReference where
  id : UInt64
deriving DecidableEq, Inhabited

namespace ContentReference

/-- The reference to nothing. -/
def empty : ContentReference := ⟨0⟩

/-- Whether the reference refers to nothing. -/
def isEmpty (r : ContentReference) : Bool := r.id == 0

/-- The reference as text. -/
def text (r : ContentReference) : String := toString r.id.toNat

end ContentReference

/-- An entry of a content area. -/
structure AreaEntry where
  reference : ContentReference
  displayOption : Option String
deriving DecidableEq, Inhabited

/-! ### Values and items -/

mutual

/-- The raw value of a property. -/
inductive ContentValue where
  | null
  | bool (value : Bool)
  | integer (value : Int64)
  | float (value : Binary64)
  | text (value : String)
  /-- The name of a variant of an enumeration. -/
  | enumeration (variant : String)
  | url (address : String)
  | reference (target : ContentReference)
  | area (entries : List AreaEntry)
  /-- Rich text as it is stored, before it is rendered. -/
  | xhtml (markup : String)
  /-- An item that is part of its owner. -/
  | block (item : ContentItem)
  | list (values : List ContentValue)

/-- An item of content. -/
structure ContentItem where
  /-- The full name of the exact class. -/
  contentType : String
  reference : ContentReference
  properties : List (String × ContentValue)

end

instance : Inhabited ContentValue := ⟨.null⟩

namespace ContentValue

/-- The name of a kind of value, as failures give it. -/
def kindName : ContentValue → String
  | null => "null"
  | bool _ => "bool"
  | integer _ => "integer"
  | float _ => "float"
  | text _ => "string"
  | enumeration _ => "enum"
  | url _ => "url"
  | reference _ => "reference"
  | area _ => "content area"
  | xhtml _ => "xhtml"
  | block _ => "block"
  | list _ => "list"

/-- Whether there is no value. -/
def isNull : ContentValue → Bool
  | null => true
  | _ => false

end ContentValue

namespace ContentItem

/-- An item without reference and properties. -/
def ofType (contentType : String) : ContentItem := ⟨contentType, .empty, []⟩

instance : Inhabited ContentItem := ⟨ofType ""⟩

/-- The item with a value for a property, in place of an earlier one. -/
def withProperty (item : ContentItem) (name : String) (value : ContentValue) : ContentItem :=
  { item with properties := Entries.insert item.properties name value }

/-- The value of a property; one that the item does not have is null. -/
def property (item : ContentItem) (name : String) : ContentValue :=
  (Entries.get? item.properties name).getD .null

/-- The name of the type without its namespace. -/
def typeName (item : ContentItem) : String :=
  String.ofList (Text.afterLast '.' item.contentType.toList)

end ContentItem

end ContentLoom

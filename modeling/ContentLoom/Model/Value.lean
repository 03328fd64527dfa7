import ContentLoom.Content.Document
import ContentLoom.ContentClass

/-!
# Models

The model of an item of content is what a pipeline makes of it: a tag that
tells which class it belongs to, and values by property name, in the order in
which they were first set.
-/

namespace ContentLoom

/-- Which model it is. -/
inductive ModelKind where
  /-- The model of content without a pipeline of its own. -/
  | base
  /-- The model of a class with a tag. -/
  | ofClass (discriminant : String)
deriving DecidableEq, Inhabited

/-- The tag of a model. -/
def ModelKind.discriminant : ModelKind → String
  | base => ContentClass.baseDiscriminant
  | ofClass discriminant => discriminant

mutual

/-- The value of a property of a model. -/
inductive ModelValue where
  | null
  | bool (value : Bool)
  | integer (value : Int64)
  | float (value : Binary64)
  | text (value : String)
  /-- A link, perhaps without address. -/
  | link (address : Option String)
  | media (asset : Media)
  | area (entries : List AreaModel)
  | model (model : PipelineModel)
  | list (values : List ModelValue)
  /-- A copied structure that has no model of its own. -/
  | json (value : Json)

/-- A media asset; without any part it stands for one that was not found. -/
structure Media where
  address : Option String
  type : Option String
  properties : Option PipelineModel

/-- An entry of a content area with the model of its content. -/
structure AreaModel where
  displayOption : Option String
  content : Option PipelineModel

/-- The model of an item. -/
structure PipelineModel where
  kind : ModelKind
  properties : List (String × ModelValue)

end

/-- The asset that was not found. -/
def Media.absent : Media := ⟨none, none, none⟩

/-- Whether the asset was not found. -/
def Media.isAbsent (m : Media) : Bool :=
  m.address.isNone && m.type.isNone && m.properties.isNone

namespace PipelineModel

/-- A model without properties. -/
def ofKind (kind : ModelKind) : PipelineModel := ⟨kind, []⟩

/-- The model of content without a pipeline. -/
def base : PipelineModel := ofKind .base

instance : Inhabited PipelineModel := ⟨base⟩

/-- The tag of the model. -/
def discriminant (m : PipelineModel) : String := m.kind.discriminant

/-- The model with a value for a property, in the place of an earlier one or at the end. -/
def set (m : PipelineModel) (name : String) (value : ModelValue) : PipelineModel :=
  { m with properties := Entries.set m.properties name value }

/-- The value of a property. -/
def get? (m : PipelineModel) (name : String) : Option ModelValue := Entries.get? m.properties name

/-- The names of the properties in order. -/
def names (m : PipelineModel) : List String := Entries.names m.properties

end PipelineModel

namespace ModelValue

instance : Inhabited ModelValue := ⟨.null⟩

/-- Whether there is no value. -/
def isNull : ModelValue → Bool
  | null => true
  | _ => false

/-- The text of a value that is one. -/
def asText? : ModelValue → Option String
  | text s => some s
  | _ => none

mutual

/-- A raw value as it is copied into a model. -/
def ofContent : ContentValue → ModelValue
  | .null => null
  | .bool b => bool b
  | .integer n => integer n
  | .float x => float x
  | .text s => text s
  | .enumeration variant => text variant
  | .url address => text address
  | .xhtml markup => text markup
  | .reference r => json (.int r.id.toNat)
  | .list values => list (ofContents values)
  | .area entries => json (ContentValue.area entries).toJson
  | .block item => json (ContentValue.block item).toJson

/-- Raw values as they are copied. -/
def ofContents : List ContentValue → List ModelValue
  | [] => []
  | v :: vs => ofContent v :: ofContents vs

end

end ModelValue

end ContentLoom

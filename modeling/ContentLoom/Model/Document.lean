import ContentLoom.Model.CamelCase
import ContentLoom.Model.Value

/-!
# Models as JSON

A model is an object with its tag first and then its properties in their
order, with names in camel case and without those that are null.  Two
properties whose names agree in camel case are both written.
-/

namespace ContentLoom

/-- The member that holds the tag of a model. -/
def PipelineModel.typeMember : String := "pipelineModelType"

namespace ModelValue

/-- A member, unless there is no value for it. -/
def memberOfText (name : String) : Option String → List (String × Json)
  | some s => [(name, .str s)]
  | none => []

mutual

/-- A value as JSON. -/
def toJson : ModelValue → Json
  | null => .null
  | bool b => .bool b
  | integer n => .int n.toInt
  | float x => .float x
  | text s => .str s
  | link address => .obj (memberOfText "url" address)
  | media asset => mediaToJson asset
  | area entries => .obj [("items", .arr (entriesToJson entries))]
  | model m => modelToJson m
  | list values => .arr (valuesToJson values)
  | json value => value

/-- An asset as JSON. -/
def mediaToJson : Media → Json
  | ⟨address, type, properties⟩ =>
    .obj (memberOfText "url" address ++ memberOfText "type" type ++
      match properties with
      | some m => [("properties", modelToJson m)]
      | none => [])

/-- An entry of an area as JSON. -/
def entryToJson : AreaModel → Json
  | ⟨displayOption, content⟩ =>
    .obj (memberOfText "displayOption" displayOption ++
      match content with
      | some m => [("content", modelToJson m)]
      | none => [])

/-- A model as JSON. -/
def modelToJson : PipelineModel → Json
  | ⟨kind, properties⟩ =>
    .obj ((PipelineModel.typeMember, .str kind.discriminant) :: propertiesToJson properties)

/-- The entries of an area as JSON. -/
def entriesToJson : List AreaModel → List Json
  | [] => []
  | e :: es => entryToJson e :: entriesToJson es

/-- The values of a list as JSON. -/
def valuesToJson : List ModelValue → List Json
  | [] => []
  | v :: vs => toJson v :: valuesToJson vs

/-- The properties of a model as JSON. -/
def propertiesToJson : List (String × ModelValue) → List (String × Json)
  | [] => []
  | (name, v) :: rest =>
    if v.isNull then propertiesToJson rest
    else (Model.camelCase name, toJson v) :: propertiesToJson rest

end

end ModelValue

open Json.Document in
/-- The address of a link in a document. -/
def ModelValue.linkOfDocument : Json.Document → Except Json.Fault (Option String) :=
  readRecord ["url"] (none : Option (Option String))
    (fun slot field d => once slot field (d.readOption readText))
    (fun _ slot => .ok (slot.getD none))

/-- A model as JSON. -/
def PipelineModel.toJson (m : PipelineModel) : Json := ModelValue.modelToJson m

end ContentLoom

import ContentLoom.Conversion
import ContentLoom.Dictionary
import ContentLoom.Identifier
import ContentLoom.Text.Case

/-!
# Content classes

What is known of a content class once its declaration is resolved: its name,
identifier, group and order, and how each of its properties enters the model.
All names that the generated code and the running pipeline share are formed
here.
-/

namespace ContentLoom

/-- The arguments that a converter is given at every call. -/
abbrev ConverterConfig := Dictionary String

/-- The type of a property in the model. -/
structure ExposedType where
  name : String
  nullable : Bool
deriving DecidableEq, Inhabited

namespace ExposedType

/-- The type as written, where a question mark at the end says that it is nullable. -/
def parse (written : String) : ExposedType :=
  let cs := Text.trim written.toList
  match cs.reverse with
  | '?' :: rest => ⟨String.ofList (Text.trimEnd rest.reverse), true⟩
  | _ => ⟨String.ofList cs, false⟩

/-- The type as generated code writes it. -/
def text (t : ExposedType) : String := if t.nullable then t.name ++ "?" else t.name

/-- The type as JSON. -/
def toJson (t : ExposedType) : Json :=
  .obj [("name", .str t.name), ("nullable", .bool t.nullable)]

/-- The fields of a type read so far. -/
structure Draft where
  name : Option String
  nullable : Option Bool

open Json.Document in
/-- The type of a document. -/
def ofDocument : Json.Document → Except Json.Fault ExposedType :=
  readRecord ["name", "nullable"] ({ name := none, nullable := none } : Draft)
    (fun t field d =>
      match field with
      | "name" => do pure { t with name := ← once t.name field d.readText }
      | _ => do pure { t with nullable := ← once t.nullable field d.readBool })
    (fun layout t => do
      pure ⟨← required layout "name" t.name, t.nullable.getD false⟩)

end ExposedType

/-- A property of a content class that the model holds. -/
structure ContentProperty where
  name : String
  exposed : ExposedType
  conversion : Conversion
  config : Option ConverterConfig
deriving DecidableEq, Inhabited

namespace ContentProperty

/-- A property that is copied. -/
def passthrough (name : String) (exposed : ExposedType) : ContentProperty :=
  ⟨name, exposed, .copy, none⟩

/-- A property that is converted without further arguments. -/
def converted (name : String) (exposed : ExposedType) (conversion : Conversion) :
    ContentProperty :=
  ⟨name, exposed, conversion, none⟩

/-- The property as JSON; the arguments of the converter are left out where there are none. -/
def toJson (p : ContentProperty) : Json :=
  .obj ([("name", .str p.name), ("exposed_type", p.exposed.toJson),
    ("converter", p.conversion.toJson)] ++
    match p.config with
    | none => []
    | some config => [("converter_config", .obj (config.entries.map fun (k, v) => (k, .str v)))])

/-- The fields of a property read so far. -/
structure Draft where
  name : Option String
  exposed : Option ExposedType
  conversion : Option Conversion
  config : Option (Option ConverterConfig)

open Json.Document in
/-- The arguments of a converter in a document. -/
def configOfDocument (d : Json.Document) : Except Json.Fault ConverterConfig :=
  (d.readEntries readText).map Dictionary.ofEntries

open Json.Document in
/-- The property of a document. -/
def ofDocument : Json.Document → Except Json.Fault ContentProperty :=
  readRecord ["name", "exposed_type", "converter", "converter_config"]
    ({ name := none, exposed := none, conversion := none, config := none } : Draft)
    (fun p field d =>
      match field with
      | "name" => do pure { p with name := ← once p.name field d.readText }
      | "exposed_type" => do
        pure { p with exposed := ← once p.exposed field (ExposedType.ofDocument d) }
      | "converter" => do
        pure { p with conversion := ← once p.conversion field (Conversion.ofDocument d) }
      | _ => do
        pure { p with config := ← once p.config field (d.readOption configOfDocument) })
    (fun layout p => do
      let name ← required layout "name" p.name
      let exposed ← required layout "exposed_type" p.exposed
      let conversion ← required layout "converter" p.conversion
      pure ⟨name, exposed, conversion, p.config.getD none⟩)

end ContentProperty

/-- A content class whose items have a pipeline. -/
structure ContentClass where
  name : String
  stableId : Identifier
  group : String
  order : Int32
  fullName : String
  properties : List ContentProperty
deriving DecidableEq, Inhabited

namespace ContentClass

/-- The group of a class that names none. -/
def defaultGroup : String := "Common"

/-- The order of the step that maps the properties of a class. -/
def stepOrder : Int32 := 1000

/-- The tag of the model of content without a pipeline. -/
def baseDiscriminant : String := "ContentPipelineModel"

/-- The tag by which the model of the class is told from others. -/
def discriminant (c : ContentClass) : String := c.group ++ "." ++ c.name

/-- The name of the generated model type. -/
def modelName (c : ContentClass) : String := c.name ++ "PipelineModel"

/-- The name of the generated mapping step. -/
def stepName (c : ContentClass) : String := c.name ++ "PipelineStep"

/-- The conversions of a list of properties other than copies, each once, by first use. -/
def conversionsOf (properties : List ContentProperty) : List Conversion :=
  properties.foldl (fun seen p =>
    if p.conversion.isCopy || seen.contains p.conversion then seen else seen ++ [p.conversion]) []

/-- The conversions of the class other than copies, each once, by first use. -/
def conversions (c : ContentClass) : List Conversion := conversionsOf c.properties

/-- The first property with a name. -/
def property? (c : ContentClass) (name : String) : Option ContentProperty :=
  c.properties.find? (·.name == name)

/-- The group named by a marker: never empty, and with a capital first. -/
def normalizeGroup (written : String) : String :=
  match Text.trim written.toList with
  | [] => defaultGroup
  | first :: rest => String.ofList (Text.toUpper first ++ rest)

/-- The class as JSON. -/
def toJson (c : ContentClass) : Json :=
  .obj [("name", .str c.name), ("stable_id", c.stableId.toJson), ("group", .str c.group),
    ("order", .int c.order.toInt), ("fully_qualified_name", .str c.fullName),
    ("properties", .arr (c.properties.map ContentProperty.toJson))]

/-- The fields of a class read so far. -/
structure Draft where
  name : Option String
  stableId : Option Identifier
  group : Option String
  order : Option Int32
  fullName : Option String
  properties : Option (List ContentProperty)

/-- A signed integer of 32 bits. -/
def orderOfDocument (d : Json.Document) : Except Json.Fault Int32 :=
  (d.readInt (-0x80000000) 0x7fffffff).map Int32.ofInt

open Json.Document in
/-- The class of a document. -/
def ofDocument : Json.Document → Except Json.Fault ContentClass :=
  readRecord ["name", "stable_id", "group", "order", "fully_qualified_name", "properties"]
    (⟨none, none, none, none, none, none⟩ : Draft)
    (fun c field d =>
      match field with
      | "name" => do pure { c with name := ← once c.name field d.readText }
      | "stable_id" => do
        pure { c with stableId := ← once c.stableId field (Identifier.ofDocument d) }
      | "group" => do pure { c with group := ← once c.group field d.readText }
      | "order" => do pure { c with order := ← once c.order field (orderOfDocument d) }
      | "fully_qualified_name" => do
        pure { c with fullName := ← once c.fullName field d.readText }
      | _ => do
        pure { c with
          properties := ← once c.properties field (d.readList ContentProperty.ofDocument) })
    (fun layout c => do
      let name ← required layout "name" c.name
      let stableId ← required layout "stable_id" c.stableId
      let group ← required layout "group" c.group
      let fullName ← required layout "fully_qualified_name" c.fullName
      pure ⟨name, stableId, group, c.order.getD 0, fullName, c.properties.getD []⟩)

end ContentClass

end ContentLoom

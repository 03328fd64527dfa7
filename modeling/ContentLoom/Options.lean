import ContentLoom.Dictionary
import ContentLoom.Failure
import ContentLoom.Json.Decode
import ContentLoom.Text.Blank
import ContentLoom.Text.Numeric
import ContentLoom.Text.Segments

/-!
# Options of a run

The namespace of the generated code, whether the form container is included,
and the extension of the generated files; the rule that the first and the last
have to satisfy; and the namespaces that follow from them.
-/

namespace ContentLoom

/-- The options of a run. -/
structure Options where
  sharedNamespace : String
  formsEnabled : Bool
  fileExtension : String
deriving DecidableEq

namespace Options

/-- The options where nothing is said. -/
def standard : Options := ⟨"ContentPipeline", false, "cs"⟩

instance : Inhabited Options := ⟨standard⟩

/-! ### Namespaces -/

/-- The namespace of contracts. -/
def interfaceNamespace (o : Options) : String := o.sharedNamespace ++ ".Interfaces"

/-- The namespace of the models of a group. -/
def modelsNamespace (o : Options) (group : String) : String :=
  o.sharedNamespace ++ ".Models." ++ group

/-- The namespace of the mapping steps of a group. -/
def stepsNamespace (o : Options) (group : String) : String :=
  o.sharedNamespace ++ ".Pipelines." ++ group ++ ".Steps"

/-! ### Validity -/

/-- A segment of a namespace: a letter or underscore, then letters, numbers and underscores. -/
def validSegment : List Char → Bool
  | [] => false
  | c :: cs =>
    (Text.isAlphabetic c || c == '_') && cs.all fun c => Text.isAlphanumeric c || c == '_'

/-- Every dotted segment is a valid segment. -/
def validNamespace (cs : List Char) : Bool := (Text.segments '.' cs).all validSegment

/-- An extension: letters and digits of the basic Latin block, at least one. -/
def validExtension (cs : List Char) : Bool := !cs.isEmpty && cs.all Char.isAlphanum

/-- Refuses options from which no code can be generated; the namespace is looked at first. -/
def validate (o : Options) : Except Failure Unit :=
  if o.sharedNamespace.isEmpty then
    .error (.configuration "shared_namespace cannot be empty")
  else if !validNamespace o.sharedNamespace.toList then
    .error (.configuration
      ("shared_namespace '" ++ o.sharedNamespace ++ "' is not a valid namespace"))
  else if !validExtension o.fileExtension.toList then
    .error (.configuration
      ("file_extension '" ++ o.fileExtension ++ "' must be alphanumeric without a leading dot"))
  else .ok ()

/-! ### Sources of options -/

/-- The words that switch a feature on, in any case. -/
def enablingWords : List String := ["enable", "enabled", "true"]

/-- Whether a build property switches its feature on. -/
def isFeatureEnabled (value : String) : Bool :=
  let word := Text.trim value.toList
  enablingWords.any fun accepted => Text.eqIgnoringAsciiCase word accepted.toList

/-- The build property that switches the form container on. -/
def formsBuildProperty : String := "build_property.ContentPipeline_EnableForms"

/-- The options that build properties ask for; only the form container depends on them. -/
def ofBuildProperties (properties : Entries String) : Options :=
  { standard with
    formsEnabled := (properties.get? formsBuildProperty).any isFeatureEnabled }

/-- The options as JSON. -/
def toJson (o : Options) : Json :=
  .obj [("shared_namespace", .str o.sharedNamespace), ("forms_enabled", .bool o.formsEnabled),
    ("file_extension", .str o.fileExtension)]

/-- The fields of options read so far. -/
structure Draft where
  sharedNamespace : Option String
  formsEnabled : Option Bool
  fileExtension : Option String

open Json.Document in
/-- The options of a document; a field that is left out has its standard value. -/
def ofDocument : Json.Document → Except Json.Fault Options :=
  readRecord ["shared_namespace", "forms_enabled", "file_extension"] (⟨none, none, none⟩ : Draft)
    (fun o field d =>
      match field with
      | "shared_namespace" => do
        pure { o with sharedNamespace := ← once o.sharedNamespace field d.readText }
      | "forms_enabled" => do
        pure { o with formsEnabled := ← once o.formsEnabled field d.readBool }
      | _ => do pure { o with fileExtension := ← once o.fileExtension field d.readText })
    (fun _ o => .ok
      ⟨o.sharedNamespace.getD standard.sharedNamespace, o.formsEnabled.getD standard.formsEnabled,
        o.fileExtension.getD standard.fileExtension⟩)

/-- The options of a JSON text; an empty text gives the standard ones. -/
def ofText (text : String) : Except Json.Fault Options :=
  if text.isEmpty then .ok standard else Json.Document.decodeText ofDocument text

end Options

end ContentLoom

import ContentLoom.Generated.BaseModels
import ContentLoom.Generated.DefaultConverters
import ContentLoom.Generated.MarkerClasses
import ContentLoom.Generated.ModelClass
import ContentLoom.Generated.PipelineBases
import ContentLoom.Generated.Registrations
import ContentLoom.Generated.Serializers
import ContentLoom.Generated.StepClass
import ContentLoom.Generated.Values
import ContentLoom.Naming.Files

/-!
# All generated files

The files that belong to no class in a fixed order, and after them the model
and the step of each class in the order of the classes.
-/

namespace ContentLoom.Generated

/-- The files that belong to no class. -/
def sharedFiles (o : Options) (classes : List ContentClass) : List SharedFile :=
  baseModels o classes ++ contracts o ++ valueTypes o ++ markerClasses o ++ defaultConverters o ++
    pipelineBases o ++ serviceClasses o classes ++ serializers o classes ++
    registrations o classes

/-- Names the files that belong to no class; two with one name are a failure. -/
def nameShared (names : Naming.FileNames) :
    List SharedFile → Except Failure (List Artifact × Naming.FileNames)
  | [] => .ok ([], names)
  | f :: rest => do
    let (name, names) ← names.shared f.stem
    let (artifacts, names) ← nameShared names rest
    .ok (⟨name, f.kind, Code.render f.code⟩ :: artifacts, names)

/-- Names the files of the classes. -/
def nameClasses (o : Options) (names : Naming.FileNames) : List ContentClass → List Artifact
  | [] => []
  | c :: rest =>
    let (model, names) := names.perClass c .model
    let (step, names) := names.perClass c .step
    ⟨model, .model, Code.render (modelClass o c)⟩ ::
      ⟨step, .step, Code.render (stepClass o c)⟩ :: nameClasses o names rest

/-- All files generated for some classes. A flag raised before the run ends it. -/
def artifacts (o : Options) (cancelled : Bool) (classes : List ContentClass) :
    Except Failure (List Artifact) := do
  if cancelled then throw .cancelled
  let (shared, names) ← nameShared (.start o.fileExtension) (sharedFiles o classes)
  pure (shared ++ nameClasses o names classes)

end ContentLoom.Generated

import ContentLoom.Files.Path
import ContentLoom.Options
import ContentLoom.Toml.Reader

/-!
# Manifests

A manifest says where the graph is, where the generated files go, and with
which options they are generated.  Its sections and their entries may all be
left out.
-/

namespace ContentLoom

/-- A manifest. -/
structure Manifest where
  sharedNamespace : Option String
  formsEnabled : Option Bool
  fileExtension : Option String
  /-- The path of the graph. -/
  graph : Option String
  /-- The directory of the generated files. -/
  output : Option String
  /-- What the host of the generator was built with. -/
  buildProperties : Dictionary String
deriving DecidableEq

namespace Manifest

/-- The usual name of a manifest. -/
def fileName : String := "content-pipeline.toml"

/-- The manifest that says nothing. -/
def empty : Manifest := ⟨none, none, none, none, none, .empty⟩

/-- The options of a manifest. The form container is included if the section for the generator or
the build properties ask for it. -/
def options (m : Manifest) : Options :=
  let built := Options.ofBuildProperties m.buildProperties.entries
  ⟨m.sharedNamespace.getD built.sharedNamespace,
    built.formsEnabled || m.formsEnabled.getD false,
    m.fileExtension.getD built.fileExtension⟩

/-- The manifest with its paths taken from a directory. -/
def within (m : Manifest) (directory : String) : Manifest :=
  { m with
    graph := m.graph.map (Files.join directory)
    output := m.output.map (Files.join directory) }

/-- The manifest with its paths taken from the directory of its own file. -/
def locatedAt (m : Manifest) (path : String) : Manifest :=
  match (Files.Path.ofText path).parent? with
  | some directory => m.within directory.text
  | none => m

/-! ### Validity -/

/-- What a manifest is refused for. -/
inductive Refusal where
  | options (failure : Failure)
  | emptyGraph
  | emptyOutput
deriving DecidableEq

/-- Refuses a manifest with options that cannot be used, or with an empty path. -/
def validate (m : Manifest) : Except Refusal Unit :=
  match m.options.validate with
  | .error failure => .error (.options failure)
  | .ok () =>
    if m.graph = some "" then .error .emptyGraph
    else if m.output = some "" then .error .emptyOutput
    else .ok ()

/-! ### Reading -/

/-- The entries of the section for the generator. -/
structure GeneratorSection where
  sharedNamespace : Option (Option String)
  formsEnabled : Option (Option Bool)
  fileExtension : Option (Option String)

open Json.Document in
/-- The section for the generator. -/
def generatorOfDocument : Json.Document → Except Json.Fault GeneratorSection :=
  readRecord ["shared_namespace", "forms_enabled", "file_extension"]
    (⟨none, none, none⟩ : GeneratorSection)
    (fun s field d =>
      match field with
      | "shared_namespace" => do
        pure { s with sharedNamespace := ← once s.sharedNamespace field (d.readOption readText) }
      | "forms_enabled" => do
        pure { s with formsEnabled := ← once s.formsEnabled field (d.readOption readBool) }
      | _ => do
        pure { s with fileExtension := ← once s.fileExtension field (d.readOption readText) })
    (fun _ s => .ok s)

/-- The entries of the section for paths. -/
structure InputSection where
  graph : Option (Option String)
  output : Option (Option String)

open Json.Document in
/-- The section for paths. -/
def inputOfDocument : Json.Document → Except Json.Fault InputSection :=
  readRecord ["graph", "output"] (⟨none, none⟩ : InputSection)
    (fun s field d =>
      match field with
      | "graph" => do pure { s with graph := ← once s.graph field (d.readOption readText) }
      | _ => do pure { s with output := ← once s.output field (d.readOption readText) })
    (fun _ s => .ok s)

/-- The sections read so far. -/
structure Draft where
  generator : Option GeneratorSection
  input : Option InputSection
  buildProperties : Option (Dictionary String)

open Json.Document in
/-- The manifest of a document. -/
def ofDocument : Json.Document → Except Json.Fault Manifest :=
  readRecord ["generator", "input", "build_properties"] (⟨none, none, none⟩ : Draft)
    (fun m field d =>
      match field with
      | "generator" => do
        pure { m with generator := ← once m.generator field (generatorOfDocument d) }
      | "input" => do pure { m with input := ← once m.input field (inputOfDocument d) }
      | _ => do
        pure { m with
          buildProperties := ← once m.buildProperties field
            ((d.readEntries readText).map Dictionary.ofEntries) })
    (fun _ m => .ok
      ⟨m.generator.bind fun s => s.sharedNamespace.getD none,
        m.generator.bind fun s => s.formsEnabled.getD none,
        m.generator.bind fun s => s.fileExtension.getD none,
        m.input.bind fun s => s.graph.getD none,
        m.input.bind fun s => s.output.getD none,
        m.buildProperties.getD .empty⟩)

/-- The manifest of a text. -/
def ofText (text : String) : Except Json.Fault Manifest := Toml.decodeText ofDocument text

end Manifest

end ContentLoom

import ContentLoom.Command.Failure

/-!
# Invocations

What a command runs against: the graph, the directory of the generated files
and the options.  What the command line says comes before what the manifest
says, and that before the standard.
-/

namespace ContentLoom.Command

/-- What the command line says. -/
structure Flags where
  input : Option String
  output : Option String
  manifest : Option String
  forms : Bool
  sharedNamespace : Option String
deriving DecidableEq

/-- What a command runs against. -/
structure Invocation where
  input : String
  output : Option String
  options : Options
deriving DecidableEq

variable {m : Type → Type} [Monad m]

/-- The manifest at a path. -/
def loadManifest (h : Files.Host m) (path : String) : Action m Manifest := do
  let text ← attempt (h.readText path) (.manifestUnreadable path)
  match Manifest.ofText text with
  | .error fault => throw (.manifestMalformed path fault)
  | .ok manifest =>
    let manifest := manifest.locatedAt path
    match manifest.validate with
    | .error refusal => throw (.manifestRefused refusal)
    | .ok () => pure manifest

namespace Invocation

/-- The options of a manifest as the command line changes them. -/
def optionsOf (flags : Flags) (manifest : Manifest) : Options :=
  let o := manifest.options
  ⟨flags.sharedNamespace.getD o.sharedNamespace, flags.forms || o.formsEnabled, o.fileExtension⟩

/-- The invocation that the command line and a manifest give. -/
def merge (flags : Flags) (manifest : Manifest) : Except CommandFailure Invocation :=
  let o := optionsOf flags manifest
  match o.validate with
  | .error failure => .error (.options failure)
  | .ok () =>
    match flags.input.or manifest.graph with
    | none => .error .noGraph
    | some input => .ok ⟨input, flags.output.or manifest.output, o⟩

/-- The invocation that the command line gives, with the manifest it names. -/
def resolve (h : Files.Host m) (flags : Flags) : Action m Invocation := do
  let manifest ← match flags.manifest with
    | some path => loadManifest h path
    | none => pure .empty
  ExceptT.mk (pure (merge flags manifest))

/-- The directory of the generated files. -/
def outputDirectory (i : Invocation) : Except CommandFailure String :=
  match i.output with
  | some directory => .ok directory
  | none => .error .noOutput

/-- The graph at a path. -/
def loadGraph (h : Files.Host m) (i : Invocation) : Action m Graph := do
  let text ← attempt (h.readText i.input) (.graphUnreadable i.input)
  match (Files.Path.ofText i.input).extension?.bind Graph.Format.ofExtension? with
  | none => throw (.graphUnsupported i.input)
  | some format =>
    match Graph.ofFormat format text with
    | .error fault => throw (.graphMalformed i.input format fault)
    | .ok g => pure g

end Invocation

end ContentLoom.Command

import ContentLoom.Failure
import ContentLoom.Files.Host
import ContentLoom.Graph.Source
import ContentLoom.LockFile
import ContentLoom.Manifest

/-!
# Failures of commands

What ends a command without a result.  A failure is told in layers: what the
command was doing, and below it what went wrong there.
-/

namespace ContentLoom.Command

/-- Why a command gives no result. -/
inductive CommandFailure where
  | manifestUnreadable (path : String) (error : Files.FileError)
  | manifestMalformed (path : String) (fault : Json.Fault)
  | manifestRefused (refusal : Manifest.Refusal)
  | options (failure : Failure)
  | noGraph
  | noOutput
  | graphUnreadable (path : String) (error : Files.FileError)
  | graphMalformed (path : String) (format : Graph.Format) (fault : Json.Fault)
  | graphUnsupported (path : String)
  | generation (path : String) (failure : Failure)
  | resolution (path : String) (failure : Failure)
  /-- The analysis reported errors. -/
  | reported (errors : Nat)
  | outputDirectory (path : String) (error : Files.FileError)
  | lockUnreadable (path : String) (error : Files.FileError)
  | lockMalformed (path : String) (fault : Json.Fault)
  /-- The record names a file outside its directory. -/
  | lockInvalid (path name : String)
  | removal (path : String) (error : Files.FileError)
  | writing (path : String) (error : Files.FileError)
  | lockWriting (path : String) (error : Files.FileError)
  | reading (path : String) (error : Files.FileError)
  | outOfDate (missing changed stale : Nat)
  | logLevel (level : String)
deriving DecidableEq

/-- What went wrong below a command. -/
inductive Detail where
  | file (error : Files.FileError)
  | json (fault : Json.Fault)
  | toml (fault : Json.Fault)
deriving DecidableEq

/-- The words of a detail. -/
def Detail.text : Detail → String
  | file error => error.text
  | json fault => fault.message?.getD "malformed JSON"
  | toml fault => fault.message?.getD "malformed TOML"

/-- A layer of a failure. -/
inductive Layer where
  | words (text : String)
  /-- Words that end with those of a detail. -/
  | about (text : String) (detail : Detail)
  | detail (detail : Detail)
deriving DecidableEq

/-- The words of a layer. -/
def Layer.text : Layer → String
  | words text => text
  | about text d => text ++ d.text
  | detail d => d.text

namespace CommandFailure

/-- The layers of a graph that cannot be loaded. -/
def graphLayers (path : String) (below : List Layer) : List Layer :=
  .words ("Failed to load declaration graph: " ++ path) :: below

/-- The layers of a refused manifest. -/
def refusalLayers : Manifest.Refusal → List Layer
  | .options failure => [.words "Invalid [generator] section", .words failure.message]
  | .emptyGraph => [.words "[input] graph cannot be empty"]
  | .emptyOutput => [.words "[input] output cannot be empty"]

/-- The layers of a manifest that is not one. -/
def malformedManifest (fault : Json.Fault) : List Layer :=
  [.words "Failed to parse manifest", .detail (.toml fault)]

/-- The words of a record that names a file outside its directory. -/
def outsideWords (name : String) : String :=
  "'" ++ name ++ "' is not a file name inside the output directory"

/-- The layers of a failure, the outermost first. -/
def layers : CommandFailure → List Layer
  | manifestUnreadable path error =>
    [.words ("Failed to read manifest: " ++ path), .detail (.file error)]
  | manifestMalformed path fault =>
    .words ("Invalid manifest: " ++ path) :: malformedManifest fault
  | manifestRefused refusal => refusalLayers refusal
  | options failure => [.words "Invalid generator options", .words failure.message]
  | noGraph =>
    [.words "No declaration graph given (use --input or [input] graph in the manifest)"]
  | noOutput =>
    [.words "No output directory given (use --output or [input] output in the manifest)"]
  | graphUnreadable path error =>
    graphLayers path
      [.about "failed to read declaration graph: " (.file error), .detail (.file error)]
  | graphMalformed path format fault =>
    let detail := match format with
      | .json => Detail.json fault
      | .toml => Detail.toml fault
    graphLayers path
      [.about ("invalid " ++ format.text ++ " declaration graph: ") detail, .detail detail]
  | graphUnsupported path =>
    graphLayers path
      [.words ("unsupported declaration graph format: " ++ path ++ " (expected .json or .toml)")]
  | generation path failure =>
    [.words ("Failed to generate from " ++ path), .words failure.message]
  | resolution path failure => [.words ("Failed to resolve " ++ path), .words failure.message]
  | reported errors => [.words ("Generation reported " ++ toString errors ++ " error(s)")]
  | outputDirectory path error =>
    [.words ("Failed to create output directory: " ++ path), .detail (.file error)]
  | lockUnreadable path error =>
    [.words ("Failed to read lock file: " ++ path), .detail (.file error)]
  | lockMalformed path fault =>
    [.words ("Failed to parse lock file: " ++ path), .detail (.json fault)]
  | lockInvalid path name =>
    [.words ("Invalid lock file: " ++ path), .words (outsideWords name)]
  | removal path error =>
    [.words ("Failed to remove stale file " ++ path), .detail (.file error)]
  | writing path error => [.words ("Failed to write " ++ path), .detail (.file error)]
  | lockWriting path error =>
    [.words ("Failed to write lock file: " ++ path), .detail (.file error)]
  | reading path error => [.words ("Failed to read " ++ path), .detail (.file error)]
  | outOfDate missing changed stale =>
    [.words ("Generated files are out of date (" ++ toString missing ++ " missing, " ++
      toString changed ++ " changed, " ++ toString stale ++
      " stale); run \x60content-pipeline generate\x60")]
  | logLevel level => [.words ("Invalid log level '" ++ level ++ "'")]

end CommandFailure

/-- An action of a command. -/
abbrev Action (m : Type → Type) (α : Type) := ExceptT CommandFailure m α

/-- Performs an operation on files, whose error becomes a failure. -/
def attempt {m : Type → Type} [Monad m] {α : Type} (operation : m (Except Files.FileError α))
    (failure : Files.FileError → CommandFailure) : Action m α := do
  match ← operation with
  | .ok a => pure a
  | .error e => throw (failure e)

end ContentLoom.Command

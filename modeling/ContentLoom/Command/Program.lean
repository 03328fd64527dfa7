import ContentLoom.Command.Actions
import ContentLoom.Command.Arguments
import ContentLoom.Command.LogFilter

/-!
# The program

What the program answers to its arguments: an exit code, and what it writes to
its two outputs beside the remarks made on the way.
-/

namespace ContentLoom.Command

/-- What the program ends with. -/
structure Ending where
  exitCode : UInt32
  output : String
  errors : String
deriving DecidableEq

namespace Program

/-- The name of the program. -/
def name : String := "content-pipeline"

/-- The help text. -/
def usage : String :=
  "Generator for content pipeline models and steps\n\n" ++
    "Usage: content-pipeline [--log-level <LEVEL>] <generate|check|resolve> [OPTIONS]\n\n" ++
    "Options:\n" ++
    "  -i, --input <PATH>       Declaration graph (.json or .toml)\n" ++
    "  -m, --manifest <PATH>    Manifest\n" ++
    "  -o, --output <PATH>      Output directory (generate, check)\n" ++
    "      --forms              Include the form container class\n" ++
    "      --namespace <NAME>   Root namespace of the generated code\n" ++
    "      --pretty             Pretty-print the JSON (resolve)\n" ++
    "  -h, --help               Print help\n" ++
    "  -V, --version            Print version\n"

/-- The lines of the causes of a failure, numbered if there are several. -/
def causes : List String → List String
  | [] => []
  | [cause] => ["", "Caused by:", "    " ++ cause]
  | several =>
    ["", "Caused by:"] ++ (List.range several.length).zipWith
      (fun i cause => "    " ++ toString i ++ ": " ++ cause) several

/-- The report of a failure. -/
def report (f : CommandFailure) : String :=
  match f.layers.map Layer.text with
  | [] => ""
  | first :: below =>
    String.join ((("Error: " ++ first) :: causes below).map fun line => line ++ "\n")

/-- What is written of generated files. -/
def generated (directory : String) (s : Summary) : String :=
  "✓ Generated " ++ toString s.written ++ " files into " ++ directory ++ "\n" ++
    if s.removed.isEmpty then ""
    else "✓ Removed " ++ toString s.removed.length ++ " stale files\n"

/-- The exit code of a program that cannot go on. -/
def brokenExit : UInt32 := 101

/-- The report on a log filter that cannot be cut into its pieces. -/
def cutReport : String := "the log filter is cut inside a character\n"

variable {m : Type → Type} [Monad m]

/-- Performs a command and gives what it writes. -/
def perform (h : Files.Host m) : Arguments.Subcommand → Action m String
  | .generate flags => do
    let i ← Invocation.resolve h flags
    let summary ← Command.generate h i
    let directory ← ExceptT.mk (pure i.outputDirectory)
    pure (generated directory summary)
  | .check flags => do
    let i ← Invocation.resolve h flags
    let drift ← Command.check h i
    pure ("✓ " ++ toString drift.checked ++ " generated files are up to date\n")
  | .resolve flags pretty => do
    let i ← Invocation.resolve h flags
    let json ← Command.resolve h i pretty
    pure (json ++ "\n")

/-- Runs the program. -/
def run (h : Files.Host m) (arguments : List String) : m Ending := do
  match Arguments.read arguments with
  | .help => pure ⟨0, usage, ""⟩
  | .version => pure ⟨0, name ++ " " ++ generatorVersion ++ "\n", ""⟩
  | .invalid => pure ⟨2, "", usage⟩
  | .command level command =>
    match LogFilter.check (level.getD "") with
    | .error .malformed => pure ⟨1, "", report (.logLevel (level.getD ""))⟩
    | .error .cutCharacter => pure ⟨brokenExit, "", cutReport⟩
    | .ok () =>
      match ← (perform h command).run with
      | .ok text => pure ⟨0, text, ""⟩
      | .error f => pure ⟨1, "", report f⟩

end Program

end ContentLoom.Command

import ContentLoom.Command.Invocation
import ContentLoom.Command.Output
import ContentLoom.Generation

/-!
# Actions

What the commands do: generate the files, check them, or resolve the classes
alone.  Nothing is written when the analysis reports an error.
-/

namespace ContentLoom.Command

open Files (Host)

variable {m : Type → Type} [Monad m]

/-- Tells the user each report. -/
def remarkAll (h : Host m) : List Diagnostic → m Unit
  | [] => pure ()
  | d :: ds => do
    h.remark (d.text ++ "\n")
    remarkAll h ds

/-- Tells the user the reports, and fails if there are errors among them. -/
def settle (h : Host m) (reports : List Diagnostic) : Action m Unit := do
  ExceptT.lift (remarkAll h reports)
  let errors := (reports.filter Diagnostic.isError).length
  if 0 < errors then throw (.reported errors)

/-- Runs the generator without writing anything. -/
def generateInMemory (h : Host m) (i : Invocation) : Action m Generation := do
  let g ← i.loadGraph h
  match Generation.run g i.options false with
  | .error failure => throw (.generation i.input failure)
  | .ok result =>
    settle h result.reports
    pure result

/-- Generates all files into the output directory. -/
def generate (h : Host m) (i : Invocation) : Action m Summary := do
  let directory ← ExceptT.mk (pure i.outputDirectory)
  let result ← generateInMemory h i
  attempt (h.createDirectories directory) (.outputDirectory directory)
  writeOutput (h.folder directory) i.options result.artifacts

/-- Compares the output directory with what would be generated. -/
def compare (h : Host m) (i : Invocation) : Action m Drift := do
  let directory ← ExceptT.mk (pure i.outputDirectory)
  let result ← generateInMemory h i
  compareOutput (h.folder directory) i.options result.artifacts

/-- Fails unless the output directory is up to date. -/
def check (h : Host m) (i : Invocation) : Action m Drift := do
  let drift ← compare h i
  if drift.isClean then pure drift
  else
    ExceptT.lift (h.remark drift.text)
    throw (.outOfDate drift.missing.length drift.changed.length drift.stale.length)

/-- The classes of the graph as JSON. -/
def resolve (h : Host m) (i : Invocation) (pretty : Bool) : Action m String := do
  let g ← i.loadGraph h
  match Resolution.resolveClasses g i.options false with
  | .error failure => throw (.resolution i.input failure)
  | .ok (classes, reports) =>
    settle h reports
    let json := Json.arr (classes.map ContentClass.toJson)
    pure (if pretty then json.pretty else json.compact)

end ContentLoom.Command

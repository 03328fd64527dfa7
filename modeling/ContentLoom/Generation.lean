import ContentLoom.Generated.All
import ContentLoom.Resolution

/-!
# Generation

A whole run: the classes of a graph, the files generated for them, and the
reports made on the way.
-/

namespace ContentLoom

/-- What a run gives. -/
structure Generation where
  classes : List ContentClass
  artifacts : List Artifact
  reports : List Diagnostic

namespace Generation

/-- Whether a report is an error. -/
def hasErrors (g : Generation) : Bool := Diagnostic.anyError g.reports

/-- Runs the analysis and generates the files. -/
def run (g : Graph) (o : Options) (cancelled : Bool) : Except Failure Generation := do
  let (classes, reports) ← Resolution.resolveClasses g o cancelled
  let artifacts ← Generated.artifacts o cancelled classes
  pure ⟨classes, artifacts, reports⟩

end Generation

end ContentLoom

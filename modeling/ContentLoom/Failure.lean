/-!
# Failures of a run

What ends a run without a result.  Malformed markers and properties that cannot
be classified are not failures: they are reported as diagnostics.
-/

namespace ContentLoom

/-- Why a run gives no result. -/
inductive Failure where
  /-- The run was cancelled from outside. -/
  | cancelled
  /-- The declarations cannot be used at all. -/
  | invalidGraph (reason : String)
  /-- The options were refused. -/
  | configuration (reason : String)
  /-- A value could not be written or read. -/
  | serialization (reason : String)
  /-- Two generated files would have one name. -/
  | duplicateArtifact (name : String)
deriving DecidableEq

namespace Failure

/-- The name of the kind of a failure. -/
def kind : Failure → String
  | cancelled => "Cancelled"
  | invalidGraph _ => "InvalidGraph"
  | configuration _ => "ConfigError"
  | serialization _ => "SerializationError"
  | duplicateArtifact _ => "DuplicateArtifact"

/-- The words of a failure. -/
def message : Failure → String
  | cancelled => "generation cancelled"
  | invalidGraph reason => "invalid declaration graph: " ++ reason
  | configuration reason => "configuration error: " ++ reason
  | serialization reason => "serialization error: " ++ reason
  | duplicateArtifact name => "duplicate artifact name: " ++ name

/-- Whether the run may simply be repeated later. -/
def isCancellation : Failure → Bool
  | cancelled => true
  | _ => false

end Failure

end ContentLoom

/-!
# Failures of pipelines

Why a service cannot be composed, and why a run gives no model.  A run that
fails gives no part of a model either.
-/

namespace ContentLoom

/-- Why there is no service or no model. -/
inductive PipelineFailure where
  /-- A property asks for a converter that is not registered. -/
  | missingConverter (converter contentType property : String)
  /-- A step was added for a class that the service does not know. -/
  | unknownContentType (name : String)
  /-- A converter was given a value of another kind. -/
  | unexpectedValue (converter property expected found : String)
  /-- A converter failed for reasons of its own. -/
  | converterFailed (converter property reason : String)
  /-- A step failed for reasons of its own. -/
  | stepFailed (reason : String)
  /-- Items are nested deeper than the service allows. -/
  | recursionLimit (limit : Nat)
  /-- A value could not be written or read. -/
  | serialization (reason : String)
deriving DecidableEq

namespace PipelineFailure

/-- The name of the kind of a failure. -/
def kind : PipelineFailure → String
  | missingConverter _ _ _ => "MissingConverter"
  | unknownContentType _ => "UnknownContentType"
  | unexpectedValue _ _ _ _ => "UnexpectedValue"
  | converterFailed _ _ _ => "ConverterFailed"
  | stepFailed _ => "StepFailed"
  | recursionLimit _ => "RecursionLimit"
  | serialization _ => "SerializationError"

/-- The words of a failure. -/
def message : PipelineFailure → String
  | missingConverter converter contentType property =>
    "no converter registered for " ++ converter ++ " (needed by " ++ contentType ++ "::" ++
      property ++ ")"
  | unknownContentType name => "unknown content type: " ++ name
  | unexpectedValue converter property expected found =>
    converter ++ " cannot convert " ++ property ++ ": expected " ++ expected ++ ", found " ++ found
  | converterFailed converter property reason =>
    "converter " ++ converter ++ " failed on " ++ property ++ ": " ++ reason
  | stepFailed reason => "step failed: " ++ reason
  | recursionLimit limit => "nested pipeline depth exceeded the limit of " ++ toString limit
  | serialization reason => "serialization error: " ++ reason

/-- Whether the service could not be composed; all other failures are those of a run. -/
def isComposition : PipelineFailure → Bool
  | missingConverter _ _ _ => true
  | unknownContentType _ => true
  | _ => false

end PipelineFailure

end ContentLoom

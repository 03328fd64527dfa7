import ContentLoom.Json.Decode

/-!
# Diagnostics

What the analysis reports and recovers from: a code with a severity, the place
it points to, and a message.
-/

namespace ContentLoom

/-- How much a diagnostic matters. -/
inductive Severity where
  | info
  | warning
  | error
deriving DecidableEq

namespace Severity

/-- The name of a severity. -/
def text : Severity → String
  | info => "info"
  | warning => "warning"
  | error => "error"

/-- The severities by name. -/
def named : List (String × Severity) := [("info", info), ("warning", warning), ("error", error)]

/-- The place of a severity in increasing order. -/
def rank : Severity → Nat
  | info => 0
  | warning => 1
  | error => 2

/-- The greater of two severities. -/
def max (a b : Severity) : Severity := if a.rank < b.rank then b else a

end Severity

/-- What is wrong. -/
inductive DiagnosticCode where
  | malformedGroup
  | malformedOrder
  | malformedStableId
  | malformedConverterOverride
  | inheritanceCycle
  | duplicateStableId
  | unresolvedBaseType
  | duplicateDiscriminant
  | groupIdentifierCollision
deriving DecidableEq

namespace DiagnosticCode

/-- The codes with their names. -/
def named : List (String × DiagnosticCode) := [
  ("MalformedGroup", malformedGroup), ("MalformedOrder", malformedOrder),
  ("MalformedStableId", malformedStableId),
  ("MalformedConverterOverride", malformedConverterOverride),
  ("InheritanceCycle", inheritanceCycle), ("DuplicateStableId", duplicateStableId),
  ("UnresolvedBaseType", unresolvedBaseType), ("DuplicateDiscriminant", duplicateDiscriminant),
  ("GroupIdentifierCollision", groupIdentifierCollision)]

/-- The name of a code. -/
def name : DiagnosticCode → String
  | malformedGroup => "MalformedGroup"
  | malformedOrder => "MalformedOrder"
  | malformedStableId => "MalformedStableId"
  | malformedConverterOverride => "MalformedConverterOverride"
  | inheritanceCycle => "InheritanceCycle"
  | duplicateStableId => "DuplicateStableId"
  | unresolvedBaseType => "UnresolvedBaseType"
  | duplicateDiscriminant => "DuplicateDiscriminant"
  | groupIdentifierCollision => "GroupIdentifierCollision"

/-- The number under which a code is reported. -/
def text : DiagnosticCode → String
  | malformedGroup => "CP0001"
  | malformedOrder => "CP0002"
  | malformedStableId => "CP0003"
  | malformedConverterOverride => "CP0004"
  | inheritanceCycle => "CP0005"
  | duplicateStableId => "CP0006"
  | unresolvedBaseType => "CP0007"
  | duplicateDiscriminant => "CP0008"
  | groupIdentifierCollision => "CP0009"

/-- The severity at which a code is reported unless another is given. -/
def severity : DiagnosticCode → Severity
  | inheritanceCycle => .error
  | duplicateDiscriminant => .error
  | unresolvedBaseType => .info
  | _ => .warning

end DiagnosticCode

/-- A type, or one of its members. -/
structure Location where
  type : String
  member : Option String
deriving DecidableEq

namespace Location

/-- The text of a location. -/
def text (l : Location) : String :=
  match l.member with
  | some member => l.type ++ "::" ++ member
  | none => l.type

/-- The location as JSON; the member is left out where there is none. -/
def toJson (l : Location) : Json :=
  .obj (("type_name", .str l.type) ::
    match l.member with
    | some member => [("member", .str member)]
    | none => [])

end Location

/-- A report of the analysis. -/
structure Diagnostic where
  code : DiagnosticCode
  severity : Severity
  message : String
  location : Location
deriving DecidableEq

namespace Diagnostic

/-- A report at the severity of its code. -/
def of (code : DiagnosticCode) (location : Location) (message : String) : Diagnostic :=
  ⟨code, code.severity, message, location⟩

/-- Whether the report is an error. -/
def isError (d : Diagnostic) : Bool := d.severity == .error

/-- The report in one line. -/
def text (d : Diagnostic) : String :=
  d.severity.text ++ " " ++ d.code.text ++ ": " ++ d.message ++ " (" ++ d.location.text ++ ")"

/-- The report as JSON. -/
def toJson (d : Diagnostic) : Json :=
  .obj [("code", .str d.code.name), ("severity", .str d.severity.text),
    ("message", .str d.message), ("location", d.location.toJson)]

/-- Whether a report is an error. -/
def anyError (ds : List Diagnostic) : Bool := ds.any isError

/-- The reports with a code. -/
def withCode (ds : List Diagnostic) (code : DiagnosticCode) : List Diagnostic :=
  ds.filter (·.code == code)

/-- The greatest severity among the reports. -/
def maxSeverity? (ds : List Diagnostic) : Option Severity :=
  ds.foldl (fun most d => some (match most with
    | some s => s.max d.severity
    | none => d.severity)) none

/-- A collection of reports as JSON. -/
def listToJson (ds : List Diagnostic) : Json := .obj [("items", .arr (ds.map toJson))]

end Diagnostic

end ContentLoom

import ContentLoom.Diagnostic
import ContentLoom.Failure

/-!
# Cancellation

A run is abandoned when it is asked to stop.  The request is a flag that all
holders of it share and that is never taken back.  `Watch` is what a run sees
of its surroundings: the flag, the reports it made so far, and after how many
reports the receiver raises the flag.
-/

namespace ContentLoom

/-! ### A shared flag -/

/-- A flag with several holders. -/
structure SharedFlag where
  raised : Bool
  copies : Nat
deriving DecidableEq

namespace SharedFlag

/-- A flag that was not raised, with one holder. -/
def fresh : SharedFlag := ⟨false, 0⟩

/-- One more holder. -/
def copy (f : SharedFlag) : SharedFlag := { f with copies := f.copies + 1 }

/-- Some holder raises the flag. -/
def raise (f : SharedFlag) : SharedFlag := { f with raised := true }

/-- What each of the later holders sees. -/
def seenByCopies (f : SharedFlag) : List Bool := List.replicate f.copies f.raised

/-- Fails once the flag is raised. -/
def check (f : SharedFlag) : Except Failure Unit :=
  if f.raised then .error .cancelled else .ok ()

end SharedFlag

/-! ### A watched run -/

/-- The reports of a run and its flag. -/
structure Watch where
  reports : List Diagnostic
  raised : Bool
  /-- The number of reports at which the receiver raises the flag. -/
  limit : Option Nat
deriving DecidableEq

/-- An action of a watched run; its reports stay also where it fails. -/
abbrev Watched (α : Type) := ExceptT Failure (StateM Watch) α

namespace Watch

/-- Nothing reported yet. -/
def start (raised : Bool) (limit : Option Nat) : Watch := ⟨[], raised, limit⟩

/-- Takes a report; the receiver may raise the flag on it. -/
def report (w : Watch) (d : Diagnostic) : Watch :=
  let reports := w.reports ++ [d]
  { w with
    reports := reports
    raised := w.raised || w.limit.any (· ≤ reports.length) }

theorem reports_report (w : Watch) (d : Diagnostic) : (w.report d).reports = w.reports ++ [d] := rfl

end Watch

/-- Makes a report. -/
def Watched.report (d : Diagnostic) : Watched Unit := modify fun w => w.report d

/-- Fails once the flag is raised. -/
def Watched.check : Watched Unit := do
  if (← get).raised then throw .cancelled

end ContentLoom

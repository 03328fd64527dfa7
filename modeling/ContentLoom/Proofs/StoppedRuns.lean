import ContentLoom.Proofs.ResolutionActs

/-!
# Runs that are stopped

The receiver of the reports may raise the flag at the `n`-th of them, and the
run finds it raised at its next look.  Whatever was reported by then is the
beginning of what is reported without a receiver that raises it, and the `n`-th
report is part of it.
-/

namespace ContentLoom

namespace Watched

/-! ### What one act keeps -/

/-- A raised flag was raised by the receiver, after as many reports as it waits for. -/
def Timely (limit : Nat) (w : Watch) : Prop :=
  w.limit = some limit ∧ (w.raised = true → limit ≤ w.reports.length)

theorem timely_start (limit : Nat) : Timely limit (Watch.start false (some limit)) :=
  ⟨rfl, fun h => Bool.noConfusion h⟩

theorem Timely.report {limit : Nat} {w : Watch} (h : Timely limit w) (d : Diagnostic) :
    Timely limit (w.report d) := by
  obtain ⟨hlimit, hraised⟩ := h
  refine ⟨hlimit, fun hnow => ?_⟩
  have hlength : (w.report d).reports.length = w.reports.length + 1 := by
    simp [Watch.reports_report]
  rw [hlength]
  have hcases : w.raised = true ∨ limit ≤ w.reports.length + 1 := by
    simpa [Watch.report, hlimit] using hnow
  rcases hcases with hbefore | hreached
  · exact Nat.le_succ_of_le (hraised hbefore)
  · exact hreached

/-! ### Whole runs -/

theorem replay_limit (acts : List Act) (w : Watch) : (replay acts w).2.limit = w.limit := by
  induction acts generalizing w with
  | nil => rfl
  | cons act acts ih =>
    cases act with
    | look =>
      rw [replay]
      split
      · rfl
      · exact ih w
    | tell d => exact ih (w.report d)

/-- A run that comes to its end has made all its reports. -/
theorem replay_ok {acts : List Act} {w v : Watch} (h : replay acts w = (.ok (), v)) :
    v.reports = w.reports ++ told acts := by
  induction acts generalizing w with
  | nil =>
    cases h
    exact (List.append_nil _).symm
  | cons act acts ih =>
    cases act with
    | look =>
      rw [replay] at h
      split at h
      · cases h
      · exact ih h
    | tell d =>
      have hrest := ih (w := w.report d) h
      rw [hrest, Watch.reports_report, told_tell, List.append_assoc, List.singleton_append]

/-- A run that is not stopped has made all its reports. -/
theorem Performs.reports_of_ok {α : Type} {m : Watched α} {a b : α} {acts : List Act}
    (hm : Performs m a acts) {w v : Watch} (h : m.run.run w = (.ok b, v)) :
    v.reports = w.reports ++ told acts := by
  rw [hm w] at h
  rcases hreplay : replay acts w with ⟨result, u⟩
  rw [hreplay] at h
  cases result with
  | error e => cases h
  | ok =>
    cases h
    exact replay_ok hreplay

/-- A run that is stopped was so by the flag, and has made its first reports up to that look. -/
theorem replay_error {limit : Nat} {acts : List Act} {w v : Watch} {e : Failure}
    (hw : Timely limit w) (h : replay acts w = (.error e, v)) :
    e = .cancelled ∧ limit ≤ v.reports.length ∧ v.reports <+: w.reports ++ told acts := by
  induction acts generalizing w with
  | nil => cases h
  | cons act acts ih =>
    cases act with
    | look =>
      rw [replay] at h
      split at h
      · rename_i hraised
        cases h
        exact ⟨rfl, hw.2 hraised, List.prefix_append ..⟩
      · exact ih hw h
    | tell d =>
      have hrest := ih (hw.report d) h
      rw [Watch.reports_report, List.append_assoc, List.singleton_append] at hrest
      exact hrest

/-- A run whose receiver raises the flag at a report, beside the run in which nobody raises it. -/
theorem Performs.of_limit {α : Type} {m : Watched α} {a : α} {acts : List Act}
    (hm : Performs m a acts) (limit : Nat) :
    ∃ outcome made raised,
      m.run.run (Watch.start false (some limit)) = (outcome, ⟨made, raised, some limit⟩) ∧
        made <+: told acts ∧
        (outcome = .ok a ∧ made = told acts ∨
          outcome = .error .cancelled ∧ limit ≤ made.length) := by
  have hstart := timely_start limit
  have hrun := hm (Watch.start false (some limit))
  have hlimit := replay_limit acts (Watch.start false (some limit))
  rcases hreplay : replay acts (Watch.start false (some limit)) with ⟨result, made, raised, limit'⟩
  rw [hreplay] at hrun hlimit
  obtain rfl : limit' = some limit := hlimit
  cases result with
  | ok =>
    have hall : made = told acts := replay_ok hreplay
    exact ⟨.ok a, made, raised, hrun, hall ▸ List.prefix_rfl, Or.inl ⟨rfl, hall⟩⟩
  | error e =>
    obtain ⟨rfl, hreached, hfirst⟩ := replay_error hstart hreplay
    exact ⟨.error .cancelled, made, raised, hrun, hfirst, Or.inr ⟨rfl, hreached⟩⟩

end Watched

namespace Resolution

open Watched

/-- Where the receiver raises the flag at the `n`-th report, resolution is cancelled or gives all
the classes that it gives without.  Its reports are the first of those made without, up to the
`n`-th at least. -/
theorem resolveAll_of_limit (g : Graph) (n : Nat) :
    ∃ classes reports outcome made raised,
      (resolveAll g).run.run (Watch.start false none) = (.ok classes, ⟨reports, false, none⟩) ∧
      (resolveAll g).run.run (Watch.start false (some n)) = (outcome, ⟨made, raised, some n⟩) ∧
      made <+: reports ∧ min n reports.length ≤ made.length ∧
      (outcome = .ok classes ∧ made = reports ∨
        outcome = .error .cancelled ∧ n ≤ made.length) := by
  have hperforms := resolveAll_performs g
  obtain ⟨outcome, made, raised, hrun, hfirst, hends⟩ := hperforms.of_limit n
  refine ⟨_, _, outcome, made, raised, hperforms.of_quiet, hrun, hfirst, ?_, hends⟩
  rcases hends with ⟨-, hall⟩ | ⟨-, hreached⟩
  · rw [hall]
    exact Nat.min_le_right ..
  · exact Nat.le_trans (Nat.min_le_left ..) hreached

end Resolution

end ContentLoom

import ContentLoom.Cancellation

/-!
# Acts of a watched run

A watched run touches its surroundings in two ways only: it looks at the flag,
and it makes reports.  `Performs m a acts` says that `m` gives `a` after the
acts in order, or stops at the first look that finds the flag raised.  What a
run reports, and whether it can be stopped, is then a question about a list.
-/

namespace ContentLoom

namespace Watched

/-- What a run does to its surroundings. -/
inductive Act where
  | look
  | tell (d : Diagnostic)
deriving DecidableEq

/-- The surroundings after some acts; a look at a raised flag ends them. -/
def replay : List Act → Watch → Except Failure Unit × Watch
  | [], w => (.ok (), w)
  | .look :: rest, w => if w.raised then (.error .cancelled, w) else replay rest w
  | .tell d :: rest, w => replay rest (w.report d)

/-- The reports among some acts. -/
def told (acts : List Act) : List Diagnostic :=
  acts.filterMap fun
    | .look => none
    | .tell d => some d

/-- The run gives `a` after the acts, or is stopped on the way. -/
def Performs {α : Type} (m : Watched α) (a : α) (acts : List Act) : Prop :=
  ∀ w, m.run.run w = ((replay acts w).1.map fun _ => a, (replay acts w).2)

/-! ### Replaying -/

theorem replay_append (xs ys : List Act) (w : Watch) :
    replay (xs ++ ys) w =
      match replay xs w with
      | (.ok _, v) => replay ys v
      | (.error e, v) => (.error e, v) := by
  induction xs generalizing w with
  | nil => rfl
  | cons x xs ih =>
    cases x with
    | look =>
      simp only [List.cons_append, replay]
      split
      · rfl
      · exact ih w
    | tell d => exact ih (w.report d)

theorem told_append (xs ys : List Act) : told (xs ++ ys) = told xs ++ told ys := by
  simp only [told, List.filterMap_append]

@[simp] theorem told_look (acts : List Act) : told (.look :: acts) = told acts := rfl

@[simp] theorem told_tell (d : Diagnostic) (acts : List Act) :
    told (.tell d :: acts) = d :: told acts := rfl

@[simp] theorem told_map_tell (ds : List Diagnostic) : told (ds.map .tell) = ds := by
  simp only [told, List.filterMap_map]
  exact List.filterMap_some

/-- Where nobody raises the flag, all acts are done. -/
theorem replay_of_quiet (acts : List Act) (w : Watch) (hr : w.raised = false)
    (hl : w.limit = none) :
    replay acts w = (.ok (), { w with reports := w.reports ++ told acts }) := by
  induction acts generalizing w with
  | nil => simp [replay, told]
  | cons x xs ih =>
    cases x with
    | look =>
      have hlook : replay (.look :: xs) w = replay xs w := by
        simp [replay, hr]
      rw [hlook, ih w hr hl, told_look]
    | tell d =>
      have hraised : (w.report d).raised = false := by simp [Watch.report, hr, hl]
      have hrest := ih (w.report d) hraised hl
      simp only [replay, hrest, told_tell, Watch.reports_report, List.append_assoc,
        List.singleton_append]
      simp [Watch.report, hl]

/-! ### Runs -/

namespace Performs

variable {α β : Type}

theorem pure (a : α) : Performs (Pure.pure a : Watched α) a [] := fun _ => rfl

theorem report (d : Diagnostic) : Performs (Watched.report d) () [.tell d] := fun _ => rfl

theorem check : Performs Watched.check () [.look] := by
  intro w
  cases w with
  | mk reports raised limit => cases raised <;> rfl

theorem run_bind (m : Watched α) (f : α → Watched β) (w : Watch) :
    (m >>= f).run.run w =
      match m.run.run w with
      | (.ok a, v) => (f a).run.run v
      | (.error e, v) => (.error e, v) := by
  have hrun : (m >>= f).run.run w =
      (ExceptT.bindCont f (m.run.run w).1).run (m.run.run w).2 := rfl
  rw [hrun]
  rcases m.run.run w with ⟨result, v⟩
  cases result <;> rfl

theorem bind {m : Watched α} {f : α → Watched β} {a : α} {b : β} {xs ys : List Act}
    (hm : Performs m a xs) (hf : Performs (f a) b ys) : Performs (m >>= f) b (xs ++ ys) := by
  intro w
  rw [run_bind, hm w, replay_append]
  rcases replay xs w with ⟨result, v⟩
  cases result with
  | ok _ => exact hf v
  | error e => rfl

theorem reportAll (ds : List Diagnostic) :
    Performs (ds.forM Watched.report) () (ds.map .tell) := by
  induction ds with
  | nil => exact pure ()
  | cons d ds ih => exact bind (report d) ih

theorem reportAny (d : Option Diagnostic) :
    Performs (d.forM Watched.report) () (d.toList.map .tell) := by
  cases d with
  | none => exact pure ()
  | some d => exact report d

/-- A run that is not stopped gives its value. -/
theorem eq_of_ok {m : Watched α} {a b : α} {acts : List Act} (hm : Performs m a acts)
    {w v : Watch} (h : m.run.run w = (.ok b, v)) : b = a := by
  rw [hm w] at h
  have hresult := congrArg Prod.fst h
  cases hacts : (replay acts w).1 with
  | error e =>
    rw [hacts] at hresult
    cases hresult
  | ok done =>
    rw [hacts] at hresult
    cases hresult
    rfl

/-- A run that nobody stops gives its value and makes all its reports. -/
theorem of_quiet {m : Watched α} {a : α} {acts : List Act} (hm : Performs m a acts) :
    m.run.run (Watch.start false none) = (.ok a, ⟨told acts, false, none⟩) := by
  rw [hm, replay_of_quiet acts _ rfl rfl]
  rfl

end Performs

end Watched

end ContentLoom

import ContentLoom.Pipeline.Step

/-!
# Runs in turn

The runs of some items, each in the state that the one before it left: either all
of them succeed, or the first that fails ends them, and those behind it are not
run at all.
-/

namespace ContentLoom.Pipeline

variable {σ α β : Type}

/-! ### One run after another -/

section

variable {x : Run σ α} {f : α → Run σ β} {start last : σ}

theorem Run.bind_ok_iff {b : β} :
    (x >>= f).run.run start = (.ok b, last) ↔
      ∃ a next, x.run.run start = (.ok a, next) ∧ (f a).run.run next = (.ok b, last) := by
  rw [Run.run_bind]
  rcases x.run.run start with ⟨outcome, state⟩
  cases outcome with
  | error e =>
    refine iff_of_false nofun ?_
    rintro ⟨a, next, hx, -⟩
    cases hx
  | ok a =>
    constructor
    · intro h
      exact ⟨a, state, rfl, h⟩
    · rintro ⟨a, next, hx, h⟩
      cases hx
      exact h

theorem Run.bind_error_iff {failure : PipelineFailure} :
    (x >>= f).run.run start = (.error failure, last) ↔
      x.run.run start = (.error failure, last) ∨
        ∃ a next, x.run.run start = (.ok a, next) ∧
          (f a).run.run next = (.error failure, last) := by
  rw [Run.run_bind]
  rcases x.run.run start with ⟨outcome, state⟩
  cases outcome with
  | error e =>
    constructor
    · intro h
      cases h
      exact Or.inl rfl
    · rintro (hx | ⟨a, next, hx, -⟩)
      · cases hx
        rfl
      · cases hx
  | ok a =>
    constructor
    · intro h
      exact Or.inr ⟨a, state, rfl, h⟩
    · rintro (hx | ⟨a, next, hx, h⟩)
      · cases hx
      · cases hx
        exact h

/-- What is made of a result without running anything. -/
theorem Run.bind_pure_ok_iff {k : α → β} {b : β} :
    (x >>= fun a => pure (k a)).run.run start = (.ok b, last) ↔
      ∃ a, x.run.run start = (.ok a, last) ∧ b = k a := by
  rw [Run.bind_ok_iff]
  constructor
  · rintro ⟨a, next, hx, hpure⟩
    cases hpure
    exact ⟨a, hx, rfl⟩
  · rintro ⟨a, hx, rfl⟩
    exact ⟨a, last, hx, rfl⟩

theorem Run.bind_pure_error_iff {k : α → β} {failure : PipelineFailure} :
    (x >>= fun a => pure (k a)).run.run start = (.error failure, last) ↔
      x.run.run start = (.error failure, last) := by
  rw [Run.bind_error_iff]
  refine or_iff_left ?_
  rintro ⟨a, next, -, hpure⟩
  cases hpure

end

/-! ### All of them -/

/-- The runs of the items succeed in turn, from a state to another, with a result each. -/
inductive InTurn (act : α → Run σ β) : List α → σ → List β → σ → Prop
  | nil (state : σ) : InTurn act [] state [] state
  | cons {x : α} {xs : List α} {y : β} {ys : List β} {start next last : σ}
      (head : (act x).run.run start = (.ok y, next)) (tail : InTurn act xs next ys last) :
      InTurn act (x :: xs) start (y :: ys) last

/-- The run of an item fails after those of all items before it have succeeded in turn. -/
def FailsInTurn (act : α → Run σ β) (xs : List α) (start : σ) (failure : PipelineFailure)
    (last : σ) : Prop :=
  ∃ front x back ys next, xs = front ++ x :: back ∧ InTurn act front start ys next ∧
    (act x).run.run next = (.error failure, last)

variable {act : α → Run σ β} {x : α} {xs : List α} {ys : List β} {start last : σ}
  {failure : PipelineFailure}

theorem InTurn.length_eq (h : InTurn act xs start ys last) : ys.length = xs.length := by
  induction h with
  | nil => rfl
  | cons _ _ ih => rw [List.length_cons, List.length_cons, ih]

theorem inTurn_nil_iff : InTurn act [] start ys last ↔ ys = [] ∧ start = last := by
  constructor
  · rintro ⟨⟩
    exact ⟨rfl, rfl⟩
  · rintro ⟨rfl, rfl⟩
    exact .nil start

theorem inTurn_cons_iff :
    InTurn act (x :: xs) start ys last ↔ ∃ y next, (act x).run.run start = (.ok y, next) ∧
      ∃ rest, InTurn act xs next rest last ∧ ys = y :: rest := by
  constructor
  · intro h
    cases h with
    | cons head tail => exact ⟨_, _, head, _, tail, rfl⟩
  · rintro ⟨y, next, head, rest, tail, rfl⟩
    exact .cons head tail

theorem not_failsInTurn_nil : ¬FailsInTurn act [] start failure last := by
  rintro ⟨front, x, back, ys, next, hsplit, -⟩
  exact absurd hsplit (by simp)

theorem failsInTurn_cons_iff :
    FailsInTurn act (x :: xs) start failure last ↔
      (act x).run.run start = (.error failure, last) ∨
        ∃ y next, (act x).run.run start = (.ok y, next) ∧
          FailsInTurn act xs next failure last := by
  constructor
  · rintro ⟨front, z, back, ys, next, hsplit, hfront, hfails⟩
    cases hfront with
    | nil =>
      obtain ⟨rfl, -⟩ := List.cons.inj hsplit
      exact Or.inl hfails
    | cons head tail =>
      obtain ⟨rfl, hrest⟩ := List.cons.inj hsplit
      exact Or.inr ⟨_, _, head, _, z, back, _, next, hrest, tail, hfails⟩
  · rintro (hfails | ⟨y, next, head, front, z, back, ys, middle, rfl, htail, hfails⟩)
    · exact ⟨[], x, xs, [], start, rfl, .nil start, hfails⟩
    · exact ⟨x :: front, z, back, y :: ys, middle, rfl, .cons head htail, hfails⟩

theorem mapM_ok_iff :
    (xs.mapM act).run.run start = (.ok ys, last) ↔ InTurn act xs start ys last := by
  induction xs generalizing start ys with
  | nil =>
    rw [List.mapM_nil, inTurn_nil_iff]
    constructor
    · intro h
      cases h
      exact ⟨rfl, rfl⟩
    · rintro ⟨rfl, rfl⟩
      rfl
  | cons x xs ih =>
    rw [List.mapM_cons, inTurn_cons_iff, Run.bind_ok_iff]
    simp only [Run.bind_pure_ok_iff, ih]

theorem mapM_congr {other : α → Run σ β} (h : ∀ x ∈ xs, act x = other x) :
    xs.mapM act = xs.mapM other := by
  induction xs with
  | nil => rfl
  | cons x xs ih =>
    obtain ⟨hfirst, hrest⟩ := List.forall_mem_cons.1 h
    rw [List.mapM_cons, List.mapM_cons, hfirst, ih hrest]

/-- What runs nothing has its result in any state. -/
theorem InTurn.getElem?_of_pure {i : Nat} {y : β} (h : InTurn act xs start ys last)
    (hx : xs[i]? = some x) (hpure : act x = pure y) : ys[i]? = some y := by
  induction h generalizing i with
  | nil => cases hx
  | cons head _ ih =>
    cases i with
    | zero =>
      obtain rfl := Option.some.inj hx
      rw [hpure] at head
      cases head
      rfl
    | succ i => exact ih hx

/-- There is one way only in which the runs succeed. -/
theorem InTurn.unique {zs : List β} {other : σ} (h : InTurn act xs start ys last)
    (h' : InTurn act xs start zs other) : ys = zs ∧ last = other := by
  have hsame := (mapM_ok_iff.2 h).symm.trans (mapM_ok_iff.2 h')
  cases hsame
  exact ⟨rfl, rfl⟩

theorem mapM_error_iff :
    (xs.mapM act).run.run start = (.error failure, last) ↔
      FailsInTurn act xs start failure last := by
  induction xs generalizing start with
  | nil =>
    refine iff_of_false (fun h => ?_) not_failsInTurn_nil
    cases h
  | cons x xs ih =>
    rw [List.mapM_cons, failsInTurn_cons_iff, Run.bind_error_iff]
    simp only [Run.bind_pure_error_iff, ih]

end ContentLoom.Pipeline

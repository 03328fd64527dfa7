/-!
# Claiming names

A name is claimed from a sequence of candidates: a short form, a wide form, and
the wide form with a number from two on.  The first that is free is taken.
Among one more candidate than names are taken one is free, so the search ends.
-/

namespace ContentLoom.Naming

/-- The candidates in order. -/
def candidate (short wide : String) : Nat → String
  | 0 => short
  | 1 => wide
  | n => wide ++ "_" ++ toString n

/-- The first rendered candidate that is not taken. -/
def claim (taken : List String) (short wide : String) (render : String → String) : String :=
  let bound := taken.length + 2
  let free := (List.range bound).find? fun i => !taken.contains (render (candidate short wide i))
  render (candidate short wide (free.getD bound))

/-- Claims a name for each item in turn, none of them twice. -/
def claimEach {α : Type} (forms : α → String × String) (render : String → String) :
    List String → List α → List String
  | _, [] => []
  | taken, a :: rest =>
    let name := claim taken (forms a).1 (forms a).2 render
    name :: claimEach forms render (name :: taken) rest

theorem length_claimEach {α : Type} (forms : α → String × String) (render : String → String)
    (taken : List String) (items : List α) :
    (claimEach forms render taken items).length = items.length := by
  induction items generalizing taken with
  | nil => rfl
  | cons a rest ih => simp [claimEach, ih]

end ContentLoom.Naming

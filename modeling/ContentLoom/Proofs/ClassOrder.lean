import ContentLoom.Proofs.ResolutionActs
import Mathlib.Data.List.Nodup

/-!
# The order of classes

Classes are sorted by their order and then by their full name.  Classes with
different full names have one sorted list only, whatever order they come in.
-/

namespace ContentLoom.Resolution

/-! ### Precedence -/

theorem precedes_iff (a b : ContentClass) :
    precedes a b = true ↔ a.order < b.order ∨ (a.order = b.order ∧ a.fullName ≤ b.fullName) := by
  simp [precedes]

theorem precedes_trans (a b c : ContentClass) (hab : precedes a b = true)
    (hbc : precedes b c = true) : precedes a c = true := by
  rw [precedes_iff] at hab hbc ⊢
  rcases hab with hab | ⟨hab, hnab⟩
  · rcases hbc with hbc | ⟨hbc, -⟩
    · exact Or.inl (Int32.lt_trans hab hbc)
    · exact Or.inl (hbc ▸ hab)
  · rcases hbc with hbc | ⟨hbc, hnbc⟩
    · exact Or.inl (hab ▸ hbc)
    · exact Or.inr ⟨hab.trans hbc, String.le_trans hnab hnbc⟩

theorem precedes_total (a b : ContentClass) : (precedes a b || precedes b a) = true := by
  rw [Bool.or_eq_true, precedes_iff, precedes_iff]
  by_cases horder : a.order = b.order
  · rcases String.le_total a.fullName b.fullName with hn | hn
    · exact Or.inl (Or.inr ⟨horder, hn⟩)
    · exact Or.inr (Or.inr ⟨horder.symm, hn⟩)
  · rcases Int32.lt_or_lt_of_ne horder with hlt | hlt
    · exact Or.inl (Or.inl hlt)
    · exact Or.inr (Or.inl hlt)

theorem fullName_eq_of_precedes (a b : ContentClass) (hab : precedes a b = true)
    (hba : precedes b a = true) : a.fullName = b.fullName := by
  rw [precedes_iff] at hab hba
  rcases hab with hab | ⟨horder, hnab⟩
  · rcases hba with hba | ⟨hba, -⟩
    · exact absurd hba (Int32.lt_asymm hab)
    · rw [hba] at hab
      exact absurd hab Int32.lt_irrefl
  · rcases hba with hba | ⟨-, hnba⟩
    · rw [horder] at hba
      exact absurd hba Int32.lt_irrefl
    · exact String.le_antisymm hnab hnba

/-! ### Sorting -/

theorem sortClasses_perm (classes : List ContentClass) : (sortClasses classes).Perm classes :=
  List.mergeSort_perm classes precedes

theorem sortClasses_pairwise (classes : List ContentClass) :
    (sortClasses classes).Pairwise fun a b => precedes a b = true :=
  List.pairwise_mergeSort precedes_trans precedes_total classes

/-- Classes with different full names have one sorted list. -/
theorem sortClasses_eq_of_perm {xs ys : List ContentClass} (hperm : xs.Perm ys)
    (hdistinct : (xs.map (·.fullName)).Nodup) : sortClasses xs = sortClasses ys := by
  have hsorted : (sortClasses xs).Perm (sortClasses ys) :=
    (sortClasses_perm xs).trans (hperm.trans (sortClasses_perm ys).symm)
  apply hsorted.eq_of_pairwise _ (sortClasses_pairwise xs) (sortClasses_pairwise ys)
  intro a b ha hb hab hba
  have hxa : a ∈ xs := (sortClasses_perm xs).mem_iff.1 ha
  have hxb : b ∈ xs := hperm.mem_iff.2 ((sortClasses_perm ys).mem_iff.1 hb)
  exact List.inj_on_of_nodup_map hdistinct hxa hxb (fullName_eq_of_precedes a b hab hba)

/-! ### Classes of a graph -/

theorem origin?_fullName {g : Graph} {d : Declaration} {r : Resolved}
    (h : origin? g d = some r) : r.contentClass.fullName = d.fullName := by
  unfold origin? at h
  obtain ⟨markers, -, hr⟩ := Option.map_eq_some_iff.1 h
  rw [← hr]
  rfl

theorem fullNames_classesOf (g : Graph) (ds : List Declaration) :
    ((classesOf g ds).map (·.fullName)).Sublist (ds.map Declaration.fullName) := by
  induction ds with
  | nil => exact List.Sublist.refl []
  | cons d ds ih =>
    rw [classesOf_cons, List.map_append, List.map_cons]
    cases horigin : origin? g d with
    | none => exact ih.cons d.fullName
    | some r =>
      have hname := origin?_fullName horigin
      simp only [Option.map_some, Option.toList_some, List.map_cons, List.map_nil,
        List.singleton_append, hname]
      exact ih.cons_cons d.fullName

theorem withFormContainer_perm (classes : List ContentClass)
    (habsent : ∀ c ∈ classes, c.fullName ≠ formContainerType) :
    (withFormContainer classes).Perm (formContainer :: classes) := by
  have hany : (classes.any (·.fullName == formContainerType)) = false := by
    simpa using habsent
  unfold withFormContainer
  rw [hany]
  exact (sortClasses_perm _).trans (List.perm_append_singleton _ _)

end ContentLoom.Resolution

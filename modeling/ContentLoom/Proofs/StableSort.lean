import Mathlib.Data.List.Sort

/-!
# Stable sorting

A merge sort leaves elements that precede each other where they were.  So the
elements of a class of ties come as a sublist of the list that was sorted, and
any relation that this list has from left to right stays between ties.
-/

namespace ContentLoom

section

variable {α : Type} {le : α → α → Bool}

/-- The elements of one class of ties keep their sublist. -/
theorem filter_mergeSort
    (htrans : ∀ a b c, le a b = true → le b c = true → le a c = true)
    (htotal : ∀ a b, (le a b || le b a) = true) (p : α → Bool)
    (htied : ∀ a b, p a = true → p b = true → le a b = true) (xs : List α) :
    (xs.mergeSort le).filter p = xs.filter p := by
  have hpairwise : (xs.filter p).Pairwise fun a b => le a b = true :=
    List.pairwise_of_forall_mem_list fun a ha b hb =>
      htied a b (List.mem_filter.1 ha).2 (List.mem_filter.1 hb).2
  have hkept : (xs.filter p).Sublist (xs.mergeSort le) :=
    List.sublist_mergeSort htrans htotal hpairwise List.filter_sublist
  have hsublist : (xs.filter p).Sublist ((xs.mergeSort le).filter p) := by
    have hfiltered := hkept.filter p
    simpa only [List.filter_filter, Bool.and_self] using hfiltered
  have hperm : ((xs.mergeSort le).filter p).Perm (xs.filter p) :=
    (List.mergeSort_perm xs le).filter p
  exact (hsublist.eq_of_length hperm.length_eq.symm).symm

/-- What holds from left to right in a list holds between the ties of the sorted list. -/
theorem pairwise_ties_mergeSort
    (htrans : ∀ a b c, le a b = true → le b c = true → le a c = true)
    (htotal : ∀ a b, (le a b || le b a) = true) {r : α → α → Prop} {xs : List α}
    (h : xs.Pairwise r) :
    (xs.mergeSort le).Pairwise fun a b => le a b = true ∧ (le b a = true → r a b) := by
  have hsorted := List.pairwise_mergeSort htrans htotal xs
  rw [List.pairwise_iff_forall_sublist]
  intro a b hab
  have hle : le a b = true := List.pairwise_iff_forall_sublist.1 hsorted hab
  refine ⟨hle, fun hba => ?_⟩
  -- the elements that tie with `a`, of which `b` is one
  let tied : α → Bool := fun x => le a x && le x a
  have htied : ∀ x y, tied x = true → tied y = true → le x y = true := by
    intro x y hx hy
    simp only [tied, Bool.and_eq_true] at hx hy
    exact htrans x a y hx.2 hy.1
  have hrefl : le a a = true := by simpa using htotal a a
  have hpair : [a, b].filter tied = [a, b] := by
    simp [tied, hle, hba, hrefl]
  have hkept := hab.filter tied
  rw [hpair, filter_mergeSort htrans htotal tied htied] at hkept
  exact List.pairwise_iff_forall_sublist.1 (h.sublist List.filter_sublist) hkept

end

end ContentLoom

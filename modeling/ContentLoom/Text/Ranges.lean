/-!
# Range tables

A property of characters is held as a sorted list of closed ranges of scalar
values.  Membership stops at the first range that begins above the value, so
the common low characters are decided within a few steps.
-/

namespace ContentLoom.Text

/-- Closed ranges `(first, last)` of scalar values, in increasing order. -/
abbrev RangeTable := List (Nat × Nat)

namespace RangeTable

/-- Whether `n` lies in one of the ranges of a sorted table. -/
def mem : RangeTable → Nat → Bool
  | [], _ => false
  | (first, last) :: rest, n => if n < first then false else n ≤ last || mem rest n

/-- Membership never holds without a range that contains the value. -/
theorem exists_of_mem (table : RangeTable) (n : Nat) (h : mem table n = true) :
    ∃ r ∈ table, r.1 ≤ n ∧ n ≤ r.2 := by
  induction table with
  | nil => simp [mem] at h
  | cons r rest ih =>
    obtain ⟨first, last⟩ := r
    unfold mem at h
    split at h
    · simp at h
    · rename_i hge
      simp only [Bool.or_eq_true, decide_eq_true_eq] at h
      rcases h with h | h
      · exact ⟨(first, last), by simp, by simp; omega⟩
      · obtain ⟨r, hr, hb⟩ := ih h
        exact ⟨r, by simp [hr], hb⟩

end RangeTable

end ContentLoom.Text

import ContentLoom.Generated.Layout
import ContentLoom.Proofs.Dictionaries

/-!
# Names of groups

The group of a class is named by its identifier.  A plain word is the identifier
of itself alone, and the names of the groups of some classes come each once.
-/

namespace ContentLoom

namespace Naming

/-! ### Identifiers -/

/-- The text with its replacements, before a digit at its front is looked at. -/
def masked (cs : List Char) : List Char := cs.map fun c => if isWordChar c then c else '_'

theorem sanitizeChars_eq (cs : List Char) :
    sanitizeChars cs = masked cs ∨ sanitizeChars cs = '_' :: masked cs := by
  unfold sanitizeChars masked
  simp only
  split
  · split
    · exact Or.inr rfl
    · exact Or.inl rfl
  · rename_i hempty
    exact Or.inl hempty.symm

theorem isWordChar_of_mem_sanitizeChars {cs : List Char} {c : Char} (h : c ∈ sanitizeChars cs) :
    isWordChar c = true := by
  have hunderscore : isWordChar '_' = true := by simp [isWordChar]
  have hmasked (hc : c ∈ masked cs) : isWordChar c = true := by
    obtain ⟨a, -, rfl⟩ := List.mem_map.1 hc
    split
    · assumption
    · exact hunderscore
  rcases sanitizeChars_eq cs with heq | heq
  · rw [heq] at h
    exact hmasked h
  · rw [heq] at h
    rcases List.mem_cons.1 h with rfl | h
    · exact hunderscore
    · exact hmasked h

theorem dot_not_mem_sanitizeChars (cs : List Char) : '.' ∉ sanitizeChars cs := by
  intro h
  have hword := isWordChar_of_mem_sanitizeChars h
  have hdot : isWordChar '.' = false := by decide
  rw [hdot] at hword
  cases hword

/-- Where no underscore is, nothing was replaced. -/
theorem sanitizeChars_eq_self {cs : List Char} (h : '_' ∉ sanitizeChars cs) :
    sanitizeChars cs = cs := by
  rcases sanitizeChars_eq cs with heq | heq
  · rw [heq] at h ⊢
    have hkept : ∀ c ∈ cs, (if isWordChar c then c else '_') = id c := by
      intro c hc
      by_cases hword : isWordChar c = true
      · simp [hword]
      · have hreplaced : '_' ∈ masked cs := List.mem_map.2 ⟨c, hc, by simp [hword]⟩
        exact absurd hreplaced h
    unfold masked
    rw [List.map_congr_left hkept, List.map_id]
  · rw [heq] at h
    exact absurd (List.mem_cons_self ..) h

/-- A word without an underscore that is its own identifier is that of no other text. -/
theorem sanitize_eq_iff {s word : String} (hself : sanitize word = word)
    (hplain : '_' ∉ word.toList) : sanitize s = word ↔ s = word := by
  constructor
  · intro h
    have hchars : sanitizeChars s.toList = word.toList := by
      rw [← h, sanitize, String.toList_ofList]
    rw [← hchars] at hplain
    have hsame := sanitizeChars_eq_self hplain
    rw [hchars] at hsame
    exact (String.toList_inj.1 hsame).symm
  · rintro rfl
    exact hself

end Naming

namespace Generated

/-! ### Groups of classes -/

theorem nodup_groupNames (classes : List ContentClass) : (groupNames classes).Nodup :=
  (Entries.sorted_increasing _).imp fun h => String.ne_of_lt h

theorem mem_groupNames (classes : List ContentClass) (group : String) :
    group ∈ groupNames classes ↔ ∃ c ∈ classes, groupName c = group := by
  unfold groupNames
  rw [Entries.mem_names_sorted]
  simp [Entries.names]

end Generated

end ContentLoom

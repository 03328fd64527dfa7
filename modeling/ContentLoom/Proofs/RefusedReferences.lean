import ContentLoom.Proofs.TypeScan
import ContentLoom.Proofs.TypeText
import Mathlib.Control.Monad.Basic

/-!
# Where a text stops being a reference

The offset of a refusal is the length of the longest beginning of the text that
some reference has as well: up to there the text can still be completed, and
with one more character no text that is a reference begins like it.
-/

namespace ContentLoom.TypeRef

/-! ### Beginnings of references -/

/-- Some text that is a reference begins with this one. -/
def Viable (front : String) : Prop := ∃ back t, parse (front ++ back) = .ok t

theorem Scan.Leads.of_append {s last : Scan} {front back : List Char}
    (h : Leads s (front ++ back) last []) : ∃ s', Leads s front s' [] := by
  induction front generalizing s with
  | nil => exact ⟨s, .refl⟩
  | cons c front ih =>
    cases h with
    | step now later =>
      obtain ⟨s', hs'⟩ := ih later
      exact ⟨s', .step now hs'⟩

/-- The beginnings of references are the texts that the machine takes to their end. -/
theorem viable_iff (front : String) :
    Viable front ↔ ∃ s, Scan.Leads .initial front.toList s [] := by
  constructor
  · rintro ⟨back, t, hread⟩
    rw [parse_eq_ok_iff, String.toList_append] at hread
    obtain ⟨part, hleads, -⟩ := Scan.leads_of_ofChars hread
    exact hleads.of_append
  · rintro ⟨s, hleads⟩
    obtain ⟨back, last, hmore, hfinal⟩ := s.exists_completion
    obtain ⟨taken, htaken, htakes⟩ := hleads.exists_front
    rw [List.append_nil] at htaken
    subst htaken
    obtain ⟨t, ht⟩ := (Scan.accepts_iff _).2 ⟨last, (htakes back).trans hmore, hfinal⟩
    refine ⟨String.ofList back, t, ?_⟩
    rw [parse_eq_ok_iff, String.toList_append, String.toList_ofList]
    exact ht

/-! ### Offsets -/

theorem byteLength_eq (cs : List Char) : byteLength cs = (String.ofList cs).utf8ByteSize := by
  induction cs with
  | nil => rfl
  | cons c cs ih =>
    rw [String.ofList_cons, String.utf8ByteSize_append, String.utf8ByteSize_singleton, ← ih]
    rfl

/-- A text is refused at the end of its longest beginning that is the beginning of a reference. -/
theorem offset_longest_viable {text : String} {refusal : Refusal}
    (h : parse text = .error refusal) :
    ∃ front rest, text = front ++ rest ∧ front.utf8ByteSize = refusal.offset ∧ Viable front ∧
      ∀ more back, rest = more ++ back → more ≠ "" → ¬Viable (front ++ more) := by
  unfold parse at h
  split at h
  · cases h
  · rename_i expected rest hread
    cases h
    obtain ⟨s, hleads, hstuck⟩ := Scan.stuck_of_ofChars hread
    obtain ⟨front, hsplit, htakes⟩ := hleads.exists_front
    have htext : text = String.ofList front ++ String.ofList rest := by
      rw [← String.ofList_append, ← hsplit, String.ofList_toList]
    refine ⟨String.ofList front, String.ofList rest, htext, ?_, ?_, ?_⟩
    · rw [byteLength_eq, byteLength_eq, hsplit, String.ofList_append, String.utf8ByteSize_append,
        Nat.add_sub_cancel]
    · have hfront := htakes []
      rw [List.append_nil] at hfront
      refine (viable_iff _).2 ⟨s, ?_⟩
      rw [String.toList_ofList]
      exact hfront
    · intro more back hrest hmore hviable
      obtain ⟨last, hlast⟩ := (viable_iff _).1 hviable
      rw [String.toList_append, String.toList_ofList] at hlast
      have hchars : rest = more.toList ++ back.toList := by
        rw [← String.toList_append, ← hrest, String.toList_ofList]
      cases hletters : more.toList with
      | nil => exact hmore (String.toList_eq_nil_iff.1 hletters)
      | cons c letters =>
        rw [hletters] at hchars hlast
        have hnone : s.step c = none := hstuck.noStep c (by rw [hchars]; rfl)
        exact (htakes (c :: letters)).no_end hnone hlast

theorem offset_longest_viable_rooted :
    parse "Map<Größe[ ], global::>" =
        .error ⟨"Map<Größe[ ], global::>", .name, 24⟩ ∧
      ∃ front rest, "Map<Größe[ ], global::>" = front ++ rest ∧ front.utf8ByteSize = 24 ∧
        Viable front ∧
        ∀ more back, rest = more ++ back → more ≠ "" → ¬Viable (front ++ more) := by
  have hrefused : parse "Map<Größe[ ], global::>" =
      .error ⟨"Map<Größe[ ], global::>", .name, 24⟩ := by decide +kernel
  exact ⟨hrefused, offset_longest_viable hrefused⟩

end ContentLoom.TypeRef

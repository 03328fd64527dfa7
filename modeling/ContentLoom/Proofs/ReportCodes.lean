import ContentLoom.Proofs.ClassifiedProperties
import ContentLoom.Proofs.ResolutionActs

/-!
# Codes of reports

Which codes the reports of a resolution have, part by part.  What a declaration
is worth by itself has other codes than what comes of a comparison with others,
and each comparison has a code of its own.
-/

namespace ContentLoom.Resolution

open Watched

/-! ### One declaration -/

theorem chainReports_code {g : Graph} {chain : BaseChain} {fullName : String} {d : Diagnostic}
    (h : d ∈ chainReports g chain fullName) :
    d.code = .inheritanceCycle ∨ d.code = .unresolvedBaseType := by
  unfold chainReports at h
  rcases List.mem_append.1 h with h | h
  · split at h
    · rw [List.mem_singleton.1 h]
      exact Or.inl rfl
    · simp at h
  · split at h
    · simp at h
    · split at h
      · simp at h
      · rw [List.mem_singleton.1 h]
        exact Or.inr rfl

theorem explicitId_code {marker : Option Attribute} {fullName : String} {d : Diagnostic}
    (h : (explicitId marker fullName).2 = some d) : d.code = .malformedStableId := by
  unfold explicitId at h
  split at h
  · simp at h
  · split at h
    · simp at h
    · rw [← Option.some.inj h]
      rfl

theorem groupOf_code {marker : Attribute} {fullName : String} {d : Diagnostic}
    (h : (groupOf marker fullName).2 = some d) : d.code = .malformedGroup := by
  unfold groupOf at h
  split at h
  · simp at h
  · simp at h
  · rw [← Option.some.inj h]
    rfl

theorem orderOf_code {marker : Attribute} {fullName : String} {d : Diagnostic}
    (h : (orderOf marker fullName).2 = some d) : d.code = .malformedOrder := by
  unfold orderOf at h
  split at h
  · simp at h
  · split at h
    · simp at h
    · rw [← Option.some.inj h]
      rfl

theorem propertyActs_code {g : Graph} {os : List Owned} {d : Diagnostic}
    (h : d ∈ told (propertyActs g os)) : d.code = .malformedConverterOverride := by
  induction os with
  | nil => simp [propertyActs, told] at h
  | cons o os ih =>
    have hcons : told (propertyActs g (o :: os)) =
        (Classifier.classify g o.owner o.property).2.toList ++ told (propertyActs g os) := by
      rw [← told_map_tell (Classifier.classify g o.owner o.property).2.toList, ← told_append]
      rfl
    rw [hcons, List.mem_append, Option.mem_toList] at h
    rcases h with h | h
    · exact ((Classifier.classified_classify g o.owner o.property).report_of_some h).1
    · exact ih h

/-- The code is that of a report on declarations that meet. -/
def Compares (code : DiagnosticCode) : Prop :=
  code = .duplicateStableId ∨ code = .duplicateDiscriminant ∨ code = .groupIdentifierCollision

/-- What a declaration is worth by itself never has the code of a comparison. -/
theorem originActs_code {g : Graph} {d : Declaration} {r : Diagnostic}
    (h : r ∈ told (originActs g d)) : ¬Compares r.code := by
  unfold originActs at h
  split at h
  · simp [told] at h
  · rw [told_append, told_map_tell, markerReports] at h
    simp only [List.mem_append, Option.mem_toList] at h
    rcases h with (h | h | h | h) | h
    · rcases chainReports_code h with hc | hc <;> simp [Compares, hc]
    · simp [Compares, explicitId_code h]
    · simp [Compares, groupOf_code h]
    · simp [Compares, orderOf_code h]
    · simp [Compares, propertyActs_code h]

/-! ### Classes that meet -/

theorem groupCollisions_code {owners : List (String × String)} {reported : List String}
    {classes : List ContentClass} {d : Diagnostic}
    (h : d ∈ groupCollisions owners reported classes) : d.code = .groupIdentifierCollision := by
  fun_induction groupCollisions owners reported classes with
  | case1 => simp at h
  | case2 owners reported c rest identifier hnone ih => exact ih h
  | case3 owners reported c rest identifier owner hsome hother ih =>
    rcases List.mem_cons.1 h with h | h
    · rw [h]
      rfl
    · exact ih h
  | case4 owners reported c rest identifier owner hsome hsame ih => exact ih h

theorem mem_duplicateTypes {owners : List (String × String)} {classes : List ContentClass}
    {d : Diagnostic} (h : d ∈ duplicateTypes owners classes) :
    ∃ location message, d = .of .duplicateDiscriminant location message := by
  fun_induction duplicateTypes owners classes with
  | case1 => simp at h
  | case2 owners c rest first hsome ih =>
    rcases List.mem_cons.1 h with h | h
    · exact ⟨_, _, h⟩
    · exact ih h
  | case3 owners c rest hnone ih => exact ih h

theorem collisionReports_code {classes : List ContentClass} {d : Diagnostic}
    (h : d ∈ collisionReports classes) : d.code ≠ .duplicateStableId := by
  rcases List.mem_append.1 h with h | h
  · simp [groupCollisions_code h]
  · obtain ⟨location, message, rfl⟩ := mem_duplicateTypes h
    simp [Diagnostic.of]

end ContentLoom.Resolution

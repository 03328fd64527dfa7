import ContentLoom.Markers

/-!
# Markers among attributes

Whether an attribute of a list is a marker of a kind, and which of several is
the last.
-/

namespace ContentLoom.Markers

/-- One of the attributes is a marker of a kind. -/
def Among (attributes : List Attribute) (kind : MarkerKind) : Prop :=
  ∃ a ∈ attributes, MarkerKind.of? a = some kind

instance (attributes : List Attribute) (kind : MarkerKind) :
    Decidable (Among attributes kind) :=
  inferInstanceAs (Decidable (∃ a ∈ attributes, MarkerKind.of? a = some kind))

/-- The attribute is the last marker of its kind. -/
def LastAmong (attributes : List Attribute) (kind : MarkerKind) (a : Attribute) : Prop :=
  ∃ before after, attributes = before ++ a :: after ∧ MarkerKind.of? a = some kind ∧
    ∀ b ∈ after, MarkerKind.of? b ≠ some kind

theorem last?_eq_some_iff_lastAmong (attributes : List Attribute) (kind : MarkerKind)
    (a : Attribute) : last? attributes kind = some a ↔ LastAmong attributes kind a := by
  rw [last?, List.find?_eq_some_iff_append]
  constructor
  · rintro ⟨hkind, after, before, hsplit, hother⟩
    have hattributes : attributes = before.reverse ++ a :: after.reverse := by
      rw [← List.reverse_reverse attributes, hsplit]
      simp
    refine ⟨before.reverse, after.reverse, hattributes, by simpa using hkind, fun b hb => ?_⟩
    simpa using hother b (List.mem_reverse.1 hb)
  · rintro ⟨before, after, hattributes, hkind, hother⟩
    have hsplit : attributes.reverse = after.reverse ++ a :: before.reverse := by
      rw [hattributes]
      simp
    refine ⟨by simpa using hkind, after.reverse, before.reverse, hsplit, fun b hb => ?_⟩
    simpa using hother b (List.mem_reverse.1 hb)

theorem isSome_last?_iff (attributes : List Attribute) (kind : MarkerKind) :
    (last? attributes kind).isSome = true ↔ Among attributes kind := by
  simp [last?, Among]

/-- Attributes that are no markers of the kind do not count. -/
theorem last?_filter {p : Attribute → Bool} {kind : MarkerKind}
    (hkept : ∀ a, MarkerKind.of? a = some kind → p a = true) (attributes : List Attribute) :
    last? (attributes.filter p) kind = last? attributes kind := by
  rw [last?, ← List.filter_reverse, List.find?_filter]
  congr 1
  funext a
  cases hkind : MarkerKind.of? a == some kind with
  | false => simp
  | true => simp [hkept a (beq_iff_eq.1 hkind)]

end ContentLoom.Markers

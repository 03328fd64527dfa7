import ContentLoom.Proofs.Dictionaries
import ContentLoom.Proofs.FlattenedProperties

/-!
# Properties of resolved classes

What holds of every property in the result of a resolution, compared with the
declaration that the chain of its class settles on.  No path through overrides
and the table of types forgets the type of a copied property, the question mark
of a converted one or the arguments of a converter.
-/

namespace ContentLoom

theorem TypeRef.text_eq_append (t : TypeRef) :
    t.text = t.withoutNullable.text ++ if t.nullable then "?" else "" := by
  obtain ⟨name, arguments, nullable⟩ := t
  cases nullable <;> simp [text, withoutNullable, chars, String.ofList_append, String.append_assoc]

theorem Property.isNullable_iff (q : Property) :
    q.isNullable = true ↔ q.nullable = true ∨ q.type.nullable = true := by
  rw [isNullable, Bool.or_eq_true]

namespace Classifier

/-- What a property in a class owes to its declaration. -/
structure Mapped (g : Graph) (q : Property) (p : ContentProperty) : Prop where
  name : p.name = q.name
  /-- A copied property is exposed under its type without a question mark at the end. -/
  copied : p.conversion = .copy →
    q.type.text = p.exposed.name ++ (if q.type.nullable then "?" else "") ∧ p.config = none
  nullable : (∀ type, p.conversion ≠ .custom type) →
    (p.exposed.nullable = true ↔ q.nullable = true ∨ q.type.nullable = true)
  /-- Arguments are those of the override that counts, and only custom converters have any. -/
  configured : ∀ config, p.config = some config →
    (∃ type, p.conversion = .custom type) ∧ config.names ≠ [] ∧
      ∃ a, Markers.LastAmong q.attributes .converterOverride a ∧
        ∀ name, name ∈ config.names ↔ name ∈ a.named.names
  enumeration : ∀ type, p.conversion = .enumeration type →
    ∃ d ∈ g.types, d.kind = .enumType ∧ d.fullName = type

theorem Entry.mapped {g : Graph} {q : Property} {p : ContentProperty} (h : Entry g q p) :
    Mapped g q p where
  name := h.name
  copied hcopy := by
    cases h with
    | copied => exact ⟨q.type.text_eq_append, rfl⟩
    | known | enumeration => cases hcopy
  nullable _ := by
    cases h <;> exact q.isNullable_iff
  configured config hconfig := by
    cases h <;> cases hconfig
  enumeration type htype := by
    cases h with
    | copied | known => cases htype
    | enumeration declared kind =>
      cases htype
      exact ⟨_, declared, kind, rfl⟩

theorem names_configOf {a : Attribute} {config : ConverterConfig} (h : configOf a = some config) :
    config.names ≠ [] ∧ ∀ name, name ∈ config.names ↔ name ∈ a.named.names := by
  unfold configOf at h
  split at h
  · cases h
  · next hsome =>
    have hconfig : config = Dictionary.ofEntries
        (a.named.map fun entry => (entry.1, Attribute.argumentText entry.2)) :=
      (Option.some.inj h).symm
    have hnames (name : String) : name ∈ config.names ↔ name ∈ a.named.names := by
      rw [hconfig, Dictionary.mem_names_ofEntries, Entries.names, List.map_map]
      rfl
    refine ⟨fun hnil => ?_, hnames⟩
    obtain ⟨first, rest, hnamed⟩ := List.exists_cons_of_ne_nil (mt List.isEmpty_iff.2 hsome)
    have hfirst : first.1 ∈ a.named.names := by
      rw [hnamed]
      exact List.mem_cons_self ..
    rw [← hnames, hnil] at hfirst
    cases hfirst

theorem Followed.mapped {g : Graph} {q : Property} {p : ContentProperty}
    (h : Followed g q.name (Markers.read q.attributes) p) : Mapped g q p where
  name := h.name
  copied hcopy := by
    obtain ⟨type, htype⟩ := h.custom
    rw [htype] at hcopy
    cases hcopy
  nullable hnot := by
    obtain ⟨type, htype⟩ := h.custom
    exact absurd htype (hnot type)
  configured config hconfig := by
    rw [h.config] at hconfig
    obtain ⟨a, ha, hconfig⟩ := Option.bind_eq_some_iff.1 hconfig
    obtain ⟨hsome, hnames⟩ := names_configOf hconfig
    exact ⟨h.custom, hsome, a, (Markers.last?_eq_some_iff_lastAmong ..).1 ha, hnames⟩
  enumeration type htype := by
    obtain ⟨other, hother⟩ := h.custom
    rw [hother] at htype
    cases htype

theorem Classified.mapped {g : Graph} {owner : String} {q : Property}
    {mapped : Option ContentProperty} {report : Option Diagnostic}
    (h : Classified g owner q mapped report) {p : ContentProperty} (hp : mapped = some p) :
    Mapped g q p := by
  cases h with
  | ignored => cases hp
  | followed kept marked followed =>
    cases hp
    exact followed.mapped
  | refused | plain =>
    cases hp
    exact (entry_byType ..).mapped

end Classifier

namespace Resolution

/-- In every class of a resolution the properties have different names, and each is mapped as befits
the last declaration of its name along the chain. -/
theorem resolved_properties_mapped {g : Graph} {w v : Watch} {classes : List ContentClass}
    (hrun : (resolveAll g).run.run w = (.ok classes, v)) {c : ContentClass} (hc : c ∈ classes) :
    (c.properties.map (·.name)).Nodup ∧
      ∃ d ∈ g.types, Alone g d (some c) ∧
        ∀ p ∈ c.properties, ∃ o, lastOf? (declaredProperties g d) p.name = some o ∧
          Classifier.Mapped g o.property p := by
  rw [declaredClasses_of_run hrun] at hc
  refine ⟨nodup_propertyNames hc, ?_⟩
  obtain ⟨d, hd, r, hr, rfl⟩ := exists_origin?_of_mem hc
  have halone := alone_origin? g d
  rw [hr, Option.map_some] at halone
  refine ⟨d, hd, halone, fun p hp => ?_⟩
  rw [properties_of_origin? hr] at hp
  obtain ⟨o, ho, hclassified⟩ := List.mem_filterMap.1 hp
  have hmapped := (Classifier.classified_classify g o.owner o.property).mapped hclassified
  rw [ownedProperties_eq_settled, mem_settled_iff] at ho
  exact ⟨o, by rw [hmapped.name, ho], hmapped⟩

/-- A page with a variant of an enumeration, a list that is copied, and a link. -/
def catalogue : Graph where
  types := [
    ⟨"Color", "Site", .enumType, false, none, [], [], []⟩,
    ⟨"Page", "Site", .classType, false, none, [],
      [⟨"ContentType", [], [], [], []⟩, ⟨"ContentPipelineModel", [], [], [], []⟩],
      [⟨"Tint", ⟨"Color", [], true⟩, false, []⟩,
        ⟨"Tags", ⟨"IList", [.named "string"], true⟩, false, []⟩,
        ⟨"Source", .named "Url", true, []⟩]⟩]

theorem resolved_properties_mapped_catalogue :
    ∃ classes v c, (resolveAll catalogue).run.run (Watch.start false none) = (.ok classes, v) ∧
      c ∈ classes ∧
      c.properties = [.converted "Tint" ⟨"string", true⟩ (.enumeration "Site.Color"),
        .passthrough "Tags" ⟨"IList<string>", true⟩,
        .converted "Source" ⟨"Link", true⟩ (.known .link)] ∧
      (c.properties.map (·.name)).Nodup ∧
      ∃ d ∈ catalogue.types, Alone catalogue d (some c) ∧
        ∀ p ∈ c.properties, ∃ o, lastOf? (declaredProperties catalogue d) p.name = some o ∧
          Classifier.Mapped catalogue o.property p := by
  have hrun := (resolveAll_performs catalogue).of_quiet
  have hproperties : (declaredClasses catalogue).map (·.properties) = [[
      .converted "Tint" ⟨"string", true⟩ (.enumeration "Site.Color"),
      .passthrough "Tags" ⟨"IList<string>", true⟩,
      .converted "Source" ⟨"Link", true⟩ (.known .link)]] := by
    decide +kernel
  obtain ⟨c, hclasses, hc⟩ := List.map_eq_singleton_iff.1 hproperties
  have hmem : c ∈ declaredClasses catalogue := hclasses ▸ List.mem_singleton.2 rfl
  obtain ⟨hnodup, hmapped⟩ := resolved_properties_mapped hrun hmem
  exact ⟨_, _, c, hrun, hmem, hc, hnodup, hmapped⟩

end Resolution

end ContentLoom

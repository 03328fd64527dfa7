import ContentLoom.Proofs.EnclosingScopes
import ContentLoom.Proofs.LastMarkers
import ContentLoom.Classifier

/-!
# What becomes of a property

A property is ignored, or an override maps it, or the table of types does.  The
table also maps a property whose override cannot be followed: the override is
reported then, and the property is mapped as if it had none.
-/

namespace ContentLoom

namespace Classifier

/-! ### The table -/

/-- What the table makes of a property: it is copied under its own type, or converted in a known
way, or taken as a variant of a declared enumeration. -/
inductive Entry (g : Graph) (p : Property) : ContentProperty → Prop
  | copied : Entry g p (.passthrough p.name ⟨p.type.withoutNullable.text, p.isNullable⟩)
  | known (exposed : String) (converter : KnownConverter) :
    Entry g p (.converted p.name ⟨exposed, p.isNullable⟩ (.known converter))
  | enumeration {d} (declared : d ∈ g.types) (kind : d.kind = .enumType) :
    Entry g p (.converted p.name ⟨"string", p.isNullable⟩ (.enumeration d.fullName))

theorem entry_byDeclaration (g : Graph) (owner : String) (p : Property) :
    Entry g p (byDeclaration g owner p) := by
  unfold byDeclaration
  simp only
  split
  · next d hfound =>
    split
    · next hkind => exact .enumeration (Graph.mem_of_resolveIn? hfound) hkind
    · split
      · exact .known ..
      · exact .copied
  · split
    · exact .known ..
    · exact .copied

theorem entry_byType (g : Graph) (owner : String) (p : Property) (hint : Option String) :
    Entry g p (byType g owner p hint) := by
  unfold byType
  split
  · exact .copied
  · split
    · exact .known ..
    · exact entry_byDeclaration g owner p

theorem Entry.name {g : Graph} {p : Property} {c : ContentProperty} (h : Entry g p c) :
    c.name = p.name := by
  cases h <;> rfl

theorem Entry.not_custom {g : Graph} {p : Property} {c : ContentProperty} (h : Entry g p c)
    (type : String) : c.conversion ≠ .custom type := by
  cases h <;> exact Conversion.noConfusion

/-! ### Overrides -/

/-- What an override that can be followed makes of a property. -/
structure Followed (g : Graph) (name : String) (m : Markers) (c : ContentProperty) : Prop where
  name : c.name = name
  custom : ∃ type, c.conversion = .custom type
  config : c.config = m.converterOverride.bind configOf

theorem followed_byOverride {g : Graph} {name : String} {m : Markers} {c : ContentProperty}
    (h : byOverride g name m = .ok c) : Followed g name m c := by
  unfold byOverride at h
  split at h
  · cases h
  · split at h
    · cases h
    · split at h <;> cases h
      exact ⟨rfl, ⟨_, rfl⟩, rfl⟩

/-! ### One property -/

/-- What a property can become, and what is reported about it. -/
inductive Classified (g : Graph) (owner : String) (p : Property) :
    Option ContentProperty → Option Diagnostic → Prop
  | ignored (ignored : Markers.Among p.attributes .ignore) : Classified g owner p none none
  | followed {c} (kept : ¬Markers.Among p.attributes .ignore)
    (marked : Markers.Among p.attributes .converterOverride)
    (mapped : Followed g p.name (Markers.read p.attributes) c) : Classified g owner p (some c) none
  | refused (message : String) (kept : ¬Markers.Among p.attributes .ignore)
    (marked : Markers.Among p.attributes .converterOverride) :
    Classified g owner p (some (byType g owner p (Markers.read p.attributes).hint?))
      (some (.of .malformedConverterOverride ⟨owner, some p.name⟩ message))
  | plain (kept : ¬Markers.Among p.attributes .ignore)
    (unmarked : ¬Markers.Among p.attributes .converterOverride) :
    Classified g owner p (some (byType g owner p (Markers.read p.attributes).hint?)) none

theorem classified_classify (g : Graph) (owner : String) (p : Property) :
    Classified g owner p (classify g owner p).1 (classify g owner p).2 := by
  have hignored : (Markers.read p.attributes).isIgnored = true ↔
      Markers.Among p.attributes .ignore := Markers.isSome_last?_iff ..
  have hmarked : (Markers.read p.attributes).converterOverride.isSome = true ↔
      Markers.Among p.attributes .converterOverride := Markers.isSome_last?_iff ..
  unfold classify
  simp only [hignored, hmarked]
  split
  · next h => exact .ignored h
  · next hkept =>
    split
    · next h =>
      split
      · next c hc => exact .followed hkept h (followed_byOverride hc)
      · exact .refused _ hkept h
    · next h => exact .plain hkept h

namespace Classified

variable {g : Graph} {owner : String} {p : Property} {mapped : Option ContentProperty}
  {report : Option Diagnostic}

theorem eq_none_iff (h : Classified g owner p mapped report) :
    mapped = none ↔ Markers.Among p.attributes .ignore := by
  cases h with
  | ignored ignored => simp [ignored]
  | followed kept | refused _ kept | plain kept => simp [kept]

theorem name (h : Classified g owner p mapped report) {c : ContentProperty}
    (hc : mapped = some c) : c.name = p.name := by
  cases h with
  | ignored => cases hc
  | followed kept marked followed =>
    cases hc
    exact followed.name
  | refused | plain =>
    cases hc
    exact (entry_byType ..).name

/-- The only report is about an override that is not followed, at the property itself. -/
theorem report_of_some (h : Classified g owner p mapped report) {r : Diagnostic}
    (hr : report = some r) : r.code = .malformedConverterOverride ∧ r.severity = .warning ∧
      r.location = ⟨owner, some p.name⟩ := by
  cases h with
  | refused =>
    cases hr
    exact ⟨rfl, rfl, rfl⟩
  | ignored | followed | plain => cases hr

/-- There is a report exactly where an override does not decide how a property is mapped that is not
ignored. -/
theorem isSome_report_iff (h : Classified g owner p mapped report) :
    report.isSome = true ↔ ¬Markers.Among p.attributes .ignore ∧
      Markers.Among p.attributes .converterOverride ∧
      ∀ c type, mapped = some c → c.conversion ≠ .custom type := by
  cases h with
  | ignored ignored => simp [ignored]
  | followed kept marked followed =>
    obtain ⟨type, htype⟩ := followed.custom
    simp [htype]
  | refused _ kept marked =>
    simp only [Option.isSome_some, true_iff]
    refine ⟨kept, marked, fun c type hc => ?_⟩
    cases hc
    exact (entry_byType ..).not_custom type
  | plain kept unmarked => simp [unmarked]

end Classified

theorem name_classify {g : Graph} {owner : String} {p : Property} {c : ContentProperty}
    (h : (classify g owner p).1 = some c) : c.name = p.name :=
  (classified_classify g owner p).name h

/-! ### Without overrides -/

/-- The property without the attributes that are overrides. -/
def withoutOverrides (p : Property) : Property where
  name := p.name
  type := p.type
  nullable := p.nullable
  attributes := p.attributes.filter fun a => MarkerKind.of? a ≠ some .converterOverride

theorem classify_withoutOverrides (g : Graph) (owner : String) {p : Property}
    (hkept : ¬Markers.Among p.attributes .ignore) :
    classify g owner (withoutOverrides p) =
      (some (byType g owner p (Markers.read p.attributes).hint?), none) := by
  have hother {kind : MarkerKind} (hkind : kind ≠ .converterOverride) :
      Markers.last? (withoutOverrides p).attributes kind = Markers.last? p.attributes kind := by
    refine Markers.last?_filter (fun a ha => ?_) p.attributes
    simp [ha, hkind]
  have hignore : (Markers.read (withoutOverrides p).attributes).isIgnored = false := by
    rw [← Bool.not_eq_true, Markers.isIgnored, Markers.read, hother MarkerKind.noConfusion,
      Markers.isSome_last?_iff]
    exact hkept
  have hoverride : (Markers.read (withoutOverrides p).attributes).converterOverride = none := by
    rw [Markers.read, ← Option.not_isSome_iff_eq_none, Markers.isSome_last?_iff]
    rintro ⟨a, ha, hkind⟩
    simp [withoutOverrides, hkind] at ha
  have hhint : (Markers.read (withoutOverrides p).attributes).hint? =
      (Markers.read p.attributes).hint? := by
    have hmarker : (Markers.read (withoutOverrides p).attributes).uiHint =
        (Markers.read p.attributes).uiHint := hother MarkerKind.noConfusion
    rw [Markers.hint?, Markers.hint?, hmarker]
  unfold classify
  simp only [hignore, hoverride, hhint]
  rfl

/-- A property is left out where a marker says so, and then nothing is reported.  At most one report
is made of any other, a warning at the property: where an override decides nothing though there is
one.  The property is then mapped as without its overrides, and of this nothing is reported. -/
theorem classify_refused_iff (g : Graph) (owner : String) (p : Property) :
    ((classify g owner p).1 = none ↔ Markers.Among p.attributes .ignore) ∧
      (Markers.Among p.attributes .ignore → (classify g owner p).2 = none) ∧
      (∀ r, (classify g owner p).2 = some r → r.code = .malformedConverterOverride ∧
        r.severity = .warning ∧ r.location = ⟨owner, some p.name⟩) ∧
      ((classify g owner p).2.isSome = true ↔ ¬Markers.Among p.attributes .ignore ∧
        Markers.Among p.attributes .converterOverride ∧
        ∀ c type, (classify g owner p).1 = some c → c.conversion ≠ .custom type) ∧
      ((classify g owner p).2.isSome = true →
        classify g owner (withoutOverrides p) = ((classify g owner p).1, none)) := by
  have hclassified := classified_classify g owner p
  refine ⟨hclassified.eq_none_iff, fun hignored => ?_, fun r => hclassified.report_of_some,
    hclassified.isSome_report_iff, fun hreported => ?_⟩
  · rw [← Option.not_isSome_iff_eq_none, hclassified.isSome_report_iff]
    exact fun h => h.1 hignored
  · have hkept := (hclassified.isSome_report_iff.1 hreported).1
    rw [classify_withoutOverrides g owner hkept]
    generalize (classify g owner p).1 = mapped at hclassified
    generalize (classify g owner p).2 = report at hclassified hreported
    cases hclassified with
    | refused => rfl
    | ignored | followed | plain => cases hreported

/-- A picture with two overrides.  The first could be followed; the second, which counts, names a
type that is not declared. -/
def cropped : Property where
  name := "Picture"
  type := .named "ContentReference"
  nullable := true
  attributes := [
    ⟨"ContentPipelinePropertyConverter", [.named "Resizing"], [], [], []⟩,
    ⟨"UIHint", [], [.str "Block"], [], []⟩,
    ⟨"Cropping", [], [], [("Width", .int 3)],
      [⟨"IContentPipelinePropertyConverterAttribute", [.named "Clipping"], false⟩]⟩]

/-- The graph with the type that the first override names. -/
def workshop : Graph where
  types := [⟨"Resizing", "Site", .classType, false, none,
    [⟨"IContentPropertyConverter", [.named "int", .named "string"], false⟩], [], []⟩]

theorem classify_refused_iff_cropped :
    ¬Markers.Among cropped.attributes .ignore ∧
      Markers.Among cropped.attributes .converterOverride ∧
      classify workshop "Site.Page" cropped =
        (some (.converted "Picture" ⟨"IContentPipelineModel", true⟩ (.known .block)),
          some ⟨.malformedConverterOverride, .warning,
            (OverrideFault.undeclared (.named "Clipping")).message,
            ⟨"Site.Page", some "Picture"⟩⟩) ∧
      classify workshop "Site.Page" (withoutOverrides cropped) =
        (some (.converted "Picture" ⟨"IContentPipelineModel", true⟩ (.known .block)), none) := by
  have hclassified : classify workshop "Site.Page" cropped =
      (some (.converted "Picture" ⟨"IContentPipelineModel", true⟩ (.known .block)),
        some ⟨.malformedConverterOverride, .warning,
          (OverrideFault.undeclared (.named "Clipping")).message,
          ⟨"Site.Page", some "Picture"⟩⟩) := by
    decide +kernel
  obtain ⟨-, -, -, hreported, hfallback⟩ := classify_refused_iff workshop "Site.Page" cropped
  have hsome : (classify workshop "Site.Page" cropped).2.isSome = true := by rw [hclassified]; rfl
  obtain ⟨hkept, hmarked, -⟩ := hreported.1 hsome
  have hplain := hfallback hsome
  rw [hclassified] at hplain
  exact ⟨hkept, hmarked, hclassified, hplain⟩

end Classifier

end ContentLoom

import ContentLoom.Classifier
import ContentLoom.Proofs.NestedRuns
import ContentLoom.Proofs.StepResults

/-!
# Values of exposed types

The table of types exposes a property under a type and names the conversion of
its values, and the standard registry has a converter for each conversion.  The
two agree: what the converter gives has the shape of the exposed type, whatever
the raw value, the site and the nested runs are.
-/

namespace ContentLoom

namespace Classifier

/-! ### Rows of the table -/

/-- No override decides how the property is mapped. -/
def Tabled (g : Graph) (p : Property) : Prop :=
  let m := Markers.read p.attributes
  m.converterOverride.isSome → ∀ mapped, byOverride g p.name m ≠ .ok mapped

/-- The exposed types of the table, each with a conversion.  A property that is copied is exposed
under its own type. -/
inductive Row : String → Conversion → Prop where
  | media : Row "Media" (.known .media)
  | block : Row "IContentPipelineModel" (.known .block)
  | reference : Row "Link" (.known .contentReference)
  | area : Row "ContentAreaPipelineModel" (.known .contentArea)
  | richText : Row "string" (.known .xhtmlString)
  | link : Row "Link" (.known .link)
  | variant (type : String) : Row "string" (.enumeration type)
  | embedded : Row "IContentPipelineModel" (.known .embeddedBlock)
  | copied (written : String) : Row written .copy

theorem Row.exposed_of_richText {exposed : String} {k : Conversion} (h : Row exposed k)
    (hk : k = .known .xhtmlString) : exposed = "string" := by
  cases h with
  | richText => rfl
  | _ => cases hk

theorem row_of_knownType? {simple : String} {hint : Option String} {exposed : String}
    {converter : KnownConverter} (h : knownType? simple hint = some (exposed, converter)) :
    Row exposed (.known converter) := by
  unfold knownType? at h
  split at h
  · -- the type of references is the only one whose row depends on the hint
    split at h
    · cases h
      exact .media
    · split at h
      · cases h
        exact .block
      · cases h
        exact .reference
  · cases h
    exact .reference
  · cases h
    exact .area
  · cases h
    exact .richText
  · cases h
    exact .link
  · cases h

theorem row_byDeclaration (g : Graph) (owner : String) (p : Property) :
    Row (byDeclaration g owner p).exposed.name (byDeclaration g owner p).conversion := by
  unfold byDeclaration
  simp only
  split
  · split
    · exact .variant _
    · split
      · exact .embedded
      · exact .copied _
  · split
    · exact .embedded
    · exact .copied _

theorem row_byType (g : Graph) (owner : String) (p : Property) (hint : Option String) :
    Row (byType g owner p hint).exposed.name (byType g owner p hint).conversion := by
  unfold byType
  split
  · exact .copied _
  · split
    · rename_i exposed converter hknown
      exact row_of_knownType? hknown
    · exact row_byDeclaration g owner p

theorem classify_of_tabled {g : Graph} {p : Property} (h : Tabled g p) (owner : String) :
    (classify g owner p).1 =
      if (Markers.read p.attributes).isIgnored then none
      else some (byType g owner p (Markers.read p.attributes).hint?) := by
  unfold Tabled at h
  unfold classify
  simp only at h ⊢
  split
  · rfl
  · split
    · rename_i hoverride
      split
      · rename_i mapped hmapped
        exact absurd hmapped (h hoverride mapped)
      · rfl
    · rfl

theorem row_of_classify {g : Graph} {owner : String} {p : Property} {c : ContentProperty}
    (htabled : Tabled g p) (hmapped : (classify g owner p).1 = some c) :
    Row c.exposed.name c.conversion := by
  rw [classify_of_tabled htabled] at hmapped
  split at hmapped
  · cases hmapped
  · cases hmapped
    exact row_byType ..

end Classifier

namespace Pipeline

open Classifier

variable {σ : Type}

/-! ### Shapes -/

/-- The values that a property can have under its exposed type.  A text is missing only where it is
to be the name of a variant. -/
inductive HasShape : String → Conversion → ModelValue → Prop where
  | media (k : Conversion) (asset : Media) : HasShape "Media" k (.media asset)
  | link (k : Conversion) (address : Option String) : HasShape "Link" k (.link address)
  | area (k : Conversion) (entries : List AreaModel) :
    HasShape "ContentAreaPipelineModel" k (.area entries)
  | noArea (k : Conversion) : HasShape "ContentAreaPipelineModel" k .null
  | model (k : Conversion) (m : PipelineModel) : HasShape "IContentPipelineModel" k (.model m)
  | noModel (k : Conversion) : HasShape "IContentPipelineModel" k .null
  | text (k : Conversion) (s : String) : HasShape "string" k (.text s)
  | noVariant (type : String) : HasShape "string" (.enumeration type) .null

theorem HasShape.isNull_eq_false {exposed : String} {k : Conversion} {v : ModelValue}
    (h : HasShape exposed k v) (hrow : Row exposed k)
    (hfull : exposed = "Media" ∨ exposed = "Link" ∨ k = .known .xhtmlString) :
    v.isNull = false := by
  have htext := hrow.exposed_of_richText
  cases h with
  | media => rfl
  | link => rfl
  | area => rfl
  | model => rfl
  | text => rfl
  | noArea => simp_all
  | noModel => simp_all
  | noVariant => simp at hfull

/-- What null is converted to. -/
def absence : Conversion → ModelValue
  | .known .media => .media .absent
  | .known .contentReference => .link none
  | .known .link => .link none
  | .known .xhtmlString => .text ""
  | _ => .null

/-! ### Converters -/

theorem unexpected_gives {converter : String} {r : Request} {expected : String}
    {found : ContentValue} {P : ModelValue → Prop} :
    Gives (unexpected converter r expected found : Run σ ModelValue) P := by
  intro state v next hrun
  cases hrun

section

variable (site : Site) (context : Context σ) (r : Request) (value : ContentValue)

theorem mediaConverter_gives :
    Gives ((mediaConverter site).convert context r value) (HasShape "Media" (.known .media)) := by
  refine (Gives.anything _).bind fun target _ => ?_
  split
  · exact .of_pure (.media _ _)
  · split
    · exact .of_pure (.media _ _)
    · exact (Gives.anything _).bind fun model _ => .of_pure (.media _ _)

theorem blockConverter_gives :
    Gives ((blockConverter site).convert context r value)
      (HasShape "IContentPipelineModel" (.known .block)) := by
  refine (Gives.anything _).bind fun target _ => ?_
  split
  · exact .of_pure (.noModel _)
  · split
    · exact .of_pure (.noModel _)
    · exact (Gives.anything _).bind fun model _ => .of_pure (.model _ model)

theorem contentReferenceConverter_gives :
    Gives ((contentReferenceConverter site).convert context r value)
      (HasShape "Link" (.known .contentReference)) := by
  refine (Gives.anything _).bind fun target _ => ?_
  split
  · exact .of_pure (.link _ _)
  · exact .of_pure (.link _ _)

theorem embeddedBlockConverter_gives :
    Gives (embeddedBlockConverter.convert context r value)
      (HasShape "IContentPipelineModel" (.known .embeddedBlock)) := by
  cases value with
  | null => exact .of_pure (.noModel _)
  | block item => exact (Gives.anything _).bind fun model _ => .of_pure (.model _ model)
  | _ => exact unexpected_gives

theorem contentAreaConverter_gives :
    Gives ((contentAreaConverter site).convert context r value)
      (HasShape "ContentAreaPipelineModel" (.known .contentArea)) := by
  cases value with
  | null => exact .of_pure (.noArea _)
  | area entries => exact (Gives.anything _).bind fun models _ => .of_pure (.area _ models)
  | _ => exact unexpected_gives

theorem linkConverter_gives :
    Gives ((linkConverter site).convert context r value) (HasShape "Link" (.known .link)) := by
  cases value with
  | null => exact .of_pure (.link _ _)
  | url address => exact .of_pure (.link _ _)
  | text address => exact .of_pure (.link _ _)
  | _ => exact unexpected_gives

theorem xhtmlStringConverter_gives :
    Gives ((xhtmlStringConverter site).convert context r value)
      (HasShape "string" (.known .xhtmlString)) := by
  cases value with
  | null => exact .of_pure (.text _ _)
  | xhtml markup => exact .of_pure (.text _ _)
  | _ => exact unexpected_gives

end

theorem enumConverter_gives (type : String) (context : Context σ) (r : Request)
    (value : ContentValue) :
    Gives (enumConverter.convert context r value) (HasShape "string" (.enumeration type)) := by
  cases value with
  | null => exact .of_pure (.noVariant type)
  | enumeration variant => exact .of_pure (.text _ variant)
  | _ => exact unexpected_gives

/-- What a converter gives for a conversion under an exposed type. -/
structure Serves (converter : Converter σ) (exposed : String) (k : Conversion) : Prop where
  shape : ∀ context r value, Gives (converter.convert context r value) (HasShape exposed k)
  full : exposed = "Media" ∨ exposed = "Link" ∨ k = .known .xhtmlString →
    ∀ context r value, Gives (converter.convert context r value) fun v => v.isNull = false
  absent : ∀ context r, Settles (converter.convert context r .null) (.ok (absence k))

theorem serves_of_gives {converter : Converter σ} {exposed : String} {k : Conversion}
    (hrow : Row exposed k)
    (hshape : ∀ context r value, Gives (converter.convert context r value) (HasShape exposed k))
    (habsent : ∀ context r, converter.convert context r .null = pure (absence k)) :
    Serves converter exposed k where
  shape := hshape
  full hfull context r value := (hshape context r value).imp fun _ h => h.isNull_eq_false hrow hfull
  absent context r := by
    rw [habsent context r]
    exact Settles.pure (absence k)

/-- For each row of the table but a copy the standard registry has a converter that serves it. -/
theorem standard_serves {exposed : String} {k : Conversion} (hrow : Row exposed k) (site : Site)
    (hconverted : k ≠ .copy) :
    ∃ converter : Converter σ, (Registry.standard site).get? k = some converter ∧
      Serves converter exposed k := by
  rw [get?_standard]
  cases hrow with
  | media => exact ⟨_, rfl, serves_of_gives .media (mediaConverter_gives site) fun _ _ => rfl⟩
  | block => exact ⟨_, rfl, serves_of_gives .block (blockConverter_gives site) fun _ _ => rfl⟩
  | reference =>
    exact ⟨_, rfl, serves_of_gives .reference (contentReferenceConverter_gives site) fun _ _ => rfl⟩
  | area => exact ⟨_, rfl, serves_of_gives .area (contentAreaConverter_gives site) fun _ _ => rfl⟩
  | richText =>
    exact ⟨_, rfl, serves_of_gives .richText (xhtmlStringConverter_gives site) fun _ _ => rfl⟩
  | link => exact ⟨_, rfl, serves_of_gives .link (linkConverter_gives site) fun _ _ => rfl⟩
  | variant type =>
    exact ⟨_, rfl, serves_of_gives (.variant type) (enumConverter_gives type) fun _ _ => rfl⟩
  | embedded => exact ⟨_, rfl, serves_of_gives .embedded embeddedBlockConverter_gives fun _ _ => rfl⟩
  | copied => exact absurd rfl hconverted

/-- A property that the table maps is copied, or the standard registry has a converter for it, and
whatever this one makes of a raw value has the shape of the exposed type.  It is never null for
media, links and rich text. -/
theorem classified_serves {g : Graph} {owner : String} {p : Property} {c : ContentProperty}
    (htabled : Tabled g p) (hmapped : (classify g owner p).1 = some c) (site : Site) :
    (c.conversion = .copy ∧ (Registry.standard site : Registry σ).get? c.conversion = none) ∨
      ∃ converter : Converter σ, (Registry.standard site).get? c.conversion = some converter ∧
        Serves converter c.exposed.name c.conversion := by
  have hrow := row_of_classify htabled hmapped
  by_cases hcopy : c.conversion = .copy
  · refine Or.inl ⟨hcopy, ?_⟩
    rw [hcopy]
    rfl
  · exact Or.inr (standard_serves hrow site hcopy)

/-- A picture whose override names a type that is not declared. -/
def pictured : Property where
  name := "Picture"
  type := ⟨"ContentReference", [], true⟩
  nullable := false
  attributes := [⟨"UIHint", [], [.str "IMAGE"], [], []⟩,
    ⟨"ContentPipelinePropertyConverter", [.named "Cropping"], [], [], []⟩]

/-- The graph with the type that has the picture. -/
def album : Graph := ⟨[⟨"Album", "Site", .classType, false, none, [], [], [pictured]⟩]⟩

theorem classified_serves_pictured :
    Tabled album pictured ∧
      (classify album "Site.Album" pictured).1 =
        some (.converted "Picture" ⟨"Media", true⟩ (.known .media)) ∧
      ∃ converter : Converter Unit,
        (Registry.standard circularSite).get? (.known .media) = some converter ∧
          Serves converter "Media" (.known .media) := by
  have htabled : Tabled album pictured := by
    intro _ mapped hmapped
    have hrefused : byOverride album "Picture" (Markers.read pictured.attributes) =
        .error (.undeclared (.named "Cropping")) := by rfl
    have hboth := hrefused.symm.trans hmapped
    cases hboth
  have hmapped : (classify album "Site.Album" pictured).1 =
      some (.converted "Picture" ⟨"Media", true⟩ (.known .media)) := by rfl
  refine ⟨htabled, hmapped, ?_⟩
  rcases classified_serves (σ := Unit) htabled hmapped circularSite with ⟨hcopy, -⟩ | hserves
  · cases hcopy
  · exact hserves

end Pipeline

end ContentLoom

import ContentLoom.Pipeline.Service
import ContentLoom.Proofs.Dictionaries

/-!
# Services with the standard converters

Classes whose properties are copied or converted by known converters and those
of enumerations can always be composed with the standard registry, and what the
service knows of a type is the mapping of its last class.
-/

namespace ContentLoom

namespace Pipeline

variable {σ : Type}

/-! ### Converters -/

/-- The converter that the standard registry has for a conversion. -/
def standardConverter? (site : Site) : Conversion → Option (Converter σ)
  | .known c => some (knownConverter site c)
  | .enumeration _ => some enumConverter
  | _ => none

theorem lookup_filter_ne (converters : List (Conversion × Converter σ)) (id other : Conversion) :
    (converters.filter (·.1 ≠ id)).lookup other =
      if other = id then none else converters.lookup other := by
  induction converters with
  | nil => simp
  | cons e rest ih =>
    obtain ⟨key, converter⟩ := e
    rw [List.filter_cons, List.lookup_cons]
    by_cases hkey : key = id
    · have hdropped : (decide ((key, converter).1 ≠ id)) = false := by simpa using hkey
      rw [hdropped, if_neg Bool.false_ne_true, ih]
      by_cases hother : other = id
      · rw [if_pos hother, if_pos hother]
      · have hne : (other == key) = false := by simpa [hkey] using hother
        rw [if_neg hother, if_neg hother, hne]
    · have hkept : (decide ((key, converter).1 ≠ id)) = true := by simpa using hkey
      rw [hkept, if_pos rfl, List.lookup_cons, ih]
      by_cases hother : other = key
      · simp [hother, hkey]
      · have hne : (other == key) = false := by simpa using hother
        rw [hne]

theorem lookup_register (r : Registry σ) (id other : Conversion) (converter : Converter σ) :
    (r.register id converter).converters.lookup other =
      if other = id then some converter else r.converters.lookup other := by
  unfold Registry.register
  rw [List.lookup_append, lookup_filter_ne]
  by_cases hother : other = id
  · simp [hother]
  · have hne : (other == id) = false := by simpa using hother
    simp [hother, List.lookup_cons, hne]

theorem lookup_registerAll (site : Site) (known : List KnownConverter) (r : Registry σ)
    (id : Conversion) :
    (known.foldl (fun r c => r.register (.known c) (knownConverter site c)) r).converters.lookup
        id =
      match id with
      | .known c =>
        if c ∈ known then some (knownConverter site c) else r.converters.lookup (.known c)
      | other => r.converters.lookup other := by
  induction known generalizing r with
  | nil => cases id <;> simp
  | cons first known ih =>
    rw [List.foldl_cons, ih]
    cases id with
    | known c =>
      simp only [lookup_register, Conversion.known.injEq, List.mem_cons]
      by_cases hfirst : c = first
      · simp [hfirst]
      · simp [hfirst]
    | copy => simp [lookup_register]
    | enumeration type => simp [lookup_register]
    | custom type => simp [lookup_register]

theorem get?_standard (site : Site) (id : Conversion) :
    (Registry.standard site : Registry σ).get? id = standardConverter? site id := by
  have hlookup := lookup_registerAll (σ := σ) site KnownConverter.all .empty id
  cases id with
  | copy => rfl
  | known c =>
    simp only [KnownConverter.mem_all c, if_true] at hlookup
    exact hlookup
  | enumeration type =>
    have hnone : (Registry.standard site : Registry σ).converters.lookup (.enumeration type) =
        none := hlookup
    simp only [Registry.get?, hnone, Option.orElse_none]
    rfl
  | custom type => exact hlookup

/-- The mapping of a property with its standard converter. -/
def standardMapping (site : Site) (p : ContentProperty) : PropertyMapping σ :=
  ⟨p.name, standardConverter? site p.conversion, p.config⟩

/-- The pipeline of a class with nothing but its mapping. -/
def standardPipeline (site : Site) (c : ContentClass) : ClassPipeline σ where
  kind := .ofClass c.discriminant
  steps := [MappingStep.toStep ⟨c.fullName, c.properties.map (standardMapping site)⟩]

/-- No property of the class names a converter of its own. -/
def Standard (c : ContentClass) : Prop :=
  ∀ p ∈ c.properties, ∀ type, p.conversion ≠ .custom type

/-! ### Composition -/

theorem mapping_of_standard (site : Site) (className : String) (p : ContentProperty)
    (h : ∀ type, p.conversion ≠ .custom type) :
    PropertyMapping.of (Registry.standard site : Registry σ) className p =
      .ok (standardMapping site p) := by
  unfold PropertyMapping.of standardMapping
  rw [get?_standard]
  cases hconversion : p.conversion with
  | copy => rfl
  | known c => rfl
  | enumeration type => rfl
  | custom type => exact absurd hconversion (h type)

theorem mapM_ok {α β ε : Type} {f : α → Except ε β} {k : α → β} {xs : List α}
    (h : ∀ x ∈ xs, f x = .ok (k x)) : xs.mapM f = .ok (xs.map k) := by
  induction xs with
  | nil => rfl
  | cons x xs ih =>
    rw [List.mapM_cons, h x (List.mem_cons_self ..),
      ih fun y hy => h y (List.mem_cons_of_mem _ hy)]
    rfl

theorem mappingStep_of_standard (site : Site) {c : ContentClass} (h : Standard c) :
    MappingStep.of (Registry.standard site : Registry σ) c =
      .ok ⟨c.fullName, c.properties.map (standardMapping site)⟩ := by
  have hmappings : c.properties.mapM
      (PropertyMapping.of (Registry.standard site : Registry σ) c.fullName) =
        .ok (c.properties.map (standardMapping site)) :=
    mapM_ok fun p hp => mapping_of_standard site c.fullName p (h p hp)
  unfold MappingStep.of
  rw [hmappings]
  rfl

/-- The class whose mapping a type has: of several with its name the last. -/
def classFor? (classes : List ContentClass) (type : String) : Option ContentClass :=
  classes.reverse.find? (·.fullName == type)

theorem classFor?_eq_none_iff {classes : List ContentClass} {type : String} :
    classFor? classes type = none ↔ ∀ c ∈ classes, c.fullName ≠ type := by
  simp [classFor?]

theorem mem_of_classFor? {classes : List ContentClass} {type : String} {c : ContentClass}
    (h : classFor? classes type = some c) : c ∈ classes ∧ c.fullName = type := by
  have hnamed := List.find?_some h
  exact ⟨List.mem_reverse.1 (List.mem_of_find?_eq_some h), by simpa using hnamed⟩

theorem classFor?_cons (c : ContentClass) (classes : List ContentClass) (type : String) :
    classFor? (c :: classes) type =
      (classFor? classes type).or (if type = c.fullName then some c else none) := by
  unfold classFor?
  rw [List.reverse_cons, List.find?_append, List.find?_singleton]
  by_cases htype : type = c.fullName
  · simp [htype]
  · simp [htype, Ne.symm htype]

theorem classPipelines_of_standard (site : Site) {classes : List ContentClass}
    (h : ∀ c ∈ classes, Standard c) (known : Dictionary (ClassPipeline σ)) :
    ∃ pipelines, Composition.classPipelines (Registry.standard site) known classes =
        .ok pipelines ∧
      ∀ type, pipelines.get? type =
        ((classFor? classes type).map (standardPipeline site)).or (known.get? type) := by
  induction classes generalizing known with
  | nil => exact ⟨known, rfl, fun type => rfl⟩
  | cons c classes ih =>
    have hstep := mappingStep_of_standard (σ := σ) site (h c (List.mem_cons_self ..))
    obtain ⟨pipelines, hbuilt, hget⟩ := ih (fun d hd => h d (List.mem_cons_of_mem _ hd))
      (known.insert c.fullName (standardPipeline site c))
    refine ⟨pipelines, ?_, fun type => ?_⟩
    · rw [Composition.classPipelines, hstep]
      exact hbuilt
    · have hinsert : (known.insert c.fullName (standardPipeline site c)).get? type =
          if type = c.fullName then some (standardPipeline site c) else known.get? type :=
        Entries.get?_insert ..
      rw [hget type, classFor?_cons, hinsert]
      cases classFor? classes type with
      | some d => rfl
      | none =>
        by_cases htype : type = c.fullName
        · simp [htype]
        · simp [htype]

theorem inOrder_standard (site : Site) (c : ContentClass) :
    Composition.inOrder (standardPipeline site c : ClassPipeline σ) = standardPipeline site c := by
  unfold Composition.inOrder standardPipeline Step.inOrder
  simp only [List.mergeSort_singleton]

/-- The composition with the standard registry and without further steps. -/
def standardComposition (classes : List ContentClass) (site : Site) (maxDepth : Nat) :
    Composition σ := ⟨classes, .standard site, [], [], maxDepth⟩

/-- The service has the mappings of some classes and no other steps. -/
structure Maps (s : Service σ) (classes : List ContentClass) (site : Site) : Prop where
  shared : s.shared = []
  pipelines : ∀ type, s.pipelines.get? type =
    (classFor? classes type).map (standardPipeline site)

theorem build_of_standard {classes : List ContentClass} (h : ∀ c ∈ classes, Standard c)
    (site : Site) (maxDepth : Nat) :
    ∃ service : Service σ, (standardComposition classes site maxDepth).build = .ok service ∧
      service.maxDepth = maxDepth ∧ Maps service classes site := by
  obtain ⟨pipelines, hbuilt, hget⟩ := classPipelines_of_standard (σ := σ) site h .empty
  refine ⟨⟨pipelines.map Composition.inOrder, Step.inOrder [], maxDepth⟩, ?_, rfl, ?_, ?_⟩
  · unfold Composition.build standardComposition
    simp only
    rw [hbuilt]
    rfl
  · exact List.mergeSort_nil
  · intro type
    have hmap : (pipelines.map Composition.inOrder).get? type =
        (pipelines.get? type).map Composition.inOrder := Entries.get?_map ..
    have hempty : (Dictionary.empty : Dictionary (ClassPipeline σ)).get? type = none := rfl
    rw [hmap, hget type, hempty, Option.or_none, Option.map_map]
    congr 1
    funext c
    exact inOrder_standard site c

end Pipeline

end ContentLoom

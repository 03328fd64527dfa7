import ContentLoom.Proofs.StepOrder

/-!
# How composing ends

A service is composed from any classes, any registry and any further steps.  It
fails for the first property that no converter can be found for, and only where
there is none for the first step whose type no class has.  Otherwise there is a
service, which maps each property with the converter that was registered last
for its conversion, or with the one that the registry began with.
-/

namespace ContentLoom.Pipeline

variable {σ : Type}

/-! ### The first of a list -/

/-- The element is the first of the list with a property. -/
def FirstWith {α : Type} (P : α → Prop) (xs : List α) (x : α) : Prop :=
  ∃ front back, xs = front ++ x :: back ∧ P x ∧ ∀ y ∈ front, ¬P y

namespace FirstWith

variable {α β : Type} {P : α → Prop} {xs ys : List α} {x : α}

theorem head (h : P x) (xs : List α) : FirstWith P (x :: xs) x :=
  ⟨[], xs, rfl, h, nofun⟩

theorem mem (h : FirstWith P xs x) : x ∈ xs := by
  obtain ⟨front, back, rfl, -, -⟩ := h
  exact List.mem_append_right _ (List.mem_cons_self ..)

theorem holds (h : FirstWith P xs x) : P x := by
  obtain ⟨-, -, -, hx, -⟩ := h
  exact hx

theorem append_right (h : FirstWith P xs x) (ys : List α) : FirstWith P (xs ++ ys) x := by
  obtain ⟨front, back, rfl, hx, hfront⟩ := h
  exact ⟨front, back ++ ys, List.append_assoc .., hx, hfront⟩

theorem append_left (hxs : ∀ y ∈ xs, ¬P y) (h : FirstWith P ys x) : FirstWith P (xs ++ ys) x := by
  obtain ⟨front, back, rfl, hx, hfront⟩ := h
  refine ⟨xs ++ front, back, by simp, hx, fun y hy => ?_⟩
  rcases List.mem_append.1 hy with hy | hy
  · exact hxs y hy
  · exact hfront y hy

theorem map {Q : β → Prop} {f : α → β} (hPQ : ∀ y, P y ↔ Q (f y)) (h : FirstWith P xs x) :
    FirstWith Q (xs.map f) (f x) := by
  obtain ⟨front, back, rfl, hx, hfront⟩ := h
  refine ⟨front.map f, back.map f, by simp, (hPQ x).1 hx, fun y hy => ?_⟩
  obtain ⟨z, hz, rfl⟩ := List.mem_map.1 hy
  exact fun hQ => hfront z hz ((hPQ z).2 hQ)

theorem congr {Q : α → Prop} (hPQ : ∀ y, P y ↔ Q y) (h : FirstWith P xs x) :
    FirstWith Q xs x := by
  obtain ⟨front, back, hxs, hx, hfront⟩ := h
  exact ⟨front, back, hxs, (hPQ x).1 hx, fun y hy => mt (hPQ y).2 (hfront y hy)⟩

end FirstWith

/-- A list is gone through up to the first element with a fault, or to its end. -/
theorem mapM_ends {α β ε : Type} {f : α → Except ε β} {P : α → Prop} {R : α → β → Prop}
    {fault : α → ε} (hbad : ∀ x, P x → f x = .error (fault x))
    (hgood : ∀ x, ¬P x → ∃ y, f x = .ok y ∧ R x y) (xs : List α) :
    (∃ ys, xs.mapM f = .ok ys ∧ List.Forall₂ R xs ys ∧ ∀ x ∈ xs, ¬P x) ∨
      ∃ x, FirstWith P xs x ∧ xs.mapM f = .error (fault x) := by
  induction xs with
  | nil => exact Or.inl ⟨[], rfl, .nil, nofun⟩
  | cons x xs ih =>
    rw [List.mapM_cons]
    by_cases hx : P x
    · rw [hbad x hx]
      exact Or.inr ⟨x, .head hx xs, rfl⟩
    · obtain ⟨y, hy, hxy⟩ := hgood x hx
      rw [hy]
      rcases ih with ⟨ys, hys, hall, hnone⟩ | ⟨z, hfirst, hfails⟩
      · rw [hys]
        exact Or.inl ⟨y :: ys, rfl, .cons hxy hall, List.forall_mem_cons.2 ⟨hx, hnone⟩⟩
      · rw [hfails]
        have hfront : ∀ w ∈ [x], ¬P w := List.forall_mem_singleton.2 hx
        exact Or.inr ⟨z, hfirst.append_left hfront, rfl⟩

/-! ### Registries -/

/-- What a registry holds before anything is registered. -/
inductive Origin where
  | bare
  | standard (site : Site)

/-- The registry that holds nothing else. -/
def Origin.registry : Origin → Registry σ
  | bare => .empty
  | standard site => .standard site

/-- The registry after some registrations. -/
def registryAfter (o : Origin) (registered : List (Conversion × Converter σ)) : Registry σ :=
  registered.foldl (fun r e => r.register e.1 e.2) o.registry

/-- The converter that was registered last for a conversion. -/
def lastRegistered? (registered : List (Conversion × Converter σ)) (k : Conversion) :
    Option (Converter σ) := registered.reverse.lookup k

/-- There is a converter for a conversion: it was registered, or the registry began with it, or
with the one that all enumerations share. -/
inductive Provided (registered : List (Conversion × Converter σ)) : Origin → Conversion → Prop
  | registered {o k} (h : k ∈ registered.map Prod.fst) : Provided registered o k
  | known (site : Site) (c : KnownConverter) : Provided registered (.standard site) (.known c)
  | shared (site : Site) (type : String) :
      Provided registered (.standard site) (.enumeration type)

/-- A property cannot be mapped: it is not copied, and there is no converter for it. -/
def Unserved (registered : List (Conversion × Converter σ)) (o : Origin) (k : Conversion) : Prop :=
  k ≠ .copy ∧ ¬Provided registered o k

theorem lastRegistered?_cons (e : Conversion × Converter σ)
    (registered : List (Conversion × Converter σ)) (k : Conversion) :
    lastRegistered? (e :: registered) k =
      (lastRegistered? registered k).or (if k = e.1 then some e.2 else none) := by
  obtain ⟨id, converter⟩ := e
  unfold lastRegistered?
  rw [List.reverse_cons, List.lookup_append]
  by_cases hk : k = id
  · simp [hk]
  · have hne : (k == id) = false := beq_eq_false_iff_ne.2 hk
    simp [hk, List.lookup_cons, hne]

theorem lastRegistered?_isSome_iff (registered : List (Conversion × Converter σ))
    (k : Conversion) :
    (lastRegistered? registered k).isSome = true ↔ k ∈ registered.map Prod.fst := by
  induction registered with
  | nil => simp [lastRegistered?]
  | cons e registered ih =>
    rw [lastRegistered?_cons, Option.isSome_or, Bool.or_eq_true, ih, List.map_cons, List.mem_cons,
      or_comm]
    by_cases hk : k = e.1 <;> simp [hk]

theorem foldl_register (registered : List (Conversion × Converter σ)) (r : Registry σ)
    (k : Conversion) :
    (registered.foldl (fun r e => r.register e.1 e.2) r).converters.lookup k =
        (lastRegistered? registered k).or (r.converters.lookup k) ∧
      (registered.foldl (fun r e => r.register e.1 e.2) r).sharedEnum = r.sharedEnum := by
  induction registered generalizing r with
  | nil => exact ⟨rfl, rfl⟩
  | cons e registered ih =>
    obtain ⟨hlookup, hshared⟩ := ih (r.register e.1 e.2)
    refine ⟨?_, hshared⟩
    rw [List.foldl_cons, hlookup, lookup_register, lastRegistered?_cons, Option.or_assoc]
    by_cases hk : k = e.1 <;> simp [hk]

/-- What is registered comes before what the registry began with; nothing is found for a copy. -/
theorem get?_registryAfter (o : Origin) (registered : List (Conversion × Converter σ))
    (k : Conversion) :
    (registryAfter o registered).get? k =
      if k = .copy then none else (lastRegistered? registered k).or (o.registry.get? k) := by
  obtain ⟨hlookup, hshared⟩ := foldl_register registered o.registry k
  cases k with
  | copy => rfl
  | enumeration type =>
    have hget : (registryAfter o registered).get? (.enumeration type) =
        ((registryAfter o registered).converters.lookup (.enumeration type)).or
          (registryAfter o registered).sharedEnum := by
      unfold Registry.get?
      cases (registryAfter o registered).converters.lookup (.enumeration type) <;> rfl
    have horigin : (o.registry : Registry σ).get? (.enumeration type) =
        (o.registry.converters.lookup (.enumeration type)).or o.registry.sharedEnum := by
      unfold Registry.get?
      cases (o.registry : Registry σ).converters.lookup (.enumeration type) <;> rfl
    rw [hget, horigin, if_neg (by simp)]
    unfold registryAfter
    rw [hlookup, hshared, Option.or_assoc]
  | known c =>
    rw [if_neg (by simp)]
    exact hlookup
  | custom type =>
    rw [if_neg (by simp)]
    exact hlookup

/-- The converter that a registry begins with. -/
theorem get?_origin (o : Origin) (k : Conversion) :
    (o.registry : Registry σ).get? k =
      match o with
      | .bare => none
      | .standard site => standardConverter? site k := by
  cases o with
  | bare => cases k <;> rfl
  | standard site => exact get?_standard site k

theorem unserved_iff (o : Origin) (registered : List (Conversion × Converter σ))
    (k : Conversion) :
    Unserved registered o k ↔
      k ≠ .copy ∧ (registryAfter o registered).get? k = none := by
  refine and_congr_right fun hcopy => ?_
  rw [get?_registryAfter, if_neg hcopy, Option.or_eq_none_iff, get?_origin,
    ← Option.not_isSome_iff_eq_none, lastRegistered?_isSome_iff]
  constructor
  · intro hnone
    refine ⟨fun hmem => hnone (.registered hmem), ?_⟩
    cases o with
    | bare => rfl
    | standard site =>
      cases k with
      | copy => exact absurd rfl hcopy
      | known c => exact absurd (.known site c) hnone
      | enumeration type => exact absurd (.shared site type) hnone
      | custom type => rfl
  · rintro ⟨hmem, horigin⟩ hprovided
    cases hprovided with
    | registered h => exact hmem h
    | known site c => cases horigin
    | shared site type => cases horigin

/-! ### Mappings -/

/-- How a property is mapped: as it is, with the converter registered last for its conversion, or
with the one that the registry began with. -/
structure MappedBy (o : Origin) (registered : List (Conversion × Converter σ))
    (p : ContentProperty) (m : PropertyMapping σ) : Prop where
  property : m.property = p.name
  config : m.config = p.config
  copied : p.conversion = .copy → m.converter = none
  last : p.conversion ≠ .copy →
    ∀ converter, lastRegistered? registered p.conversion = some converter →
      m.converter = some converter
  known : lastRegistered? registered p.conversion = none →
    ∀ site c, o = .standard site → p.conversion = .known c →
      m.converter = some (knownConverter site c)
  shared : lastRegistered? registered p.conversion = none →
    ∀ site type, o = .standard site → p.conversion = .enumeration type →
      m.converter = some enumConverter

theorem mapping_of_unserved {o : Origin} {registered : List (Conversion × Converter σ)}
    {p : ContentProperty} (h : Unserved registered o p.conversion) (className : String) :
    PropertyMapping.of (registryAfter o registered) className p =
      .error (.missingConverter p.conversion.text className p.name) := by
  obtain ⟨hcopy, hnone⟩ := (unserved_iff o registered p.conversion).1 h
  unfold PropertyMapping.of
  rw [if_neg (mt p.conversion.isCopy_iff.1 hcopy), hnone]

theorem mapping_of_served {o : Origin} {registered : List (Conversion × Converter σ)}
    {p : ContentProperty} (h : ¬Unserved registered o p.conversion) (className : String) :
    ∃ m, PropertyMapping.of (registryAfter o registered) className p = .ok m ∧
      MappedBy o registered p m := by
  by_cases hcopy : p.conversion = .copy
  · refine ⟨⟨p.name, none, p.config⟩, by simp [PropertyMapping.of, hcopy, Conversion.isCopy],
      rfl, rfl, fun _ => rfl, fun hne => absurd hcopy hne, fun _ site c _ hknown => ?_,
      fun _ site type _ henum => ?_⟩
    · rw [hcopy] at hknown
      cases hknown
    · rw [hcopy] at henum
      cases henum
  -- the last registration goes before what the registry began with
  · have hsome : (registryAfter o registered).get? p.conversion ≠ none :=
      fun hnone => h ((unserved_iff o registered p.conversion).2 ⟨hcopy, hnone⟩)
    obtain ⟨converter, hconverter⟩ := Option.ne_none_iff_exists'.1 hsome
    have hfound := hconverter
    rw [get?_registryAfter, if_neg hcopy, get?_origin] at hfound
    refine ⟨⟨p.name, some converter, p.config⟩, ?_, rfl, rfl, fun h => absurd h hcopy, ?_, ?_, ?_⟩
    · unfold PropertyMapping.of
      rw [if_neg (mt p.conversion.isCopy_iff.1 hcopy), hconverter]
    · intro _ other hother
      rw [hother, Option.some_or] at hfound
      exact hfound.symm
    · rintro hlast site c rfl hknown
      rw [hlast, hknown, Option.none_or] at hfound
      exact hfound.symm
    · rintro hlast site type rfl henum
      rw [hlast, henum, Option.none_or] at hfound
      exact hfound.symm

/-! ### Classes -/

/-- What the classes ask to have mapped: each property in the order of the classes, and in a class
in its own order. -/
def demands (classes : List ContentClass) : List (ContentClass × ContentProperty) :=
  classes.flatMap fun c => c.properties.map fun p => (c, p)

section

variable (o : Origin) (registered : List (Conversion × Converter σ))

theorem mappingStep_ends (c : ContentClass) :
    (∃ mappings, MappingStep.of (registryAfter o registered) c = .ok ⟨c.fullName, mappings⟩ ∧
      List.Forall₂ (MappedBy o registered) c.properties mappings ∧
      ∀ p ∈ c.properties, ¬Unserved registered o p.conversion) ∨
    ∃ p, FirstWith (fun p => Unserved registered o p.conversion) c.properties p ∧
      MappingStep.of (registryAfter o registered) c =
        .error (.missingConverter p.conversion.text c.fullName p.name) := by
  unfold MappingStep.of
  rcases mapM_ends (fun p hp => mapping_of_unserved hp c.fullName)
    (fun p hp => mapping_of_served hp c.fullName) c.properties with
    ⟨mappings, hmappings, hall, hserved⟩ | ⟨p, hfirst, hfails⟩
  · rw [hmappings]
    exact Or.inl ⟨mappings, rfl, hall, hserved⟩
  · rw [hfails]
    exact Or.inr ⟨p, hfirst, rfl⟩

theorem classPipelines_ends (known : Dictionary (ClassPipeline σ)) (classes : List ContentClass) :
    (∃ pipelines, Composition.classPipelines (registryAfter o registered) known classes =
        .ok pipelines ∧
      ∀ d ∈ demands classes, ¬Unserved registered o d.2.conversion) ∨
    ∃ c p, FirstWith (fun d => Unserved registered o d.2.conversion) (demands classes) (c, p) ∧
      Composition.classPipelines (registryAfter o registered) known classes =
        .error (.missingConverter p.conversion.text c.fullName p.name) := by
  induction classes generalizing known with
  | nil => exact Or.inl ⟨known, rfl, nofun⟩
  | cons c classes ih =>
    -- all that the first class asks for comes before what the others ask for
    have hdemands : demands (c :: classes) =
        (c.properties.map fun p => (c, p)) ++ demands classes := List.flatMap_cons
    rw [hdemands, Composition.classPipelines]
    rcases mappingStep_ends o registered c with
      ⟨mappings, hmapped, -, hserved⟩ | ⟨p, hfirst, hfails⟩
    · rw [hmapped]
      have hown : ∀ d ∈ c.properties.map fun p => (c, p),
          ¬Unserved registered o d.2.conversion := List.forall_mem_map.2 hserved
      rcases ih (known.insert c.fullName
          ⟨.ofClass c.discriminant, [MappingStep.toStep ⟨c.fullName, mappings⟩]⟩) with
        ⟨pipelines, hbuilt, hrest⟩ | ⟨d, p, hfirst, hfails⟩
      · exact Or.inl ⟨pipelines, hbuilt, List.forall_mem_append.2 ⟨hown, hrest⟩⟩
      · exact Or.inr ⟨d, p, hfirst.append_left hown, hfails⟩
    · rw [hfails]
      have hown : FirstWith (fun d => Unserved registered o d.2.conversion)
          (c.properties.map fun p => (c, p)) (c, p) := hfirst.map fun _ => Iff.rfl
      exact Or.inr ⟨c, p, hown.append_right _, rfl⟩

end

/-! ### Further steps -/

theorem get?_insert_eq_none_iff {known : Dictionary (ClassPipeline σ)} {type : String}
    {pipeline : ClassPipeline σ} (h : known.get? type = some pipeline) (name : String)
    (other : ClassPipeline σ) : (known.insert type other).get? name = none ↔
      known.get? name = none := by
  rw [Dictionary.get?_insert]
  split
  · rename_i hname
    rw [hname, h]
    simp
  · exact Iff.rfl

theorem addSteps_ends (known : Dictionary (ClassPipeline σ)) (extra : List (String × Step σ)) :
    (∃ pipelines, Composition.addSteps known extra = .ok pipelines ∧
      ∀ e ∈ extra, ¬known.get? e.1 = none) ∨
    ∃ e, FirstWith (fun e => known.get? e.1 = none) extra e ∧
      Composition.addSteps known extra = .error (.unknownContentType e.1) := by
  induction extra generalizing known with
  | nil => exact Or.inl ⟨known, rfl, nofun⟩
  | cons e extra ih =>
    obtain ⟨type, step⟩ := e
    rw [Composition.addSteps]
    cases hknown : known.get? type with
    | none =>
      refine Or.inr ⟨(type, step), .head ?_ extra, rfl⟩
      exact hknown
    | some pipeline =>
      have hfront : ∀ e ∈ [(type, step)], ¬known.get? e.1 = none := by simp [hknown]
      have hsame := get?_insert_eq_none_iff hknown
      simp only
      rcases ih (known.insert type { pipeline with steps := pipeline.steps ++ [step] }) with
        ⟨pipelines, hadded, hall⟩ | ⟨e, hfirst, hfails⟩
      · refine Or.inl ⟨pipelines, hadded, List.forall_mem_cons.2 ⟨by simp [hknown], ?_⟩⟩
        exact fun e he hnone => hall e he ((hsame e.1 _).2 hnone)
      · have hunknown : FirstWith (fun e => known.get? e.1 = none) extra e :=
          hfirst.congr fun e => hsame e.1 _
        exact Or.inr ⟨e, hunknown.append_left hfront, hfails⟩

/-! ### Whole compositions -/

/-- No class has the name. -/
def Unnamed (classes : List ContentClass) (type : String) : Prop :=
  ∀ c ∈ classes, c.fullName ≠ type

section

variable (o : Origin) (registered : List (Conversion × Converter σ)) (classes : List ContentClass)
  (extra : List (String × Step σ))

/-- How a composition with some registrations ends. -/
inductive ComposesTo : Except PipelineFailure (Service σ) → Prop
  /-- A property cannot be mapped, and all before it can. -/
  | unserved {c p}
      (first : FirstWith (fun d => Unserved registered o d.2.conversion) (demands classes) (c, p)) :
      ComposesTo (.error (.missingConverter p.conversion.text c.fullName p.name))
  /-- All properties can be mapped, and a further step is for a type that no class has, while those
  before it are for classes. -/
  | unnamed {type step} (served : ∀ d ∈ demands classes, ¬Unserved registered o d.2.conversion)
      (first : FirstWith (fun e => Unnamed classes e.1) extra (type, step)) :
      ComposesTo (.error (.unknownContentType type))
  /-- All properties can be mapped and all further steps are for classes. -/
  | service {s} (served : ∀ d ∈ demands classes, ¬Unserved registered o d.2.conversion)
      (named : ∀ e ∈ extra, ¬Unnamed classes e.1)
      (maps : ∀ type c, classFor? classes type = some c → ∃ mappings,
        List.Forall₂ (MappedBy o registered) c.properties mappings ∧
        ∀ item : ContentItem, item.contentType = type →
          s.prepare item = (.ofKind (.ofClass c.discriminant),
            Step.inOrder (MappingStep.toStep ⟨c.fullName, mappings⟩ :: ownSteps type extra))) :
      ComposesTo (.ok s)

theorem get?_classPipelines_eq_none_iff {r : Registry σ}
    {pipelines : Dictionary (ClassPipeline σ)}
    (h : Composition.classPipelines r .empty classes = .ok pipelines) (type : String) :
    pipelines.get? type = none ↔ Unnamed classes type := by
  have hlast := classPipelines_get? h type
  rw [Unnamed, ← classFor?_eq_none_iff]
  cases hclass : classFor? classes type with
  | some c =>
    rw [hclass] at hlast
    obtain ⟨mapping, -, hpipeline⟩ := hlast
    simp [hpipeline]
  | none =>
    rw [hclass] at hlast
    exact iff_of_true hlast rfl

/-- The composition with the registry after the registrations. -/
def composition (shared : List (Step σ)) (maxDepth : Nat) : Composition σ :=
  ⟨classes, registryAfter o registered, shared, extra, maxDepth⟩

variable {o registered classes extra}

theorem mappings_of_build {shared : List (Step σ)} {maxDepth : Nat} {s : Service σ}
    (h : (composition o registered classes extra shared maxDepth).build = .ok s) {type : String}
    {c : ContentClass} (hclass : classFor? classes type = some c) :
    ∃ mappings, List.Forall₂ (MappedBy o registered) c.properties mappings ∧
      ∀ item : ContentItem, item.contentType = type →
        s.prepare item = (.ofKind (.ofClass c.discriminant),
          Step.inOrder (MappingStep.toStep ⟨c.fullName, mappings⟩ :: ownSteps type extra)) := by
  have hitem (item : ContentItem) (htype : item.contentType = type) :
      ∃ mapping, MappingStep.of (registryAfter o registered) c = .ok mapping ∧
        s.prepare item = (.ofKind (.ofClass c.discriminant),
          Step.inOrder (mapping.toStep :: ownSteps type extra)) := by
    have hlast := (prepare_composition h).2.2 item
    have hmapped : classFor? (composition o registered classes extra shared maxDepth).classes type =
        some c := hclass
    rw [htype, hmapped] at hlast
    exact hlast
  obtain ⟨mapping, hmapping, -⟩ := hitem (.ofType type) rfl
  rcases mappingStep_ends o registered c with ⟨mappings, hmapped, hall, -⟩ | ⟨p, -, hfails⟩
  · refine ⟨mappings, hall, fun item htype => ?_⟩
    obtain ⟨other, hother, hprepare⟩ := hitem item htype
    rw [hprepare, Except.ok.inj (hother.symm.trans hmapped)]
  · rw [hmapping] at hfails
    cases hfails

theorem composesTo_build (shared : List (Step σ)) (maxDepth : Nat) :
    ComposesTo o registered classes extra
      (composition o registered classes extra shared maxDepth).build := by
  have hbuild : (composition o registered classes extra shared maxDepth).build =
      Composition.classPipelines (registryAfter o registered) .empty classes >>= fun mapped =>
        Composition.addSteps mapped extra >>= fun complete =>
          .ok ⟨complete.map Composition.inOrder, Step.inOrder shared, maxDepth⟩ := rfl
  rcases classPipelines_ends o registered .empty classes with
    ⟨mapped, hmapped, hserved⟩ | ⟨c, p, hfirst, hfails⟩
  · have hunnamed := get?_classPipelines_eq_none_iff classes hmapped
    rcases addSteps_ends mapped extra with ⟨complete, hadded, hnamed⟩ | ⟨e, hfirst, hfails⟩
    · have hservice := hbuild
      simp only [hmapped, hadded, bind, Except.bind] at hservice
      rw [hservice]
      exact .service hserved (fun e he hnone => hnamed e he ((hunnamed e.1).2 hnone))
        fun type c hclass => mappings_of_build hservice hclass
    · simp only [hmapped, hfails, bind, Except.bind] at hbuild
      rw [hbuild]
      exact .unnamed hserved (hfirst.congr fun e => hunnamed e.1)
  · simp only [hfails, bind, Except.bind] at hbuild
    rw [hbuild]
    exact .unserved hfirst

end

/-! ### Registrations without effect -/

theorem classPipelines_congr {r other : Registry σ} (h : r.get? = other.get?)
    (known : Dictionary (ClassPipeline σ)) (classes : List ContentClass) :
    Composition.classPipelines r known classes = Composition.classPipelines other known classes := by
  have hmapping : PropertyMapping.of r = PropertyMapping.of other := by
    funext className p
    unfold PropertyMapping.of
    rw [h]
  have hstep : MappingStep.of r = MappingStep.of other := by
    funext c
    unfold MappingStep.of
    rw [hmapping]
  induction classes generalizing known with
  | nil => rfl
  | cons c classes ih =>
    rw [Composition.classPipelines, Composition.classPipelines, hstep]
    cases MappingStep.of other c with
    | error e => rfl
    | ok mapping => exact ih _

theorem lastRegistered?_filter (registered : List (Conversion × Converter σ)) {k : Conversion}
    (hk : k ≠ .copy) :
    lastRegistered? (registered.filter (·.1 ≠ .copy)) k = lastRegistered? registered k := by
  induction registered with
  | nil => rfl
  | cons e registered ih =>
    rw [List.filter_cons, lastRegistered?_cons]
    split
    · rw [lastRegistered?_cons, ih]
    · rename_i hcopy
      have hid : e.1 = .copy := by simpa using hcopy
      rw [ih, hid, if_neg hk, Option.or_none]

theorem get?_registryAfter_filter (o : Origin) (registered : List (Conversion × Converter σ)) :
    (registryAfter o (registered.filter (·.1 ≠ .copy))).get? =
      (registryAfter o registered).get? := by
  funext k
  rw [get?_registryAfter, get?_registryAfter]
  split
  · rfl
  · rename_i hk
    rw [lastRegistered?_filter registered hk]

theorem served_of_standard {site : Site} {registered : List (Conversion × Converter σ)}
    {classes : List ContentClass} (h : ∀ c ∈ classes, Standard c) :
    ∀ d ∈ demands classes, ¬Unserved registered (.standard site) d.2.conversion := by
  intro d hd hunserved
  obtain ⟨c, hc, hown⟩ := List.mem_flatMap.1 hd
  obtain ⟨p, hp, rfl⟩ := List.mem_map.1 hown
  cases hconversion : p.conversion with
  | copy => exact hunserved.1 hconversion
  | known k => exact hunserved.2 (hconversion ▸ .known site k)
  | enumeration type => exact hunserved.2 (hconversion ▸ .shared site type)
  | custom type => exact h c hc p hp type hconversion

/-! ### Outcomes -/

/-- A composition ends with the first property that cannot be mapped, else with the first further
step whose type no class has, else with a service.  On the standard registry only converters that
classes name themselves can be missing, and what is registered for copies makes no difference. -/
theorem build_of_registrations (o : Origin) (registered : List (Conversion × Converter σ))
    (classes : List ContentClass) (extra : List (String × Step σ)) (shared : List (Step σ))
    (maxDepth : Nat) :
    ComposesTo o registered classes extra
        (composition o registered classes extra shared maxDepth).build ∧
      (∀ site, o = .standard site → (∀ c ∈ classes, Standard c) →
        (∀ e ∈ extra, ¬Unnamed classes e.1) →
        ∃ s, (composition o registered classes extra shared maxDepth).build = .ok s) ∧
      (composition o (registered.filter (·.1 ≠ .copy)) classes extra shared maxDepth).build =
        (composition o registered classes extra shared maxDepth).build := by
  refine ⟨composesTo_build shared maxDepth, ?_, ?_⟩
  · rintro site rfl hstandard hnamed
    have hends : ComposesTo (.standard site) registered classes extra
        (composition (.standard site) registered classes extra shared maxDepth).build :=
      composesTo_build shared maxDepth
    generalize (composition (.standard site) registered classes extra shared maxDepth).build =
      outcome at hends ⊢
    cases hends with
    | unserved first => exact absurd first.holds (served_of_standard hstandard _ first.mem)
    | unnamed served first => exact absurd first.holds (hnamed _ first.mem)
    | service => exact ⟨_, rfl⟩
  · unfold Composition.build composition
    simp only
    rw [classPipelines_congr (get?_registryAfter_filter o registered)]

/-- A class with a copied property, two enumerations and a block. -/
def paintedPage : ContentClass where
  name := "Page"
  stableId := ⟨1⟩
  group := "Common"
  order := 0
  fullName := "Site.Page"
  properties := [
    .passthrough "Title" ⟨"string", false⟩,
    .converted "Color" ⟨"string", true⟩ (.enumeration "Site.Color"),
    .converted "Size" ⟨"string", true⟩ (.enumeration "Site.Size"),
    .converted "Hero" ⟨"IContentPipelineModel", true⟩ (.known .block)]

/-- A site without content. -/
def bareSite : Site := .ofStore .empty

/-- A converter for one enumeration, and one for copies. -/
def paintedRegistrations : List (Conversion × Converter Unit) :=
  [(.enumeration "Site.Color", linkConverter bareSite), (.copy, linkConverter bareSite)]

/-- A step that leaves the model as it is. -/
def idleStep : Step Unit := ⟨0, false, fun _ _ _ model => pure model⟩

/-- The converter registered for one enumeration is used for it, the shared one for the other, and
the one registered for copies nowhere. -/
theorem build_of_registrations_painted :
    ∃ s mappings,
      (composition (.standard bareSite) paintedRegistrations [paintedPage]
        [("Site.Page", idleStep)] [] 16).build = .ok s ∧
      (∀ item : ContentItem, item.contentType = "Site.Page" →
        s.prepare item = (.ofKind (.ofClass "Common.Page"),
          Step.inOrder [MappingStep.toStep ⟨"Site.Page", mappings⟩, idleStep])) ∧
      mappings.map (fun m => m.converter.map (·.name)) =
        [none, some "LinkConverter", some "EnumConverter", some "BlockConverter"] := by
  obtain ⟨hends, hstandard, -⟩ := build_of_registrations (.standard bareSite)
    paintedRegistrations [paintedPage] [("Site.Page", idleStep)] [] 16
  have hclasses : ∀ c ∈ [paintedPage], Standard c := by simp [Standard, paintedPage,
    ContentProperty.passthrough, ContentProperty.converted]
  have hnamed : ∀ e ∈ [("Site.Page", idleStep)], ¬Unnamed [paintedPage] e.1 := by
    simp [Unnamed, paintedPage]
  obtain ⟨s, hbuilt⟩ := hstandard bareSite rfl hclasses hnamed
  have hclass : classFor? [paintedPage] "Site.Page" = some paintedPage := by decide
  rw [hbuilt] at hends
  cases hends with
  | service served named maps =>
    obtain ⟨mappings, hall, hprepare⟩ := maps "Site.Page" paintedPage hclass
    refine ⟨s, mappings, hbuilt, hprepare, ?_⟩
    rcases hall with _ | ⟨title, _ | ⟨color, _ | ⟨size, _ | ⟨hero, _ | _⟩⟩⟩⟩
    have hcolor := color.last (by decide) (linkConverter bareSite) rfl
    have hsize := size.shared rfl bareSite "Site.Size" rfl rfl
    have hhero := hero.known rfl bareSite .block rfl rfl
    simp only [List.map_cons, List.map_nil, title.copied rfl, hcolor, hsize, hhero]
    rfl

end ContentLoom.Pipeline

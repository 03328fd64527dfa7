import ContentLoom.Proofs.StandardServices

/-!
# Nested runs

A service with the standard converters, asked for an item whose values are those
that its converters handle, gives a model or reaches the limit of nesting.  It
reaches the limit exactly where items are nested in one another deeper than the
limit, which is so in particular where references lead in a circle.
-/

namespace ContentLoom.Pipeline

variable {σ : Type}

/-! ### Outcomes -/

/-- The action has one outcome in every state, and leaves the state as it is. -/
def Settles {α : Type} (x : Run σ α) (outcome : Except PipelineFailure α) : Prop :=
  ∀ state, x.run.run state = (outcome, state)

/-- The action fails with the limit where items are too deep, and succeeds elsewhere. -/
structure Ends {α : Type} (limit : Nat) (x : Run σ α) (deep : Prop) : Prop where
  fails : deep → Settles x (.error (.recursionLimit limit))
  succeeds : ¬deep → ∃ a, Settles x (.ok a)

theorem Settles.pure {α : Type} (a : α) : Settles (Pure.pure a : Run σ α) (.ok a) :=
  fun _ => rfl

theorem Settles.bind {α β : Type} {x : Run σ α} {f : α → Run σ β} {a : α}
    {outcome : Except PipelineFailure β} (hx : Settles x (.ok a)) (hf : Settles (f a) outcome) :
    Settles (x >>= f) outcome := by
  intro state
  rw [ExceptT.run_bind, StateT.run_bind, hx state]
  exact hf state

theorem Settles.bind_error {α β : Type} {x : Run σ α} {e : PipelineFailure}
    (hx : Settles x (.error e)) (f : α → Run σ β) : Settles (x >>= f) (.error e) := by
  intro state
  rw [ExceptT.run_bind, StateT.run_bind, hx state]
  rfl

namespace Ends

variable {α β : Type} {limit : Nat} {x : Run σ α} {f : α → Run σ β} {p q : Prop}

theorem pure (limit : Nat) (a : α) : Ends limit (Pure.pure a : Run σ α) False where
  fails := False.elim
  succeeds _ := ⟨a, Settles.pure a⟩

theorem congr (h : p ↔ q) (hx : Ends limit x p) : Ends limit x q where
  fails hq := hx.fails (h.2 hq)
  succeeds hq := hx.succeeds fun hp => hq (h.1 hp)

theorem bind (hx : Ends limit x p) (hf : ∀ a, Ends limit (f a) q) :
    Ends limit (x >>= f) (p ∨ q) := by
  by_cases hp : p
  · have hfail := hx.fails hp
    exact ⟨fun _ => hfail.bind_error f, fun h => absurd (Or.inl hp) h⟩
  · obtain ⟨a, ha⟩ := hx.succeeds hp
    constructor
    · intro h
      exact ha.bind ((hf a).fails (h.resolve_left hp))
    · intro h
      obtain ⟨b, hb⟩ := (hf a).succeeds fun hq => h (Or.inr hq)
      exact ⟨b, ha.bind hb⟩

/-- What is done with a result without running anything does not matter. -/
theorem bind_pure (hx : Ends limit x p) (k : α → β) :
    Ends limit (x >>= fun a => Pure.pure (k a)) p :=
  (hx.bind fun a => Ends.pure limit (k a)).congr (iff_of_eq (or_false p))

end Ends

/-! ### Items within items -/

/-- Whether a value is one that the converter of a conversion handles; null always is. -/
def accepts : Conversion → ContentValue → Bool
  | .copy, _ => true
  | .custom _, _ => false
  | _, .null => true
  | .known .media, .reference _ => true
  | .known .block, .reference _ => true
  | .known .contentReference, .reference _ => true
  | .known .contentArea, .area _ => true
  | .known .link, .url _ => true
  | .known .link, .text _ => true
  | .known .xhtmlString, .xhtml _ => true
  | .known .embeddedBlock, .block _ => true
  | .enumeration _, .enumeration _ => true
  | _, _ => false

/-- The item that a reference leads to, if it is not the empty one. -/
def referred (site : Site) (language : Option String) (target : ContentReference) :
    List ContentItem :=
  if target.isEmpty then [] else (site.load target language).toList

/-- The items whose pipelines are run when a value is converted. -/
def nestedItems (site : Site) (language : Option String) : Conversion → ContentValue →
    List ContentItem
  | .known .media, .reference target => referred site language target
  | .known .block, .reference target => referred site language target
  | .known .contentArea, .area entries => entries.filterMap fun e => site.load e.reference language
  | .known .embeddedBlock, .block item => [item]
  | _, _ => []

/-- The pipeline of the second item is run in that of the first. -/
def Nests (classes : List ContentClass) (site : Site) (language : Option String)
    (outer inner : ContentItem) : Prop :=
  ∃ c, classFor? classes outer.contentType = some c ∧ ∃ p ∈ c.properties,
    inner ∈ nestedItems site language p.conversion (outer.property p.name)

/-- Below an item there is a chain of a number of items, each run in the one before. -/
def Chain (classes : List ContentClass) (site : Site) (language : Option String) :
    Nat → ContentItem → Prop
  | 0, _ => True
  | n + 1, item => ∃ inner, Nests classes site language item inner ∧
      Chain classes site language n inner

/-- The mapped properties of an item, and of the blocks embedded in them, hold values that their
converters handle. -/
inductive WellShaped (classes : List ContentClass) : ContentItem → Prop
  | intro (item : ContentItem)
    (accepted : ∀ c, classFor? classes item.contentType = some c → ∀ p ∈ c.properties,
      accepts p.conversion (item.property p.name) = true)
    (embedded : ∀ c, classFor? classes item.contentType = some c → ∀ p ∈ c.properties,
      p.conversion = .known .embeddedBlock → ∀ inner, item.property p.name = .block inner →
        WellShaped classes inner) :
    WellShaped classes item

theorem Chain.of_succ {classes : List ContentClass} {site : Site} {language : Option String}
    {n : Nat} {item : ContentItem} (h : Chain classes site language (n + 1) item) :
    Chain classes site language n item := by
  induction n generalizing item with
  | zero => trivial
  | succ n ih =>
    obtain ⟨inner, hnests, hchain⟩ := h
    exact ⟨inner, hnests, ih hchain⟩

theorem exists_chain_iff (classes : List ContentClass) (site : Site) (language : Option String)
    (limit : Nat) (item : ContentItem) :
    (∃ n, limit < n ∧ Chain classes site language n item) ↔
      Chain classes site language (limit + 1) item := by
  constructor
  · rintro ⟨n, hlong, hchain⟩
    induction hlong with
    | refl => exact hchain
    | step _ ih => exact ih hchain.of_succ
  · intro hchain
    exact ⟨limit + 1, Nat.lt_succ_self limit, hchain⟩

theorem mem_referred {site : Site} {language : Option String} {target : ContentReference}
    {item : ContentItem} (h : item ∈ referred site language target) :
    site.load target language = some item := by
  unfold referred at h
  split at h
  · simp at h
  · exact Option.mem_toList.1 h

/-- What is nested in an item of the right shape has it too, if all items of the site have it. -/
theorem WellShaped.nested {classes : List ContentClass} {site : Site} {language : Option String}
    (hsite : ∀ r inner, site.load r language = some inner → WellShaped classes inner)
    {outer inner : ContentItem} (houter : WellShaped classes outer)
    (hnests : Nests classes site language outer inner) : WellShaped classes inner := by
  obtain ⟨c, hclass, p, hp, hinner⟩ := hnests
  obtain ⟨_, -, hembedded⟩ := houter
  have hblocks := hembedded c hclass p hp
  unfold nestedItems at hinner
  split at hinner
  · exact hsite _ _ (mem_referred hinner)
  · exact hsite _ _ (mem_referred hinner)
  · obtain ⟨e, -, hload⟩ := List.mem_filterMap.1 hinner
    exact hsite _ _ hload
  · rename_i item hconversion hvalue
    rw [List.mem_singleton.1 hinner]
    exact hblocks hconversion item hvalue
  · simp at hinner

/-! ### Converters -/

section

variable {site : Site} {context : Context σ} {limit : Nat} {deep : ContentItem → Prop}

/-- An item that a reference leads to is run, and nothing is run where it leads nowhere. -/
theorem loaded_ends {α : Type} (absent : α) (found : ContentItem → PipelineModel → α)
    (target : ContentReference)
    (hnested : ∀ inner ∈ referred site context.language target,
      Ends limit (context.nested inner) (deep inner)) :
    Ends limit
      (if target.isEmpty then (pure absent : Run σ α)
      else
        match site.load target context.language with
        | none => pure absent
        | some item => do
          let model ← context.nested item
          pure (found item model))
      (∃ inner ∈ referred site context.language target, deep inner) := by
  unfold referred at hnested ⊢
  by_cases hempty : target.isEmpty = true
  · rw [if_pos hempty, if_pos hempty]
    exact (Ends.pure limit absent).congr (by simp)
  · rw [if_neg hempty] at hnested
    rw [if_neg hempty, if_neg hempty]
    cases hload : site.load target context.language with
    | none => exact (Ends.pure limit absent).congr (by simp)
    | some item =>
      rw [hload] at hnested
      have hitem := hnested item (List.mem_singleton.2 rfl)
      exact (hitem.bind_pure (found item)).congr (by simp)

theorem areaModels_ends (entries : List AreaEntry)
    (hnested : ∀ inner ∈ entries.filterMap fun e => site.load e.reference context.language,
      Ends limit (context.nested inner) (deep inner)) :
    Ends limit (areaModels site context entries)
      (∃ inner ∈ entries.filterMap fun e => site.load e.reference context.language,
        deep inner) := by
  induction entries with
  | nil => exact (Ends.pure limit []).congr (by simp)
  | cons e entries ih =>
    rw [areaModels]
    rw [List.filterMap_cons] at hnested ⊢
    cases hload : site.load e.reference context.language with
    | none =>
      rw [hload] at hnested
      exact ih hnested
    | some item =>
      rw [hload] at hnested
      have hitem := hnested item (List.mem_cons_self ..)
      have hrest := ih fun inner hinner => hnested inner (List.mem_cons_of_mem _ hinner)
      exact (hitem.bind fun model => hrest.bind_pure _).congr (by simp)

theorem contentReference_eq_pure (site : Site) (context : Context σ) (r : Request)
    (target : ContentReference) :
    ∃ v, (contentReferenceConverter site).convert context r (.reference target) = pure v := by
  by_cases hempty : target.isEmpty = true
  · exact ⟨.link none, if_pos hempty⟩
  · exact ⟨.link (site.addressOf target context.language), if_neg hempty⟩

/-- A converter that accepts a value ends as the items nested in the value do. -/
theorem convert_ends {id : Conversion} {converter : Converter σ}
    (hconverter : standardConverter? site id = some converter) (r : Request)
    {value : ContentValue} (haccepts : accepts id value = true)
    (hnested : ∀ inner ∈ nestedItems site context.language id value,
      Ends limit (context.nested inner) (deep inner)) :
    Ends limit (converter.convert context r value)
      (∃ inner ∈ nestedItems site context.language id value, deep inner) := by
  have hplain (v : ModelValue) (hnone : nestedItems site context.language id value = []) :
      Ends limit (pure v : Run σ ModelValue)
        (∃ inner ∈ nestedItems site context.language id value, deep inner) :=
    (Ends.pure limit v).congr (by simp [hnone])
  cases id with
  | copy => cases hconverter
  | custom type => cases hconverter
  | enumeration type =>
    cases hconverter
    cases value <;> first | exact hplain _ rfl | cases haccepts
  | known c =>
    cases hconverter
    -- of all values only null and those that the converter accepts remain
    cases c with
    | media =>
      cases value <;> cases haccepts
      · exact hplain _ rfl
      · exact loaded_ends _ _ _ hnested
    | block =>
      cases value <;> cases haccepts
      · exact hplain _ rfl
      · exact loaded_ends _ _ _ hnested
    | embeddedBlock =>
      cases value <;> cases haccepts
      · exact hplain _ rfl
      · rename_i item
        have hitem := hnested item (List.mem_singleton.2 rfl)
        exact (hitem.bind_pure _).congr (by simp [nestedItems])
    | contentArea =>
      cases value <;> cases haccepts
      · exact hplain _ rfl
      · exact (areaModels_ends _ hnested).bind_pure _
    | contentReference =>
      cases value <;> cases haccepts
      · exact hplain _ rfl
      · obtain ⟨v, hlink⟩ := contentReference_eq_pure site context r _
        exact hlink ▸ hplain v rfl
    | link => cases value <;> cases haccepts <;> exact hplain _ rfl
    | xhtmlString => cases value <;> cases haccepts <;> exact hplain _ rfl

/-! ### Runs -/

/-- The values of a class's properties are mapped one after another. -/
theorem applyMappings_ends (item : ContentItem) (properties : List ContentProperty)
    (haccepts : ∀ p ∈ properties, accepts p.conversion (item.property p.name) = true)
    (hnested : ∀ p ∈ properties,
      ∀ inner ∈ nestedItems site context.language p.conversion (item.property p.name),
        Ends limit (context.nested inner) (deep inner))
    (model : PipelineModel) :
    Ends limit (applyMappings context item (properties.map (standardMapping site)) model)
      (∃ p ∈ properties,
        ∃ inner ∈ nestedItems site context.language p.conversion (item.property p.name),
          deep inner) := by
  induction properties generalizing model with
  | nil => exact (Ends.pure limit model).congr (by simp)
  | cons p properties ih =>
    have hvalue : Ends limit ((standardMapping site p).value context item)
        (∃ inner ∈ nestedItems site context.language p.conversion (item.property p.name),
          deep inner) := by
      unfold standardMapping PropertyMapping.value
      cases hconverter : (standardConverter? site p.conversion : Option (Converter σ)) with
      | none =>
        have hnone :
            nestedItems site context.language p.conversion (item.property p.name) = [] := by
          cases hconversion : p.conversion with
          | copy => rfl
          | custom type => rfl
          | known c => simp [hconversion, standardConverter?] at hconverter
          | enumeration type => rfl
        exact (Ends.pure limit _).congr (by simp [hnone])
      | some converter =>
        exact convert_ends hconverter _ (haccepts p (List.mem_cons_self ..))
          (hnested p (List.mem_cons_self ..))
    have hrest := ih (fun q hq => haccepts q (List.mem_cons_of_mem _ hq))
      (fun q hq => hnested q (List.mem_cons_of_mem _ hq))
    exact (hvalue.bind fun value => hrest _).congr (by simp)

theorem runIn_ends {classes : List ContentClass} {s : Service σ} (hmaps : Maps s classes site)
    (mode : Mode) {item : ContentItem} (hitem : WellShaped classes item)
    (hnested : ∀ inner, Nests classes site context.language item inner →
      Ends limit (context.nested inner) (deep inner)) :
    Ends limit (s.runIn mode context item)
      (∃ inner, Nests classes site context.language item inner ∧ deep inner) := by
  have hpipeline := hmaps.pipelines item.contentType
  unfold Service.runIn Service.prepare
  rw [hmaps.shared, hpipeline]
  cases hclass : classFor? classes item.contentType with
  | none =>
    have hnever : ¬∃ inner, Nests classes site context.language item inner ∧ deep inner := by
      rintro ⟨inner, ⟨c, hc, -⟩, -⟩
      rw [hclass] at hc
      cases hc
    exact (Ends.pure limit _).congr (by simpa using hnever)
  | some c =>
    obtain ⟨_, haccepts, -⟩ := hitem
    have hinner : ∀ p ∈ c.properties,
        ∀ inner ∈ nestedItems site context.language p.conversion (item.property p.name),
          Ends limit (context.nested inner) (deep inner) :=
      fun p hp inner hinner => hnested inner ⟨c, hclass, p, hp, hinner⟩
    have hmapped := applyMappings_ends item c.properties (haccepts c hclass) hinner
      (.ofKind (.ofClass c.discriminant))
    have hnests (inner : ContentItem) : Nests classes site context.language item inner ↔
        ∃ p ∈ c.properties,
          inner ∈ nestedItems site context.language p.conversion (item.property p.name) := by
      simp [Nests, hclass]
    refine (hmapped.bind_pure id).congr ?_
    simp only [hnests]
    constructor
    · rintro ⟨p, hp, inner, hinner, hdeep⟩
      exact ⟨inner, ⟨p, hp, hinner⟩, hdeep⟩
    · rintro ⟨inner, ⟨p, hp, hinner⟩, hdeep⟩
      exact ⟨p, hp, inner, hinner, hdeep⟩

end

section

variable {classes : List ContentClass} {site : Site} {language : Option String}

/-- With room for a number of levels below it, an item is too deep where a longer chain begins. -/
theorem runAbove_ends {s : Service σ} (hmaps : Maps s classes site)
    (hsite : ∀ r inner, site.load r language = some inner → WellShaped classes inner)
    (room : Nat) (mode : Mode) {item : ContentItem} (hitem : WellShaped classes item) :
    Ends s.maxDepth (s.runAbove language room mode item)
      (Chain classes site language (room + 1) item) := by
  induction room generalizing mode item with
  | zero =>
    apply runIn_ends hmaps mode hitem
    intro inner _
    exact ⟨fun _ _ => rfl, fun h => absurd trivial h⟩
  | succ room ih =>
    apply runIn_ends hmaps mode hitem
    intro inner hnests
    exact ih .immediate (hitem.nested hsite hnests)

/-- On content of the right shape a run gives a model, or it reaches the limit; and it reaches the
limit exactly where a chain of nested runs is longer than that. -/
theorem execute_of_wellShaped (classes : List ContentClass) (hstandard : ∀ c ∈ classes, Standard c)
    (site : Site) (maxDepth : Nat) :
    ∃ service : Service σ, (standardComposition classes site maxDepth).build = .ok service ∧
      ∀ (mode : Mode) (item : ContentItem) (language : Option String) (state : σ),
        WellShaped classes item →
        (∀ r inner, site.load r language = some inner → WellShaped classes inner) →
        ((∃ model, (service.execute mode item language).run.run state = (.ok model, state)) ∨
          (service.execute mode item language).run.run state =
            (.error (.recursionLimit maxDepth), state)) ∧
        ((service.execute mode item language).run.run state =
            (.error (.recursionLimit maxDepth), state) ↔
          ∃ n, maxDepth < n ∧ Chain classes site language n item) := by
  obtain ⟨service, hbuilt, hdepth, hmaps⟩ := build_of_standard (σ := σ) hstandard site maxDepth
  refine ⟨service, hbuilt, fun mode item language state hitem hsite => ?_⟩
  have hends := runAbove_ends hmaps hsite service.maxDepth mode hitem
  rw [exists_chain_iff, ← hdepth]
  by_cases hdeep : Chain classes site language (service.maxDepth + 1) item
  · have hfails := hends.fails hdeep state
    exact ⟨Or.inr hfails, iff_of_true hfails hdeep⟩
  · obtain ⟨model, hmodel⟩ := hends.succeeds hdeep
    have hsucceeds := hmodel state
    refine ⟨Or.inl ⟨model, hsucceeds⟩, iff_of_false ?_ hdeep⟩
    intro hfails
    have hboth := congrArg Prod.fst (hsucceeds.symm.trans hfails)
    cases hboth

end

/-- A class of pages that refer to a next one. -/
def linkedPage : ContentClass where
  name := "Page"
  stableId := ⟨1⟩
  group := "Common"
  order := 0
  fullName := "Site.Page"
  properties := [.converted "Next" ⟨"IContentPipelineModel", true⟩ (.known .block)]

/-- A page whose next one it is itself. -/
def circularPage : ContentItem := ⟨"Site.Page", ⟨1⟩, [("Next", .reference ⟨1⟩)]⟩

/-- The site with this page only. -/
def circularSite : Site := .ofStore (ContentStore.empty.insert circularPage)

theorem load_circularSite {r : ContentReference} {language : Option String} {item : ContentItem}
    (h : circularSite.load r language = some item) : item = circularPage := by
  change (if r.isEmpty then none else ([(⟨1⟩, circularPage)] : ByReference _).lookup r) = _ at h
  split at h
  · cases h
  · rw [List.lookup_cons] at h
    split at h
    · exact (Option.some.inj h).symm
    · cases h

theorem wellShaped_circularPage : WellShaped [linkedPage] circularPage := by
  constructor
  · intro c hclass p hp
    cases hclass
    rw [List.mem_singleton.1 hp]
    rfl
  · intro c hclass p hp hembedded
    cases hclass
    rw [List.mem_singleton.1 hp] at hembedded
    cases hembedded

theorem chain_circularPage (n : Nat) : Chain [linkedPage] circularSite none n circularPage := by
  induction n with
  | zero => trivial
  | succ n ih =>
    have hnests : Nests [linkedPage] circularSite none circularPage circularPage :=
      ⟨linkedPage, rfl, _, List.mem_singleton.2 rfl, List.mem_singleton.2 rfl⟩
    exact ⟨circularPage, hnests, ih⟩

theorem execute_circularPage :
    (∀ c ∈ [linkedPage], Standard c) ∧ WellShaped [linkedPage] circularPage ∧
      (∀ r inner, circularSite.load r none = some inner → WellShaped [linkedPage] inner) ∧
      ∃ service : Service Unit,
        (standardComposition [linkedPage] circularSite 16).build = .ok service ∧
          (service.execute .immediate circularPage none).run.run () =
            (.error (.recursionLimit 16), ()) := by
  have hstandard : ∀ c ∈ [linkedPage], Standard c := by
    intro c hc p hp type
    rw [List.mem_singleton.1 hc] at hp
    rw [List.mem_singleton.1 hp]
    exact Conversion.noConfusion
  have hsite : ∀ r inner, circularSite.load r none = some inner →
      WellShaped [linkedPage] inner := by
    intro r inner hload
    rw [load_circularSite hload]
    exact wellShaped_circularPage
  obtain ⟨service, hbuilt, hruns⟩ :=
    execute_of_wellShaped (σ := Unit) [linkedPage] hstandard circularSite 16
  have hlimit := (hruns .immediate circularPage none () wellShaped_circularPage hsite).2
  refine ⟨hstandard, wellShaped_circularPage, hsite, service, hbuilt, ?_⟩
  exact hlimit.2 ⟨17, by decide, chain_circularPage 17⟩

end ContentLoom.Pipeline

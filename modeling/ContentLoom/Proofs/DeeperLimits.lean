import Mathlib
import ContentLoom.Proofs.NestedRuns

/-!
# Deeper limits

The limit of nesting plays no part in a run that does not reach it.  A service
that allows items to be nested deeper gives the same model then, or the same
failure.  This holds of all steps and converters that see of their context only
the language and the runs of nested items, as those of the standard registry do.
-/

namespace ContentLoom.Pipeline

variable {σ α β : Type}

/-! ### Runs that go on where others stop -/

/-- The outcome is that items are nested too deep. -/
def TooDeep (outcome : Except PipelineFailure α) : Prop :=
  ∃ limit, outcome = .error (.recursionLimit limit)

/-- Where the first run does not end at a limit of nesting, the second does the same. -/
def Extends (x y : Run σ α) : Prop :=
  ∀ state, ¬TooDeep (x.run.run state).1 → y.run.run state = x.run.run state

namespace Extends

theorem refl (x : Run σ α) : Extends x x := fun _ _ => rfl

theorem of_limit (limit : Nat) (y : Run σ α) : Extends (throw (.recursionLimit limit)) y :=
  fun _ h => absurd ⟨limit, rfl⟩ h

theorem bind {x y : Run σ α} {f g : α → Run σ β} (hx : Extends x y)
    (hf : ∀ a, Extends (f a) (g a)) : Extends (x >>= f) (y >>= g) := by
  intro state hshallow
  rw [Run.run_bind] at hshallow ⊢
  rw [Run.run_bind]
  -- the first part is not too deep either, as its failure would be that of the whole
  have hfirst : ¬TooDeep (x.run.run state).1 := by
    rintro ⟨limit, hlimit⟩
    rcases hrun : x.run.run state with ⟨outcome, next⟩
    rw [hrun] at hlimit hshallow
    cases hlimit
    exact hshallow ⟨limit, rfl⟩
  rw [hx state hfirst]
  rcases hrun : x.run.run state with ⟨outcome, next⟩
  rw [hrun] at hshallow
  cases outcome with
  | ok a => exact hf a next hshallow
  | error e => rfl

theorem bind_pure {x y : Run σ α} (h : Extends x y) (k : α → β) :
    Extends (x >>= fun a => Pure.pure (k a)) (y >>= fun a => Pure.pure (k a)) :=
  h.bind fun a => refl (Pure.pure (k a))

end Extends

/-! ### Steady converters and steps -/

/-- The second context is that of a deeper limit. -/
structure Context.Deepens (deep shallow : Context σ) : Prop where
  language : deep.language = shallow.language
  nested : ∀ item, Extends (shallow.nested item) (deep.nested item)

/-- With a deeper limit the converter does the same, and goes on where it stopped. -/
def Converter.Steady (converter : Converter σ) : Prop :=
  ∀ {deep shallow : Context σ}, deep.Deepens shallow → ∀ r value,
    Extends (converter.convert shallow r value) (converter.convert deep r value)

/-- With a deeper limit the step does the same, and goes on where it stopped. -/
def Step.Steady (step : Step σ) : Prop :=
  ∀ {deep shallow : Context σ}, deep.Deepens shallow → ∀ mode item model,
    Extends (step.execute mode shallow item model) (step.execute mode deep item model)

section

variable {deep shallow : Context σ}

theorem Context.Deepens.pure (h : deep.Deepens shallow) (k : Option String → α) :
    Extends (Pure.pure (k shallow.language) : Run σ α) (Pure.pure (k deep.language)) := by
  rw [h.language]
  exact .refl _

theorem loaded_extends (site : Site) (h : deep.Deepens shallow) (absent : α)
    (found : ContentItem → PipelineModel → α) (target : ContentReference) :
    Extends
      (if target.isEmpty then (pure absent : Run σ α)
      else
        match site.load target shallow.language with
        | none => pure absent
        | some item => do
          let model ← shallow.nested item
          pure (found item model))
      (if target.isEmpty then (pure absent : Run σ α)
      else
        match site.load target deep.language with
        | none => pure absent
        | some item => do
          let model ← deep.nested item
          pure (found item model)) := by
  rw [h.language]
  split
  · exact .refl _
  · cases site.load target shallow.language with
    | none => exact .refl _
    | some item => exact (h.nested item).bind_pure (found item)

theorem areaModels_extends (site : Site) (h : deep.Deepens shallow) (entries : List AreaEntry) :
    Extends (areaModels site shallow entries) (areaModels site deep entries) := by
  induction entries with
  | nil => exact .refl _
  | cons e entries ih =>
    rw [areaModels, areaModels, h.language]
    cases site.load e.reference shallow.language with
    | none => exact ih
    | some item => exact (h.nested item).bind fun model => ih.bind_pure _

end

theorem knownConverter_steady (site : Site) (c : KnownConverter) :
    (knownConverter site c : Converter σ).Steady := by
  intro deep shallow h r value
  cases c with
  | media =>
    refine (Extends.refl _).bind fun target => ?_
    rw [h.language]
    have hloaded := loaded_extends site h (ModelValue.media .absent) (fun item model =>
      .media ⟨site.addressOf target shallow.language, some item.typeName, some model⟩) target
    rwa [h.language] at hloaded
  | block => exact (Extends.refl _).bind fun target => loaded_extends site h _ _ target
  | embeddedBlock =>
    cases value with
    | block item => exact (h.nested item).bind_pure _
    | _ => exact .refl _
  | contentArea =>
    cases value with
    | area entries => exact (areaModels_extends site h entries).bind_pure _
    | _ => exact .refl _
  | contentReference =>
    refine (Extends.refl _).bind fun target => ?_
    rw [h.language]
    exact .refl _
  | link =>
    cases value with
    | url address => exact h.pure fun l => ModelValue.link (some (friendlyAddress site l address))
    | text address => exact h.pure fun l => ModelValue.link (some (friendlyAddress site l address))
    | _ => exact .refl _
  | xhtmlString =>
    cases value with
    | xhtml markup => exact h.pure fun l => ModelValue.text (site.render markup l)
    | _ => exact .refl _

theorem enumConverter_steady : (enumConverter : Converter σ).Steady := by
  intro deep shallow h r value
  cases value <;> exact .refl _

theorem standardConverter_steady {site : Site} {id : Conversion} {converter : Converter σ}
    (h : standardConverter? site id = some converter) : converter.Steady := by
  cases id with
  | copy => cases h
  | custom type => cases h
  | known c =>
    cases h
    exact knownConverter_steady site c
  | enumeration type =>
    cases h
    exact enumConverter_steady

/-! ### Steady services -/

theorem applyMappings_extends {deep shallow : Context σ} (h : deep.Deepens shallow)
    (item : ContentItem) {mappings : List (PropertyMapping σ)}
    (hsteady : ∀ m ∈ mappings, ∀ converter, m.converter = some converter → converter.Steady)
    (model : PipelineModel) :
    Extends (applyMappings shallow item mappings model)
      (applyMappings deep item mappings model) := by
  induction mappings generalizing model with
  | nil => exact .refl _
  | cons m mappings ih =>
    have hvalue : Extends (m.value shallow item) (m.value deep item) := by
      unfold PropertyMapping.value
      cases hconverter : m.converter with
      | none => exact .refl _
      | some converter => exact hsteady m (List.mem_cons_self ..) converter hconverter h _ _
    have hrest := ih fun m hm => hsteady m (List.mem_cons_of_mem _ hm)
    exact hvalue.bind fun value => hrest (model.set m.property value)

theorem applySteps_extends {deep shallow : Context σ} (h : deep.Deepens shallow) (mode : Mode)
    (item : ContentItem) {steps : List (Step σ)} (hsteady : ∀ step ∈ steps, step.Steady)
    (model : PipelineModel) :
    Extends (Service.applySteps mode shallow item steps model)
      (Service.applySteps mode deep item steps model) := by
  induction steps generalizing model with
  | nil => exact .refl _
  | cons step steps ih =>
    have hfirst := hsteady step (List.mem_cons_self ..) h mode item model
    have hrest := ih fun step hstep => hsteady step (List.mem_cons_of_mem _ hstep)
    exact hfirst.bind hrest

structure Service.Steady (s : Service σ) : Prop where
  shared : ∀ step ∈ s.shared, step.Steady
  pipelines : ∀ type pipeline, s.pipelines.get? type = some pipeline →
    ∀ step ∈ pipeline.steps, step.Steady

theorem Service.Steady.prepare {s : Service σ} (hs : s.Steady) (item : ContentItem) :
    ∀ step ∈ (s.prepare item).2, step.Steady := by
  unfold Service.prepare
  cases hpipeline : s.pipelines.get? item.contentType with
  | none => simp
  | some pipeline => exact hs.pipelines _ pipeline hpipeline

theorem runIn_extends {deep shallow : Context σ} (h : deep.Deepens shallow) {s : Service σ}
    (hs : s.Steady) (mode : Mode) (item : ContentItem) :
    Extends (s.runIn mode shallow item) (s.runIn mode deep item) := by
  have hsteps : ∀ step ∈ s.shared ++ (s.prepare item).2, step.Steady := by
    intro step hstep
    rcases List.mem_append.1 hstep with hstep | hstep
    · exact hs.shared step hstep
    · exact hs.prepare item step hstep
  exact applySteps_extends h mode item hsteps (s.prepare item).1

/-- The service with another limit of nesting. -/
def Service.withMaxDepth (s : Service σ) (limit : Nat) : Service σ := { s with maxDepth := limit }

/-- What steps see with room for some levels below them, and with room for more. -/
theorem contextAbove_deepens {s : Service σ} (hs : s.Steady) (limit : Nat)
    (language : Option String) {room more : Nat} (hroom : room ≤ more) :
    ((s.withMaxDepth limit).contextAbove language more).Deepens
      (s.contextAbove language room) := by
  induction room generalizing more with
  | zero =>
    -- the first run stops at every nested item
    exact ⟨rfl, fun inner => .of_limit s.maxDepth _⟩
  | succ room ih =>
    cases more with
    | zero => exact absurd hroom (Nat.not_succ_le_zero room)
    | succ more =>
      refine ⟨rfl, fun inner => ?_⟩
      have hbelow := ih (Nat.le_of_succ_le_succ hroom)
      have hinner := runIn_extends hbelow hs .immediate inner
      change Extends (s.runAbove language room .immediate inner)
        ((s.withMaxDepth limit).runAbove language more .immediate inner)
      rw [Service.runAbove_eq_runIn, Service.runAbove_eq_runIn]
      exact hinner

theorem build_maxDepth (c : Composition σ) (limit : Nat) :
    { c with maxDepth := limit }.build = c.build.map fun s => s.withMaxDepth limit := by
  unfold Composition.build
  cases hmapped : Composition.classPipelines c.registry .empty c.classes with
  | error e => rfl
  | ok mapped =>
    change (Composition.addSteps mapped c.extra >>= _) =
      (Composition.addSteps mapped c.extra >>= _).map _
    cases Composition.addSteps mapped c.extra <;> rfl

theorem steady_of_maps {s : Service σ} {classes : List ContentClass} {site : Site}
    (hmaps : Maps s classes site) : s.Steady := by
  constructor
  · simp [hmaps.shared]
  · intro type pipeline hpipeline step hstep
    rw [hmaps.pipelines, Option.map_eq_some_iff] at hpipeline
    obtain ⟨c, -, rfl⟩ := hpipeline
    rw [List.mem_singleton.1 hstep]
    intro deep shallow h mode item model
    refine applyMappings_extends h item ?_ model
    intro m hm converter hconverter
    obtain ⟨p, -, rfl⟩ := List.mem_map.1 hm
    exact standardConverter_steady hconverter

/-- Where a run does not reach the limit of nesting, it ends in the same way with any deeper limit:
with the same model or the same failure. -/
theorem execute_of_deeper_limit (classes : List ContentClass)
    (hstandard : ∀ c ∈ classes, Standard c) (site : Site) {limit deeper : Nat}
    (hdeeper : limit ≤ deeper) :
    ∃ shallow deep : Service σ,
      (standardComposition classes site limit).build = .ok shallow ∧
      (standardComposition classes site deeper).build = .ok deep ∧
      deep = shallow.withMaxDepth deeper ∧
      ∀ (mode : Mode) (item : ContentItem) (language : Option String) (state : σ),
        ¬TooDeep ((shallow.execute mode item language).run.run state).1 →
        (deep.execute mode item language).run.run state =
          (shallow.execute mode item language).run.run state := by
  obtain ⟨shallow, hbuilt, hdepth, hmaps⟩ := build_of_standard (σ := σ) hstandard site limit
  have hdeep : (standardComposition classes site deeper).build =
      .ok (shallow.withMaxDepth deeper) := by
    have hbuild := build_maxDepth (standardComposition (σ := σ) classes site limit) deeper
    rw [hbuilt] at hbuild
    exact hbuild
  refine ⟨shallow, shallow.withMaxDepth deeper, hbuilt, hdeep, rfl, ?_⟩
  intro mode item language state hshallow
  have hsteady := steady_of_maps hmaps
  have hroom : shallow.maxDepth ≤ deeper := hdepth ▸ hdeeper
  have hcontext := contextAbove_deepens hsteady deeper language hroom
  have hruns := runIn_extends hcontext hsteady mode item
  unfold Service.execute at hshallow ⊢
  rw [Service.runAbove_eq_runIn] at hshallow ⊢
  rw [Service.runAbove_eq_runIn]
  exact hruns state hshallow

/-- A page whose next one is the page under reference 2. -/
def firstPage : ContentItem := ⟨"Site.Page", ⟨1⟩, [("Next", .reference ⟨2⟩)]⟩

/-- That page, with a text in the place of its next one. -/
def brokenPage : ContentItem := ⟨"Site.Page", ⟨2⟩, [("Next", .text "none")]⟩

def brokenSite : Site := .ofStore (ContentStore.empty.insert brokenPage)

def brokenNext : PipelineFailure :=
  .unexpectedValue "BlockConverter" "Next" "reference" "string"

theorem execute_firstPage_deeper :
    (∀ c ∈ [linkedPage], Standard c) ∧ 1 ≤ 5 ∧
      ∃ shallow deep : Service Unit,
        (standardComposition [linkedPage] brokenSite 1).build = .ok shallow ∧
        (standardComposition [linkedPage] brokenSite 5).build = .ok deep ∧
        ¬TooDeep ((shallow.execute .immediate firstPage none).run.run ()).1 ∧
        (deep.execute .immediate firstPage none).run.run () = (.error brokenNext, ()) := by
  have hstandard : ∀ c ∈ [linkedPage], Standard c := by
    intro c hc p hp type
    rw [List.mem_singleton.1 hc] at hp
    rw [List.mem_singleton.1 hp]
    exact Conversion.noConfusion
  obtain ⟨shallow, deep, hshallow, hdeep, -, hsame⟩ :=
    execute_of_deeper_limit (σ := Unit) [linkedPage] hstandard brokenSite (by decide : 1 ≤ 5)
  have hrun : (standardComposition [linkedPage] brokenSite 1).build.map
      (fun s => (s.execute .immediate firstPage none).run.run ()) =
        .ok (.error brokenNext, ()) := by
    cbv
  rw [hshallow] at hrun
  have hfails : (shallow.execute .immediate firstPage none).run.run () =
      (.error brokenNext, ()) := Except.ok.inj hrun
  have hother : ¬TooDeep ((shallow.execute .immediate firstPage none).run.run ()).1 := by
    rw [hfails]
    rintro ⟨limit, hlimit⟩
    cases hlimit
  refine ⟨hstandard, by decide, shallow, deep, hshallow, hdeep, hother, ?_⟩
  rw [hsame .immediate firstPage none () hother, hfails]

end ContentLoom.Pipeline

import Mathlib
import ContentLoom.Proofs.StableSort
import ContentLoom.Proofs.StandardServices

/-!
# The order of steps

What a run does with any steps whatever: it passes the shared steps and then
those of the class of the item, both by increasing order and otherwise as they
were added, and ends with the first of them that fails.  The runs of nested
items, which steps may start, keep to the same law one level deeper.  Where the
names of the classes are distinct, the law settles what a run does wholly.
-/

namespace ContentLoom.Pipeline

variable {σ : Type}

/-! ### The law -/

/-- Some steps in the order in which they run. -/
structure InOrder (added steps : List (Step σ)) : Prop where
  once : steps.Perm added
  ascending : steps.Pairwise fun a b => a.order ≤ b.order
  ties : ∀ order, (steps.filter fun s => s.order = order) = added.filter fun s => s.order = order

/-- The steps among some additions that are for every item. -/
def sharedSteps (added : List (Addition σ)) : List (Step σ) :=
  added.filterMap fun
    | .shared step => some step
    | .ofType _ _ => none

/-- The steps among some additions that are for the items of a type. -/
def stepsFor (type : String) (added : List (Addition σ)) : List (Step σ) :=
  added.filterMap fun
    | .shared _ => none
    | .ofType t step => if t = type then some step else none

/-- Each step succeeds, on the model and in the state that the one before it leaves. -/
inductive Passes (mode : Mode) (context : Context σ) (item : ContentItem) :
    List (Step σ) → PipelineModel × σ → PipelineModel × σ → Prop
  | nil (x : PipelineModel × σ) : Passes mode context item [] x x
  | cons {step steps model state model' state' y}
      (first : (step.execute mode context item model).run.run state = (.ok model', state'))
      (rest : Passes mode context item steps (model', state') y) :
      Passes mode context item (step :: steps) (model, state) y

/-- The run passes all steps and gives the last model, or fails as the first failing step does. -/
def Conducts (mode : Mode) (context : Context σ) (item : ContentItem) (steps : List (Step σ))
    (start : PipelineModel) (run : Run σ PipelineModel) : Prop :=
  ∀ state,
    (∃ model state', Passes mode context item steps (start, state) (model, state') ∧
      run.run.run state = (.ok model, state')) ∨
    (∃ done failing rest model state₁ e state₂, steps = done ++ failing :: rest ∧
      Passes mode context item done (start, state) (model, state₁) ∧
      (failing.execute mode context item model).run.run state₁ = (.error e, state₂) ∧
      run.run.run state = (.error e, state₂))

section

variable (classes : List ContentClass) (registry : Registry σ) (added : List (Addition σ))

/-- The model that a run of an item of a type begins with, and the steps of the type. -/
inductive ClassTier (type : String) : PipelineModel → List (Step σ) → Prop
  | ofClass {c mapping steps} (mem : c ∈ classes) (named : c.fullName = type)
      (mapped : MappingStep.of registry c = .ok mapping)
      (at1000 : mapping.toStep.order = 1000)
      (inOrder : InOrder (mapping.toStep :: stepsFor type added) steps) :
      ClassTier type ⟨.ofClass c.discriminant, []⟩ steps
  | other (unnamed : ∀ c ∈ classes, c.fullName ≠ type) : ClassTier type ⟨.base, []⟩ []

/-- In a context, each item is run through the shared steps and those of its class. -/
def Follows (mode : Mode) (context : Context σ) (run : ContentItem → Run σ PipelineModel) : Prop :=
  ∀ item, ∃ shared start own, InOrder (sharedSteps added) shared ∧
    ClassTier classes registry added item.contentType start own ∧
    Conducts mode context item (shared ++ own) start (run item)

/-- Runs at a depth follow the law, and so do those nested in them, down to the limit. -/
def Lawful (limit : Nat) (language : Option String) :
    Nat → Nat → Mode → (ContentItem → Run σ PipelineModel) → Prop
  | 0, depth, mode, run =>
    Follows classes registry added mode
      ⟨language, depth, limit, fun _ => throw (.recursionLimit limit)⟩ run
  | room + 1, depth, mode, run =>
    ∃ nested, Follows classes registry added mode ⟨language, depth, limit, nested⟩ run ∧
      Lawful limit language room (depth + 1) .immediate nested

end

/-! ### Sorting -/

theorem inOrder_of_sort (steps : List (Step σ)) : InOrder steps (Step.inOrder steps) := by
  have htrans : ∀ a b c : Step σ, decide (a.order ≤ b.order) = true →
      decide (b.order ≤ c.order) = true → decide (a.order ≤ c.order) = true := by
    intro a b c hab hbc
    simp only [decide_eq_true_eq] at hab hbc ⊢
    exact Int32.le_trans hab hbc
  have htotal : ∀ a b : Step σ,
      (decide (a.order ≤ b.order) || decide (b.order ≤ a.order)) = true := by
    intro a b
    simpa using Int32.le_total a.order b.order
  refine ⟨List.mergeSort_perm .., ?_, fun order => ?_⟩
  · exact (List.pairwise_mergeSort htrans htotal steps).imp of_decide_eq_true
  · refine filter_mergeSort htrans htotal _ (fun a b ha hb => ?_) steps
    simp only [decide_eq_true_eq] at ha hb ⊢
    rw [ha, hb]
    exact Int32.le_refl order

/-! ### Composing -/

/-- The steps among some named ones that have a name. -/
def ownSteps (type : String) (extra : List (String × Step σ)) : List (Step σ) :=
  extra.filterMap fun e => if e.1 = type then some e.2 else none

theorem foldl_add (added : List (Addition σ)) (c : Composition σ) :
    ∃ extra, added.foldl Composition.add c =
        { c with shared := c.shared ++ sharedSteps added, extra := c.extra ++ extra } ∧
      ∀ type, ownSteps type extra = stepsFor type added := by
  induction added generalizing c with
  | nil => exact ⟨[], by simp [sharedSteps], fun type => rfl⟩
  | cons a added ih =>
    obtain ⟨extra, hadded, hown⟩ := ih (c.add a)
    cases a with
    | shared step =>
      refine ⟨extra, ?_, hown⟩
      rw [List.foldl_cons, hadded]
      simp [Composition.add, sharedSteps]
    | ofType type step =>
      refine ⟨(type, step) :: extra, ?_, fun other => ?_⟩
      · rw [List.foldl_cons, hadded]
        simp [Composition.add, sharedSteps]
      · have hrest := hown other
        unfold ownSteps stepsFor at hrest ⊢
        rw [List.filterMap_cons, List.filterMap_cons, hrest]

/-- Of several classes with one name the last has the type. -/
theorem classPipelines_get? {r : Registry σ} {known pipelines : Dictionary (ClassPipeline σ)}
    {classes : List ContentClass} (h : Composition.classPipelines r known classes = .ok pipelines)
    (type : String) :
    match classFor? classes type with
    | some c => ∃ mapping, MappingStep.of r c = .ok mapping ∧
        pipelines.get? type = some ⟨.ofClass c.discriminant, [mapping.toStep]⟩
    | none => pipelines.get? type = known.get? type := by
  induction classes generalizing known with
  | nil =>
    cases h
    rfl
  | cons c classes ih =>
    rw [Composition.classPipelines] at h
    cases hmapping : MappingStep.of r c with
    | error e =>
      rw [hmapping] at h
      cases h
    | ok mapping =>
      rw [hmapping] at h
      have hrest := ih h
      rw [classFor?_cons]
      cases hlater : classFor? classes type with
      | some d =>
        rw [hlater] at hrest
        exact hrest
      | none =>
        rw [hlater] at hrest
        have hinsert : (known.insert c.fullName ⟨.ofClass c.discriminant, [mapping.toStep]⟩).get?
            type = if type = c.fullName then some ⟨.ofClass c.discriminant, [mapping.toStep]⟩
              else known.get? type := Entries.get?_insert ..
        rw [hinsert] at hrest
        by_cases htype : type = c.fullName
        · rw [if_pos htype] at hrest ⊢
          exact ⟨mapping, hmapping, hrest⟩
        · rw [if_neg htype] at hrest ⊢
          exact hrest

theorem addSteps_get? {known pipelines : Dictionary (ClassPipeline σ)}
    {extra : List (String × Step σ)} (h : Composition.addSteps known extra = .ok pipelines)
    (type : String) :
    pipelines.get? type =
      (known.get? type).map fun p => { p with steps := p.steps ++ ownSteps type extra } := by
  induction extra generalizing known with
  | nil =>
    cases h
    simp [ownSteps]
  | cons e extra ih =>
    obtain ⟨name, step⟩ := e
    rw [Composition.addSteps] at h
    cases hknown : known.get? name with
    | none =>
      rw [hknown] at h
      cases h
    | some pipeline =>
      rw [hknown] at h
      have hinsert : (known.insert name { pipeline with steps := pipeline.steps ++ [step] }).get?
          type = if type = name then some { pipeline with steps := pipeline.steps ++ [step] }
            else known.get? type := Entries.get?_insert ..
      rw [ih h, hinsert]
      by_cases htype : type = name
      · subst htype
        simp [hknown, ownSteps]
      · simp [htype, Ne.symm htype, ownSteps]

/-- A composed service begins a run with the model of the last class that has the type, and has
the mapping of that class among its steps. -/
theorem prepare_composition {c : Composition σ} {s : Service σ} (h : c.build = .ok s) :
    s.maxDepth = c.maxDepth ∧ s.shared = Step.inOrder c.shared ∧
      ∀ item, match classFor? c.classes item.contentType with
        | some d => ∃ mapping, MappingStep.of c.registry d = .ok mapping ∧
            s.prepare item = (.ofKind (.ofClass d.discriminant),
              Step.inOrder (mapping.toStep :: ownSteps item.contentType c.extra))
        | none => s.prepare item = (.base, []) := by
  unfold Composition.build at h
  cases hmapped : Composition.classPipelines c.registry .empty c.classes with
  | error e =>
    rw [hmapped] at h
    cases h
  | ok mapped =>
    rw [hmapped] at h
    change (Composition.addSteps mapped c.extra >>= _) = _ at h
    cases hcomplete : Composition.addSteps mapped c.extra with
    | error e =>
      rw [hcomplete] at h
      cases h
    | ok complete =>
      rw [hcomplete] at h
      cases h
      refine ⟨rfl, rfl, fun item => ?_⟩
      have hget : (complete.map Composition.inOrder).get? item.contentType =
          (complete.get? item.contentType).map Composition.inOrder := Entries.get?_map ..
      rw [addSteps_get? hcomplete] at hget
      have hlast := classPipelines_get? hmapped item.contentType
      unfold Service.prepare
      simp only
      rw [hget]
      cases hclass : classFor? c.classes item.contentType with
      | some d =>
        rw [hclass] at hlast
        obtain ⟨mapping, hmapping, hpipeline⟩ := hlast
        rw [hpipeline]
        exact ⟨mapping, hmapping, rfl⟩
      | none =>
        rw [hclass] at hlast
        have hunnamed : mapped.get? item.contentType = none := hlast
        rw [hunnamed]
        rfl

theorem prepare_last {classes : List ContentClass} {registry : Registry σ} {maxDepth : Nat}
    {added : List (Addition σ)} {s : Service σ}
    (h : (added.foldl Composition.add (.ofClasses classes registry maxDepth)).build = .ok s) :
    s.maxDepth = maxDepth ∧ s.shared = Step.inOrder (sharedSteps added) ∧
      ∀ item, match classFor? classes item.contentType with
        | some c => ∃ mapping, MappingStep.of registry c = .ok mapping ∧
            s.prepare item = (.ofKind (.ofClass c.discriminant),
              Step.inOrder (mapping.toStep :: stepsFor item.contentType added))
        | none => s.prepare item = (.base, []) := by
  obtain ⟨extra, hadded, hown⟩ := foldl_add added (.ofClasses classes registry maxDepth)
  rw [hadded] at h
  have hprepare := prepare_composition h
  simp only [Composition.ofClasses, List.nil_append, hown] at hprepare
  exact hprepare

theorem prepare_of_build {classes : List ContentClass} {registry : Registry σ} {maxDepth : Nat}
    {added : List (Addition σ)} {s : Service σ}
    (h : (added.foldl Composition.add (.ofClasses classes registry maxDepth)).build = .ok s) :
    s.maxDepth = maxDepth ∧ InOrder (sharedSteps added) s.shared ∧
      ∀ item, ClassTier classes registry added item.contentType
        (s.prepare item).1 (s.prepare item).2 := by
  obtain ⟨hdepth, hshared, hprepare⟩ := prepare_last h
  refine ⟨hdepth, hshared ▸ inOrder_of_sort _, fun item => ?_⟩
  have hlast := hprepare item
  cases hclass : classFor? classes item.contentType with
  | some c =>
    rw [hclass] at hlast
    obtain ⟨mapping, hmapping, hpair⟩ := hlast
    obtain ⟨hc, hnamed⟩ := mem_of_classFor? hclass
    rw [hpair]
    exact .ofClass hc hnamed hmapping rfl (inOrder_of_sort _)
  | none =>
    rw [hclass] at hlast
    have hpair : s.prepare item = (.base, []) := hlast
    rw [hpair]
    exact .other (classFor?_eq_none_iff.1 hclass)

/-! ### One run only -/

theorem order_le_of_mem {a b : Step σ} {steps : List (Step σ)}
    (h : (a :: steps).Pairwise fun a b => a.order ≤ b.order) (hb : b ∈ a :: steps) :
    a.order ≤ b.order := by
  rcases List.mem_cons.1 hb with rfl | hb
  · exact Int32.le_refl _
  · exact (List.pairwise_cons.1 h).1 b hb

theorem InOrder.unique {added steps others : List (Step σ)} (h : InOrder added steps)
    (h' : InOrder added others) : steps = others := by
  have hperm : steps.Perm others := h.once.trans h'.once.symm
  have hties : ∀ order, (steps.filter fun s => s.order = order) =
      others.filter fun s => s.order = order := fun order =>
    (h.ties order).trans (h'.ties order).symm
  obtain ⟨-, hsteps, -⟩ := h
  obtain ⟨-, hothers, -⟩ := h'
  induction steps generalizing others with
  | nil => exact hperm.nil_eq
  | cons a steps ih =>
    cases others with
    | nil => exact absurd hperm.symm.nil_eq (List.cons_ne_nil a steps).symm
    | cons b others =>
      -- the two first steps are of one order, and so they are the first ones of this order
      have hle : b.order ≤ a.order :=
        order_le_of_mem hothers (hperm.subset (List.mem_cons_self ..))
      have hge : a.order ≤ b.order :=
        order_le_of_mem hsteps (hperm.symm.subset (List.mem_cons_self ..))
      have horder : b.order = a.order := Int32.le_antisymm hle hge
      have hfirst := hties a.order
      simp only [horder, decide_true, List.filter_cons_of_pos, List.cons.injEq] at hfirst
      obtain ⟨rfl, -⟩ := hfirst
      have hrest : ∀ order, (steps.filter fun s => s.order = order) =
          others.filter fun s => s.order = order := by
        intro order
        have hboth := hties order
        rw [List.filter_cons, List.filter_cons] at hboth
        split at hboth
        · exact (List.cons.inj hboth).2
        · exact hboth
      rw [ih hperm.cons_inv hrest hsteps.of_cons hothers.of_cons]

section

variable {mode : Mode} {context : Context σ} {item : ContentItem}

theorem Passes.applySteps {done : List (Step σ)} {x y : PipelineModel × σ}
    (h : Passes mode context item done x y) (rest : List (Step σ)) :
    (Service.applySteps mode context item (done ++ rest) x.1).run.run x.2 =
      (Service.applySteps mode context item rest y.1).run.run y.2 := by
  induction h with
  | nil x => rfl
  | cons first _ ih =>
    rw [List.cons_append, Service.applySteps, Run.run_bind, first]
    exact ih

theorem Conducts.eq_applySteps {steps : List (Step σ)} {start : PipelineModel}
    {run : Run σ PipelineModel} (h : Conducts mode context item steps start run) :
    run = Service.applySteps mode context item steps start := by
  funext state
  change run.run.run state = (Service.applySteps mode context item steps start).run.run state
  rcases h state with ⟨model, state', hpasses, hruns⟩ |
    ⟨done, failing, rest, model, state₁, e, state₂, rfl, hpasses, hfails, hruns⟩
  · have hall := hpasses.applySteps []
    rw [List.append_nil] at hall
    rw [hruns, hall]
    rfl
  · rw [hruns, hpasses.applySteps, Service.applySteps, Run.run_bind, hfails]

end

section

variable {classes : List ContentClass} {registry : Registry σ} {added : List (Addition σ)}

theorem ClassTier.unique (hnames : (classes.map (·.fullName)).Nodup) {type : String}
    {start start' : PipelineModel} {steps steps' : List (Step σ)}
    (h : ClassTier classes registry added type start steps)
    (h' : ClassTier classes registry added type start' steps') :
    start = start' ∧ steps = steps' := by
  cases h with
  | other unnamed =>
    cases h' with
    | other => exact ⟨rfl, rfl⟩
    | ofClass mem named => exact absurd named (unnamed _ mem)
  | ofClass mem named mapped _ inOrder =>
    cases h' with
    | other unnamed => exact absurd named (unnamed _ mem)
    | ofClass mem' named' mapped' _ inOrder' =>
      obtain rfl := List.inj_on_of_nodup_map hnames mem mem' (named.trans named'.symm)
      obtain rfl := Except.ok.inj (mapped.symm.trans mapped')
      exact ⟨rfl, inOrder.unique inOrder'⟩

theorem Follows.unique (hnames : (classes.map (·.fullName)).Nodup) {mode : Mode}
    {context : Context σ} {run run' : ContentItem → Run σ PipelineModel}
    (h : Follows classes registry added mode context run)
    (h' : Follows classes registry added mode context run') : run = run' := by
  funext item
  obtain ⟨shared, start, own, hshared, htier, hruns⟩ := h item
  obtain ⟨shared', start', own', hshared', htier', hruns'⟩ := h' item
  obtain rfl := hshared.unique hshared'
  obtain ⟨rfl, rfl⟩ := htier.unique hnames htier'
  exact hruns.eq_applySteps.trans hruns'.eq_applySteps.symm

/-- The law leaves nothing open: where names are distinct, all runs that keep to it are equal. -/
theorem Lawful.unique (hnames : (classes.map (·.fullName)).Nodup) {limit room depth : Nat}
    {language : Option String} {mode : Mode} {run run' : ContentItem → Run σ PipelineModel}
    (h : Lawful classes registry added limit language room depth mode run)
    (h' : Lawful classes registry added limit language room depth mode run') : run = run' := by
  induction room generalizing depth mode run run' with
  | zero => exact Follows.unique hnames h h'
  | succ room ih =>
    obtain ⟨nested, hfollows, hnested⟩ := h
    obtain ⟨nested', hfollows', hnested'⟩ := h'
    obtain rfl := ih hnested hnested'
    exact hfollows.unique hnames hfollows'

end

/-! ### Running -/

theorem applySteps_conducts (mode : Mode) (context : Context σ) (item : ContentItem)
    (steps : List (Step σ)) (start : PipelineModel) :
    Conducts mode context item steps start
      (Service.applySteps mode context item steps start) := by
  intro state
  induction steps generalizing start state with
  | nil => exact Or.inl ⟨start, state, .nil _, rfl⟩
  | cons step steps ih =>
    rw [Service.applySteps, Run.run_bind]
    rcases hstep : (step.execute mode context item start).run.run state with ⟨outcome, next⟩
    cases outcome with
    | error e => exact Or.inr ⟨[], step, steps, start, state, e, next, rfl, .nil _, hstep, rfl⟩
    | ok model =>
      rcases ih model next with ⟨last, state', hpasses, hruns⟩ |
        ⟨done, failing, rest, before, state₁, e, state₂, rfl, hpasses, hfails, hruns⟩
      · exact Or.inl ⟨last, state', .cons hstep hpasses, hruns⟩
      · exact Or.inr ⟨step :: done, failing, rest, before, state₁, e, state₂, rfl,
          .cons hstep hpasses, hfails, hruns⟩

section

variable {classes : List ContentClass} {registry : Registry σ} {added : List (Addition σ)}
  {s : Service σ}

theorem runIn_follows (hshared : InOrder (sharedSteps added) s.shared)
    (hprepare : ∀ item, ClassTier classes registry added item.contentType
      (s.prepare item).1 (s.prepare item).2) (mode : Mode) (context : Context σ) :
    Follows classes registry added mode context (s.runIn mode context) := fun item =>
  ⟨s.shared, (s.prepare item).1, (s.prepare item).2, hshared, hprepare item,
    applySteps_conducts mode context item _ _⟩

theorem runAbove_lawful (hshared : InOrder (sharedSteps added) s.shared)
    (hprepare : ∀ item, ClassTier classes registry added item.contentType
      (s.prepare item).1 (s.prepare item).2) (language : Option String) {room depth : Nat}
    (hroom : room + depth = s.maxDepth) (mode : Mode) :
    Lawful classes registry added s.maxDepth language room depth mode
      (s.runAbove language room mode) := by
  have hdepth : s.maxDepth - room = depth := by omega
  induction room generalizing depth mode with
  | zero => exact hdepth ▸ runIn_follows hshared hprepare mode _
  | succ room ih =>
    have hinner : room + (depth + 1) = s.maxDepth := by omega
    refine ⟨s.runAbove language room .immediate, ?_, ih hinner .immediate (by omega)⟩
    exact hdepth ▸ runIn_follows hshared hprepare mode _

end

/-- Whatever steps a service is composed of, in whatever order they were added: its runs pass the
shared steps and then those of the exact class, and so do the runs nested in them. -/
theorem execute_lawful {classes : List ContentClass} {registry : Registry σ} {maxDepth : Nat}
    {added : List (Addition σ)} {s : Service σ}
    (hbuilt : (added.foldl Composition.add (.ofClasses classes registry maxDepth)).build = .ok s)
    (mode : Mode) (language : Option String) :
    Lawful classes registry added maxDepth language maxDepth 0 mode
      fun item => s.execute mode item language := by
  obtain ⟨rfl, hshared, hprepare⟩ := prepare_of_build hbuilt
  exact runAbove_lawful hshared hprepare language (Nat.add_zero _) mode

/-- A class of pages with a title that is copied. -/
def titledPage : ContentClass where
  name := "Titled"
  stableId := ⟨1⟩
  group := "Common"
  order := 0
  fullName := "Site.Titled"
  properties := [.passthrough "Title" ⟨"string", false⟩]

/-- A class of pages without properties. -/
def plainPage : ContentClass where
  name := "Plain"
  stableId := ⟨2⟩
  group := "Common"
  order := 0
  fullName := "Site.Plain"
  properties := []

/-- What steps wrote down: their names, each with the properties that the model had. -/
abbrev Notes := List (String × List String)

/-- A step that writes down its name and the properties of the model. -/
def noting (name : String) (order : Int32) : Step Notes where
  order := order
  isAsync := false
  execute _ _ _ model := do
    modify fun notes => notes ++ [(name, model.names)]
    pure model

/-- Shared steps with steps of two classes between them. -/
def notingSteps : List (Addition Notes) := [
  .shared (noting "late" 2000), .ofType "Site.Titled" (noting "beside" 1000),
  .shared (noting "early" 5), .ofType "Site.Plain" (noting "elsewhere" 1),
  .ofType "Site.Titled" (noting "before" 999), .shared (noting "also early" 5)]

-- The title is there for the step beside the mapping, which was added after it with its order.
theorem execute_notingSteps :
    ∃ s, (notingSteps.foldl Composition.add
        (.ofClasses [titledPage, plainPage] .empty 3)).build = .ok s ∧
      Lawful [titledPage, plainPage] .empty notingSteps 3 none 3 0 .immediate
        (fun item => s.execute .immediate item none) ∧
      (s.execute .immediate ⟨"Site.Titled", ⟨1⟩, [("Title", .text "Start")]⟩ none).run.run [] =
        (.ok ⟨.ofClass "Common.Titled", [("Title", .text "Start")]⟩,
          [("early", []), ("also early", []), ("late", []), ("before", []),
            ("beside", ["Title"])]) := by
  refine ⟨_, rfl, execute_lawful rfl .immediate none, ?_⟩
  cbv

end ContentLoom.Pipeline

import ContentLoom.Proofs.StepOrder

/-!
# What all steps of a run keep

A run begins with the model of a class and passes it through steps.  What holds
of the first model, and is kept by the mapping of each property and by each added
step, holds of the model that the run gives.
-/

namespace ContentLoom.Pipeline

variable {σ : Type}

/-- Where the action succeeds, its result has the property. -/
def Gives {α : Type} (x : Run σ α) (P : α → Prop) : Prop :=
  ∀ state a next, x.run.run state = (.ok a, next) → P a

/-- The step makes of a model with the property one that has it too. -/
def Step.Keeps (step : Step σ) (P : PipelineModel → Prop) : Prop :=
  ∀ mode context item model, P model → Gives (step.execute mode context item model) P

namespace Gives

variable {α β : Type} {P : α → Prop} {Q : β → Prop}

theorem of_pure {a : α} (h : P a) : Gives (pure a : Run σ α) P := by
  intro state b next hrun
  cases hrun
  exact h

theorem anything (x : Run σ α) : Gives x fun _ => True := fun _ _ _ _ => trivial

theorem imp {R : α → Prop} {x : Run σ α} (hx : Gives x P) (h : ∀ a, P a → R a) : Gives x R :=
  fun state a next hrun => h a (hx state a next hrun)

theorem bind {x : Run σ α} {f : α → Run σ β} (hx : Gives x P) (hf : ∀ a, P a → Gives (f a) Q) :
    Gives (x >>= f) Q := by
  intro state b next hrun
  rw [Run.run_bind] at hrun
  rcases hfirst : x.run.run state with ⟨outcome, middle⟩
  rw [hfirst] at hrun
  cases outcome with
  | error e => cases hrun
  | ok a => exact hf a (hx state a middle hfirst) middle b next hrun

end Gives

variable {P : PipelineModel → Prop} {context : Context σ} {item : ContentItem}

theorem applyMappings_gives {mappings : List (PropertyMapping σ)} {model : PipelineModel}
    (hset : ∀ m ∈ mappings, ∀ model value, P model → P (model.set m.property value))
    (hmodel : P model) : Gives (applyMappings context item mappings model) P := by
  induction mappings generalizing model with
  | nil => exact Gives.of_pure hmodel
  | cons m mappings ih =>
    refine (Gives.anything _).bind fun value _ => ?_
    have hfirst := hset m (List.mem_cons_self ..) model value hmodel
    exact ih (fun n hn => hset n (List.mem_cons_of_mem _ hn)) hfirst

theorem applySteps_gives {mode : Mode} {steps : List (Step σ)} {model : PipelineModel}
    (hkeeps : ∀ step ∈ steps, step.Keeps P) (hmodel : P model) :
    Gives (Service.applySteps mode context item steps model) P := by
  induction steps generalizing model with
  | nil => exact Gives.of_pure hmodel
  | cons step steps ih =>
    refine (hkeeps step (List.mem_cons_self ..) mode context item model hmodel).bind fun a ha => ?_
    exact ih (fun later hlater => hkeeps later (List.mem_cons_of_mem _ hlater)) ha

theorem properties_of_mapM {r : Registry σ} {className : String} {ps : List ContentProperty}
    {mappings : List (PropertyMapping σ)}
    (h : ps.mapM (PropertyMapping.of r className) = .ok mappings) :
    mappings.map (·.property) = ps.map (·.name) := by
  induction ps generalizing mappings with
  | nil =>
    cases h
    rfl
  | cons p ps ih =>
    rw [List.mapM_cons] at h
    cases hfirst : PropertyMapping.of r className p with
    | error e =>
      rw [hfirst] at h
      cases h
    | ok m =>
      rw [hfirst] at h
      cases hrest : ps.mapM (PropertyMapping.of r className) with
      | error e =>
        rw [hrest] at h
        cases h
      | ok ms =>
        rw [hrest] at h
        cases h
        have hname : m.property = p.name := by
          unfold PropertyMapping.of at hfirst
          split at hfirst
          · cases hfirst
            rfl
          · split at hfirst <;> cases hfirst
            rfl
        rw [List.map_cons, List.map_cons, ih hrest, hname]

theorem properties_of_mapping {r : Registry σ} {c : ContentClass} {mapping : MappingStep σ}
    (h : MappingStep.of r c = .ok mapping) :
    mapping.mappings.map (·.property) = c.properties.map (·.name) := by
  unfold MappingStep.of at h
  cases hmappings : c.properties.mapM (PropertyMapping.of r c.fullName) with
  | error e =>
    rw [hmappings] at h
    cases h
  | ok mappings =>
    rw [hmappings] at h
    cases h
    exact properties_of_mapM hmappings

theorem mapping_keeps {r : Registry σ} {c : ContentClass} {mapping : MappingStep σ}
    (h : MappingStep.of r c = .ok mapping)
    (hset : ∀ p ∈ c.properties, ∀ model value, P model → P (model.set p.name value)) :
    mapping.toStep.Keeps P := by
  intro mode context item model hmodel
  refine applyMappings_gives (fun m hm model value => ?_) hmodel
  have hname : m.property ∈ c.properties.map (·.name) := by
    rw [← properties_of_mapping h]
    exact List.mem_map_of_mem hm
  obtain ⟨p, hp, hproperty⟩ := List.mem_map.1 hname
  rw [← hproperty]
  exact hset p hp model value

/-- What holds of the first model of a class, and is kept by the mapping of its properties and by
the steps added for its items, holds of every model that a run of such an item gives. -/
theorem execute_gives {classes : List ContentClass} {registry : Registry σ} {maxDepth : Nat}
    {added : List (Addition σ)} {s : Service σ} {c : ContentClass}
    (hbuilt : (added.foldl Composition.add (.ofClasses classes registry maxDepth)).build = .ok s)
    (hclass : classFor? classes item.contentType = some c)
    (hstart : P (.ofKind (.ofClass c.discriminant)))
    (hset : ∀ p ∈ c.properties, ∀ model value, P model → P (model.set p.name value))
    (hadded : ∀ step ∈ sharedSteps added ++ stepsFor item.contentType added, step.Keeps P)
    (mode : Mode) (language : Option String) : Gives (s.execute mode item language) P := by
  obtain ⟨-, hshared, hprepare⟩ := prepare_last hbuilt
  have hlast := hprepare item
  rw [hclass] at hlast
  obtain ⟨mapping, hmapping, hpair⟩ := hlast
  have hsorted {steps : List (Step σ)} {step : Step σ} : step ∈ Step.inOrder steps ↔ step ∈ steps :=
    List.mem_mergeSort
  unfold Service.execute
  rw [Service.runAbove_eq_runIn, Service.runIn, hpair, hshared]
  refine applySteps_gives (fun step hstep => ?_) hstart
  rcases List.mem_append.1 hstep with hstep | hstep
  · exact hadded step (List.mem_append_left _ (hsorted.1 hstep))
  · rcases List.mem_cons.1 (hsorted.1 hstep) with rfl | hstep
    · exact mapping_keeps hmapping hset
    · exact hadded step (List.mem_append_right _ hstep)

end ContentLoom.Pipeline

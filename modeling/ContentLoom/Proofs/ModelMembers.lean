import ContentLoom.Model.Document
import ContentLoom.Proofs.FlattenedProperties
import ContentLoom.Proofs.StepResults

/-!
# Members of written models

A model is written as its tag and the properties that have a value, each under
its name in camel case.  The properties of a resolved class have different
names, but camel case can make two names one, or make a name that of the tag.
Only then does a model with two members of one name come out of a run.
-/

namespace ContentLoom

namespace Pipeline

open Model PipelineModel

/-! ### Members of a model -/

/-- The names of the members of an object. -/
def memberNames : Json → List String
  | .obj members => members.map Prod.fst
  | _ => []

theorem names_propertiesToJson (properties : List (String × ModelValue)) :
    (ModelValue.propertiesToJson properties).map Prod.fst =
      (properties.filter fun e => !e.2.isNull).map fun e => camelCase e.1 := by
  induction properties with
  | nil => rfl
  | cons e rest ih =>
    obtain ⟨name, value⟩ := e
    rw [ModelValue.propertiesToJson, List.filter_cons]
    cases hnull : value.isNull with
    | true => simpa using ih
    | false => simpa using ih

theorem memberNames_toJson (m : PipelineModel) :
    memberNames m.toJson =
      typeMember :: (m.properties.filter fun e => !e.2.isNull).map fun e => camelCase e.1 := by
  obtain ⟨kind, properties⟩ := m
  rw [PipelineModel.toJson, ModelValue.modelToJson, memberNames, List.map_cons,
    names_propertiesToJson]

/-- The model has properties of a class only, each of them once. -/
structure NamedBy (c : ContentClass) (m : PipelineModel) : Prop where
  once : m.names.Nodup
  known : ∀ name ∈ m.names, name ∈ c.properties.map (·.name)

/-- Camel case tells the properties of a class from each other and from the tag. -/
structure CamelApart (c : ContentClass) : Prop where
  apart : (c.properties.map fun p => camelCase p.name).Nodup
  free : typeMember ∉ c.properties.map fun p => camelCase p.name

theorem namedBy_ofKind (c : ContentClass) (kind : ModelKind) : NamedBy c (.ofKind kind) :=
  ⟨List.nodup_nil, nofun⟩

theorem NamedBy.set {c : ContentClass} {m : PipelineModel} (h : NamedBy c m) {p : ContentProperty}
    (hp : p ∈ c.properties) (value : ModelValue) : NamedBy c (m.set p.name value) := by
  have hnames : (m.set p.name value).names =
      if p.name ∈ m.names then m.names else m.names ++ [p.name] := Entries.names_set ..
  refine ⟨Entries.nodup_foldl_set [(p.name, value)] m.properties h.once, fun name hname => ?_⟩
  rw [hnames] at hname
  split at hname
  · exact h.known name hname
  · rcases List.mem_append.1 hname with hname | hname
    · exact h.known name hname
    · rw [List.mem_singleton.1 hname]
      exact List.mem_map_of_mem hp

theorem NamedBy.nodup_memberNames {c : ContentClass} {m : PipelineModel} (h : NamedBy c m)
    (hc : CamelApart c) : (memberNames m.toJson).Nodup := by
  have hsame {a b : String} (ha : a ∈ m.names) (hb : b ∈ m.names)
      (hab : camelCase a = camelCase b) : a = b := by
    obtain ⟨p, hp, rfl⟩ := List.mem_map.1 (h.known a ha)
    obtain ⟨q, hq, rfl⟩ := List.mem_map.1 (h.known b hb)
    rw [List.inj_on_of_nodup_map hc.apart hp hq hab]
  have hall : (m.names.map camelCase).Nodup :=
    h.once.map_on fun a ha b hb hab => hsame ha hb hab
  have hwritten : ((m.properties.filter fun e => !e.2.isNull).map fun e => camelCase e.1).Sublist
      (m.names.map camelCase) := by
    have hentries : m.names.map camelCase = m.properties.map fun e => camelCase e.1 := List.map_map
    rw [hentries]
    exact List.filter_sublist.map _
  rw [memberNames_toJson, List.nodup_cons]
  refine ⟨fun hmem => ?_, hall.sublist hwritten⟩
  obtain ⟨name, hname, htag⟩ := List.mem_map.1 (hwritten.subset hmem)
  obtain ⟨p, hp, rfl⟩ := List.mem_map.1 (h.known name hname)
  exact hc.free (List.mem_map.2 ⟨p, hp, htag⟩)

/-! ### A run with a value for every property -/

/-- A converter that makes one text of every value. -/
def constantConverter : Converter Unit := ⟨"Constant", fun _ _ _ => pure (.text "")⟩

/-- The registry with this converter for all conversions of a class. -/
def constantRegistry (c : ContentClass) : Registry Unit :=
  ⟨c.properties.map fun p => (p.conversion, constantConverter), none⟩

/-- An item of a class with a text for every property. -/
def filledItem (c : ContentClass) : ContentItem :=
  ⟨c.fullName, .empty,
    (Dictionary.ofEntries (c.properties.map fun p => (p.name, ContentValue.text ""))).entries⟩

/-- The model of this item. -/
def filledModel (c : ContentClass) : PipelineModel :=
  ⟨.ofClass c.discriminant, c.properties.map fun p => (p.name, .text "")⟩

/-- The mapping of a property with this converter. -/
def constantMapping (p : ContentProperty) : PropertyMapping Unit :=
  ⟨p.name, if p.conversion.isCopy then none else some constantConverter, p.config⟩

theorem lookup_constant {ps : List ContentProperty} {p : ContentProperty} (hp : p ∈ ps) :
    (ps.map fun q => (q.conversion, constantConverter)).lookup p.conversion =
      some constantConverter := by
  induction ps with
  | nil => cases hp
  | cons q ps ih =>
    rw [List.map_cons, List.lookup_cons]
    split
    · rfl
    · rename_i hne
      rcases List.mem_cons.1 hp with rfl | hp
      · simp at hne
      · exact ih hp

theorem mapping_of_constant {c : ContentClass} {p : ContentProperty} (hp : p ∈ c.properties) :
    PropertyMapping.of (constantRegistry c) c.fullName p = .ok (constantMapping p) := by
  have hlookup : (constantRegistry c).converters.lookup p.conversion = some constantConverter :=
    lookup_constant hp
  unfold PropertyMapping.of constantMapping Registry.get?
  cases hconversion : p.conversion <;> rw [hconversion] at hlookup <;>
    simp [Conversion.isCopy, hlookup]

theorem property_filledItem {c : ContentClass} (hnames : (c.properties.map (·.name)).Nodup)
    {p : ContentProperty} (hp : p ∈ c.properties) : (filledItem c).property p.name = .text "" := by
  have hentries : Entries.names (c.properties.map fun p => (p.name, ContentValue.text "")) =
      c.properties.map (·.name) := List.map_map
  have hfound : Entries.get? (c.properties.map fun p => (p.name, ContentValue.text "")) p.name =
      some (.text "") := by
    refine Entries.get?_of_mem ?_ (List.mem_map.2 ⟨p, hp, rfl⟩)
    rw [hentries]
    exact hnames
  have hget := Dictionary.get?_ofEntries (c.properties.map fun p => (p.name, ContentValue.text ""))
    (hentries ▸ hnames) p.name
  change (Dictionary.get? _ p.name).getD ContentValue.null = _
  rw [hget, hfound]
  rfl

theorem applyMappings_constant {c : ContentClass} (hnames : (c.properties.map (·.name)).Nodup)
    (context : Context Unit) {ps : List ContentProperty} (hps : ps ⊆ c.properties)
    (model : PipelineModel) :
    applyMappings context (filledItem c) (ps.map constantMapping) model =
      pure ⟨model.kind, (ps.map fun p => (p.name, ModelValue.text "")).foldl
        (fun es e => Entries.set es e.1 e.2) model.properties⟩ := by
  induction ps generalizing model with
  | nil =>
    cases model
    rfl
  | cons p ps ih =>
    obtain ⟨hp, hrest⟩ := List.cons_subset.1 hps
    have hvalue : (constantMapping p).value context (filledItem c) = pure (.text "") := by
      unfold PropertyMapping.value constantMapping
      simp only [property_filledItem hnames hp]
      cases p.conversion.isCopy <;> rfl
    rw [List.map_cons, applyMappings, hvalue, pure_bind, ih hrest]
    rfl

theorem applyMappings_filledItem {c : ContentClass} (hnames : (c.properties.map (·.name)).Nodup)
    (context : Context Unit) :
    applyMappings context (filledItem c) (c.properties.map constantMapping)
        (.ofKind (.ofClass c.discriminant)) = pure (filledModel c) := by
  have hentries : Entries.names (c.properties.map fun p => (p.name, ModelValue.text "")) =
      c.properties.map (·.name) := List.map_map
  have hset := Entries.foldl_set_of_nodup
    (c.properties.map fun p => (p.name, ModelValue.text "")) [] (hentries ▸ hnames)
  rw [applyMappings_constant hnames context (List.Subset.refl _)]
  change pure (PipelineModel.mk _ (List.foldl _ [] _)) = _
  rw [hset]
  rfl

theorem execute_filledItem {c : ContentClass} (hnames : (c.properties.map (·.name)).Nodup) :
    ∃ s, (Composition.ofClasses [c] (constantRegistry c) 0).build = .ok s ∧
      (s.execute .immediate (filledItem c) none).run.run () = (.ok (filledModel c), ()) := by
  have hmapping : MappingStep.of (constantRegistry c) c =
      .ok ⟨c.fullName, c.properties.map constantMapping⟩ := by
    have hall : c.properties.mapM (PropertyMapping.of (constantRegistry c) c.fullName) =
        .ok (c.properties.map constantMapping) := mapM_ok fun p hp => mapping_of_constant hp
    unfold MappingStep.of
    rw [hall]
    rfl
  have hbuilt : ∃ s, (Composition.ofClasses [c] (constantRegistry c) 0).build = .ok s := by
    unfold Composition.build Composition.ofClasses Composition.classPipelines
    simp only
    rw [hmapping]
    exact ⟨_, rfl⟩
  obtain ⟨s, hbuilt⟩ := hbuilt
  refine ⟨s, hbuilt, ?_⟩
  have hadded : (([] : List (Addition Unit)).foldl Composition.add
      (Composition.ofClasses [c] (constantRegistry c) 0)).build = .ok s := hbuilt
  obtain ⟨-, hshared, hprepare⟩ := prepare_last hadded
  have hlast := hprepare (filledItem c)
  have hclass : classFor? [c] (filledItem c).contentType = some c := by
    simp [classFor?, filledItem]
  rw [hclass] at hlast
  obtain ⟨mapping, hfound, hpair⟩ := hlast
  obtain rfl : mapping = _ := Except.ok.inj (hfound.symm.trans hmapping)
  have hsteps (step : Step Unit) : Step.inOrder (step :: stepsFor c.fullName []) = [step] :=
    List.mergeSort_singleton _
  have hnone : Step.inOrder (sharedSteps ([] : List (Addition Unit))) = [] := List.mergeSort_nil
  unfold Service.execute
  rw [Service.runAbove_eq_runIn, Service.runIn, hpair, hshared, hnone]
  change (Service.applySteps _ _ _ ([] ++ Step.inOrder (_ :: stepsFor c.fullName [])) _).run.run
    () = _
  rw [hsteps, List.nil_append]
  change (applyMappings _ (filledItem c) (c.properties.map constantMapping)
    (.ofKind (.ofClass c.discriminant)) >>= pure).run.run () = _
  rw [applyMappings_filledItem hnames]
  rfl

/-! ### Runs of a class -/

/-- In whatever service the class is the one for its type: every model that a run of an item of the
class gives has members of different names, if the steps added for such items set nothing but
properties of the class. -/
def DistinctMembers (c : ContentClass) : Prop :=
  ∀ (σ : Type) (classes : List ContentClass) (registry : Registry σ) (maxDepth : Nat)
    (added : List (Addition σ)) (s : Service σ),
    classFor? classes c.fullName = some c →
    (∀ step ∈ sharedSteps added ++ stepsFor c.fullName added, step.Keeps (NamedBy c)) →
    (added.foldl Composition.add (.ofClasses classes registry maxDepth)).build = .ok s →
    ∀ (mode : Mode) (item : ContentItem) (language : Option String),
      item.contentType = c.fullName →
      Gives (s.execute mode item language) fun model => (memberNames model.toJson).Nodup

theorem distinctMembers_of_apart {c : ContentClass} (hc : CamelApart c) : DistinctMembers c := by
  intro σ classes registry maxDepth added s hclass hadded hbuilt mode item language htype
  rw [← htype] at hclass hadded
  have hmodels := execute_gives hbuilt hclass (namedBy_ofKind c _)
    (fun p hp model value hmodel => hmodel.set hp value) hadded mode language
  intro state model next hrun
  exact (hmodels state model next hrun).nodup_memberNames hc

theorem apart_of_distinctMembers {c : ContentClass} (hnames : (c.properties.map (·.name)).Nodup)
    (h : DistinctMembers c) : CamelApart c := by
  obtain ⟨s, hbuilt, hrun⟩ := execute_filledItem hnames
  have hclass : classFor? [c] c.fullName = some c := by simp [classFor?]
  have hadded : ∀ step ∈ sharedSteps ([] : List (Addition Unit)) ++ stepsFor c.fullName [],
      step.Keeps (NamedBy c) := fun _ hstep => absurd hstep List.not_mem_nil
  have hnodup : (memberNames (filledModel c).toJson).Nodup :=
    h Unit [c] (constantRegistry c) 0 [] s hclass hadded hbuilt .immediate (filledItem c) none rfl
      () (filledModel c) () hrun
  have hmembers : memberNames (filledModel c).toJson =
      typeMember :: c.properties.map fun p => camelCase p.name := by
    rw [memberNames_toJson]
    simp [filledModel, ModelValue.isNull, List.filter_map, Function.comp_def]
  rw [hmembers, List.nodup_cons] at hnodup
  exact ⟨hnodup.2, hnodup.1⟩

/-- For a class that resolution gives, the members of all models are told apart exactly where camel
case tells the names of its properties from each other and from the tag. -/
theorem distinctMembers_iff {g : Graph} {w v : Watch} {classes : List ContentClass}
    {c : ContentClass} (hresolved : (Resolution.resolveAll g).run.run w = (.ok classes, v))
    (hc : c ∈ classes) : DistinctMembers c ↔ CamelApart c := by
  rw [Resolution.declaredClasses_of_run hresolved] at hc
  exact ⟨apart_of_distinctMembers (Resolution.nodup_propertyNames hc), distinctMembers_of_apart⟩

/-- A type of pages with two addresses whose names differ in case only. -/
def addressedPage : Declaration where
  name := "Page"
  ns := "Site"
  kind := .classType
  isAbstract := false
  base := none
  interfaces := []
  attributes := [⟨"ContentType", [], [], [], []⟩, ⟨"ContentPipelineModel", [], [], [], []⟩]
  properties := [⟨"URL", .named "Url", false, []⟩, ⟨"Url", .named "Url", false, []⟩]

theorem distinctMembers_addressedPage :
    ∃ classes c v,
      (Resolution.resolveAll ⟨[addressedPage]⟩).run.run (Watch.start false none) =
        (.ok classes, v) ∧
      c ∈ classes ∧ c.properties.map (·.name) = ["URL", "Url"] ∧ ¬DistinctMembers c := by
  have hresolved := (Resolution.resolveAll_performs ⟨[addressedPage]⟩).of_quiet
  obtain ⟨c, hdeclared, hnames⟩ : ∃ c, Resolution.declaredClasses ⟨[addressedPage]⟩ = [c] ∧
      c.properties.map (·.name) = ["URL", "Url"] :=
    ⟨_, List.mergeSort_singleton _, by decide⟩
  have hc : c ∈ Resolution.declaredClasses ⟨[addressedPage]⟩ := by
    rw [hdeclared]
    exact List.mem_singleton.2 rfl
  have hsame : ¬((["URL", "Url"] : List String).map camelCase).Nodup := by decide
  refine ⟨_, c, _, hresolved, hc, hnames, fun h => hsame ?_⟩
  rw [← hnames, List.map_map]
  exact ((distinctMembers_iff hresolved hc).1 h).apart

example : camelCase "PipelineModelType" = typeMember := by decide

end Pipeline

end ContentLoom

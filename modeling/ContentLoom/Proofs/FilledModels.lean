import ContentLoom.Proofs.ComposedServices
import ContentLoom.Proofs.Dictionaries
import ContentLoom.Proofs.ReadBack
import ContentLoom.Proofs.RunsInTurn

/-!
# Models filled by a mapping step

The mapping step of a class converts the values of an item in turn and sets them
in the model it is given.  Names that the model has keep their places, new ones
come behind them by first occurrence, and of several properties with one name the
last decides the value.
-/

namespace ContentLoom.Pipeline

variable {σ : Type}

/-! ### Values of properties -/

/-- The value that the class asks for under a property of an item: the item's own where it is
copied, and otherwise what the registered converter makes of it. -/
def propertyValue (r : Registry σ) (context : Context σ) (item : ContentItem)
    (p : ContentProperty) : Run σ ModelValue :=
  match r.get? p.conversion with
  | none => pure (ModelValue.ofContent (item.property p.name))
  | some converter =>
    converter.convert context ⟨item, p.name, p.config⟩ (item.property p.name)

theorem property_of_mapping {r : Registry σ} {className : String} {p : ContentProperty}
    {m : PropertyMapping σ} (h : PropertyMapping.of r className p = .ok m) :
    m.property = p.name ∧
      ∀ context item, m.value context item = propertyValue r context item p := by
  unfold PropertyMapping.of at h
  split at h
  · rename_i hcopy
    cases h
    have hnone : r.get? p.conversion = none := by
      rw [p.conversion.isCopy_iff.1 hcopy]
      rfl
    refine ⟨rfl, fun context item => ?_⟩
    rw [propertyValue, hnone]
    rfl
  · split at h
    · rename_i converter hfound
      cases h
      refine ⟨rfl, fun context item => ?_⟩
      rw [propertyValue, hfound]
      rfl
    · cases h

/-! ### Filling -/

/-- The model with values set for some properties, one after another. -/
def fill (model : PipelineModel) (ps : List ContentProperty) (values : List ModelValue) :
    PipelineModel :=
  (ps.zip values).foldl (fun model e => model.set e.1.name e.2) model

theorem fill_cons (model : PipelineModel) (p : ContentProperty) (ps : List ContentProperty)
    (v : ModelValue) (values : List ModelValue) :
    fill model (p :: ps) (v :: values) = fill (model.set p.name v) ps values := rfl

theorem fill_eq (model : PipelineModel) (ps : List ContentProperty) (values : List ModelValue) :
    fill model ps values = ⟨model.kind, ((ps.map (·.name)).zip values).foldl
      (fun es e => Entries.set es e.1 e.2) model.properties⟩ := by
  induction ps generalizing model values with
  | nil =>
    cases model
    rfl
  | cons p ps ih =>
    cases values with
    | nil =>
      cases model
      rfl
    | cons v values =>
      rw [fill_cons, ih]
      rfl

/-- Distinct properties come into an empty model one behind the other. -/
theorem fill_ofKind (kind : ModelKind) {ps : List ContentProperty}
    (hnames : (ps.map (·.name)).Nodup) (values : List ModelValue) :
    fill (.ofKind kind) ps values = ⟨kind, (ps.map (·.name)).zip values⟩ := by
  have hfront : (((ps.map (·.name)).zip values).map Prod.fst).Nodup := by
    rw [List.zip_eq_zip_take_min, List.map_fst_zip (by simp)]
    exact hnames.sublist (List.take_sublist ..)
  rw [fill_eq]
  exact congrArg (PipelineModel.mk kind) (Entries.foldl_set_of_nodup _ [] hfront)

/-- The values are set when all of them are converted as when each is set at once. -/
theorem applyMappings_eq {r : Registry σ} {className : String} {ps : List ContentProperty}
    {mappings : List (PropertyMapping σ)}
    (h : List.Forall₂ (fun p m => PropertyMapping.of r className p = .ok m) ps mappings)
    (context : Context σ) (item : ContentItem) (model : PipelineModel) :
    applyMappings context item mappings model =
      ps.mapM (propertyValue r context item) >>= fun values => pure (fill model ps values) := by
  induction h generalizing model with
  | nil => rfl
  | cons hp _ ih =>
    obtain ⟨hname, hvalue⟩ := property_of_mapping hp
    simp only [applyMappings, hname, hvalue, ih, List.mapM_cons, bind_assoc, pure_bind, fill_cons]

/-- What a model is after values were set for some properties, one each. -/
structure Filled (ps : List ContentProperty) (values : List ModelValue)
    (before after : PipelineModel) : Prop where
  kind : after.kind = before.kind
  names : after.names =
    before.names ++ ((ps.map (·.name)).filter (· ∉ before.names)).eraseDups
  nodup : before.names.Nodup → after.names.Nodup
  last : ∀ (i : Nat) (p : ContentProperty), ps[i]? = some p →
    (∀ (j : Nat) (q : ContentProperty), i < j → ps[j]? = some q → q.name ≠ p.name) →
    ∃ v, values[i]? = some v ∧ after.get? p.name = some v
  others : ∀ name, name ∉ ps.map (·.name) → after.get? name = before.get? name

theorem get?_fill_of_not_mem {ps : List ContentProperty} {name : String}
    (h : name ∉ ps.map (·.name)) (model : PipelineModel) (values : List ModelValue) :
    (fill model ps values).get? name = model.get? name := by
  induction ps generalizing model values with
  | nil => rfl
  | cons p ps ih =>
    cases values with
    | nil => rfl
    | cons v values =>
      rw [List.map_cons, List.mem_cons, not_or] at h
      rw [fill_cons, ih h.2]
      exact Entries.get?_set_of_ne _ _ _ _ h.1

theorem get?_fill_of_last {ps : List ContentProperty} {values : List ModelValue}
    (hlength : values.length = ps.length) (model : PipelineModel) {i : Nat} {p : ContentProperty}
    (hp : ps[i]? = some p)
    (hlast : ∀ (j : Nat) (q : ContentProperty), i < j → ps[j]? = some q → q.name ≠ p.name) :
    ∃ v, values[i]? = some v ∧ (fill model ps values).get? p.name = some v := by
  induction ps generalizing model values i with
  | nil => cases hp
  | cons first ps ih =>
    obtain ⟨v, values, rfl⟩ := List.exists_cons_of_length_eq_add_one hlength
    rw [fill_cons]
    cases i with
    | zero =>
      obtain rfl : first = p := Option.some.inj hp
      have hrest : first.name ∉ ps.map (·.name) := by
        intro hmem
        obtain ⟨q, hq, hname⟩ := List.mem_map.1 hmem
        obtain ⟨j, hj⟩ := List.mem_iff_getElem?.1 hq
        exact hlast (j + 1) q (Nat.succ_pos j) hj hname
      refine ⟨v, rfl, ?_⟩
      rw [get?_fill_of_not_mem hrest]
      exact Entries.get?_set_self _ _ _
    | succ i =>
      exact ih (Nat.succ.inj hlength) _ hp fun j q hj hq => hlast (j + 1) q (Nat.succ_lt_succ hj) hq

theorem names_fill {ps : List ContentProperty} {values : List ModelValue}
    (hlength : values.length = ps.length) (model : PipelineModel) :
    (fill model ps values).names =
      model.names ++ ((ps.map (·.name)).filter (· ∉ model.names)).eraseDups := by
  induction ps generalizing model values with
  | nil =>
    rw [List.map_nil, List.filter_nil, List.eraseDups_nil, List.append_nil]
    rfl
  | cons p ps ih =>
    obtain ⟨v, values, rfl⟩ := List.exists_cons_of_length_eq_add_one hlength
    have hset : (model.set p.name v).names =
        if p.name ∈ model.names then model.names else model.names ++ [p.name] :=
      Entries.names_set ..
    rw [fill_cons, ih (Nat.succ.inj hlength), hset, List.map_cons]
    by_cases hold : p.name ∈ model.names
    · rw [if_pos hold, List.filter_cons_of_neg (by simpa using hold)]
    · rw [if_neg hold, List.filter_cons_of_pos (by simpa using hold), List.eraseDups_cons,
        List.filter_filter, List.append_assoc, List.singleton_append]
      congr 3
      refine List.filter_congr fun name _ => ?_
      by_cases hname : name = p.name <;> simp [hname]

/-- What setting one value keeps holds of the filled model. -/
theorem fill_keeps {P : PipelineModel → Prop}
    (hset : ∀ model name value, P model → P (model.set name value)) {model : PipelineModel}
    (hmodel : P model) (ps : List ContentProperty) (values : List ModelValue) :
    P (fill model ps values) := by
  induction ps generalizing model values with
  | nil => exact hmodel
  | cons p ps ih =>
    cases values with
    | nil => exact hmodel
    | cons v values => exact ih (hset model p.name v hmodel) values

theorem filled_fill {ps : List ContentProperty} {values : List ModelValue}
    (hlength : values.length = ps.length) (model : PipelineModel) :
    Filled ps values model (fill model ps values) where
  kind := fill_keeps (P := fun m => m.kind = model.kind) (fun _ _ _ h => h) rfl ps values
  names := names_fill hlength model
  nodup h := fill_keeps (P := fun m => m.names.Nodup)
    (fun _ name value h => Entries.nodup_set h name value) h ps values
  last _ _ := get?_fill_of_last hlength model
  others _ h := get?_fill_of_not_mem h model values

/-! ### The mapping step -/

theorem execute_mapping {r : Registry σ} {c : ContentClass} {step : MappingStep σ}
    (h : MappingStep.of r c = .ok step) (mode : Mode) (context : Context σ) (item : ContentItem)
    (model : PipelineModel) :
    step.toStep.execute mode context item model =
      c.properties.mapM (propertyValue r context item) >>= fun values =>
        pure (fill model c.properties values) := by
  obtain ⟨mappings, hmappings, hstep⟩ := Json.Document.bind_eq_ok_iff.1 h
  cases hstep
  exact applyMappings_eq (Json.Document.mapM_eq_ok_iff.1 hmappings) context item model

/-- The mapping step of a class gives a model exactly where the values of all properties are
converted in turn, and it fails exactly as the first conversion in the order of the class that
fails.  The names of the model keep their places and the new ones follow by first occurrence; a
name of the class has the value of the last property with this name, and every other name the value
that it had. -/
theorem mappingStep_fills {r : Registry σ} {c : ContentClass} {step : MappingStep σ}
    (h : MappingStep.of r c = .ok step) (mode : Mode) (context : Context σ) (item : ContentItem)
    (model : PipelineModel) (start : σ) :
    (∀ result last,
      (step.toStep.execute mode context item model).run.run start = (.ok result, last) →
        ∃ values, InTurn (propertyValue r context item) c.properties start values last ∧
          Filled c.properties values model result) ∧
    (∀ values last, InTurn (propertyValue r context item) c.properties start values last →
      ∃ result,
        (step.toStep.execute mode context item model).run.run start = (.ok result, last)) ∧
    ∀ failure last,
      (step.toStep.execute mode context item model).run.run start = (.error failure, last) ↔
        FailsInTurn (propertyValue r context item) c.properties start failure last := by
  rw [execute_mapping h]
  refine ⟨fun result last hrun => ?_, fun values last hvalues => ?_, fun failure last => ?_⟩
  · obtain ⟨values, hvalues, rfl⟩ := Run.bind_pure_ok_iff.1 hrun
    have hturn := mapM_ok_iff.1 hvalues
    exact ⟨values, hturn, filled_fill hturn.length_eq model⟩
  · exact ⟨_, Run.bind_pure_ok_iff.2 ⟨values, mapM_ok_iff.2 hvalues, rfl⟩⟩
  · rw [Run.bind_pure_error_iff, mapM_error_iff]

/-- A class that lists one name twice, first as a copy and last as a link. -/
def retitledPage : ContentClass where
  name := "Page"
  stableId := ⟨1⟩
  group := "Common"
  order := 0
  fullName := "Site.Page"
  properties := [.passthrough "Title" ⟨"string", true⟩,
    .converted "Lead" ⟨"Link", true⟩ (.known .link),
    .converted "Title" ⟨"Link", true⟩ (.known .link)]

/-- What the steps of an item see where nothing is nested in it. -/
def flatContext : Context Unit := ⟨none, 0, 16, fun _ => pure .base⟩

/-- The model of steps that ran before the mapping. -/
def notedModel : PipelineModel := ⟨.base, [("Id", .text "7"), ("Lead", .text "old")]⟩

theorem mappingStep_fills_retitled :
    ∃ (step : MappingStep Unit) (result : PipelineModel),
      MappingStep.of (.standard bareSite) retitledPage = .ok step ∧
      (step.toStep.execute .immediate flatContext ⟨"Site.Page", ⟨1⟩, [("Title", .url "/a")]⟩
        notedModel).run.run () = (.ok result, ()) ∧
      result.names = ["Id", "Lead", "Title"] ∧
      result.get? "Id" = some (.text "7") ∧
      result.get? "Lead" = some (.link none) ∧
      result.get? "Title" = some (.link (some "/a")) := by
  obtain ⟨step, hstep⟩ : ∃ step : MappingStep Unit,
      MappingStep.of (.standard bareSite) retitledPage = .ok step := ⟨_, rfl⟩
  obtain ⟨hfills, hruns, -⟩ := mappingStep_fills hstep .immediate flatContext
    ⟨"Site.Page", ⟨1⟩, [("Title", .url "/a")]⟩ notedModel ()
  have hturn : InTurn (propertyValue (.standard bareSite) flatContext
      ⟨"Site.Page", ⟨1⟩, [("Title", .url "/a")]⟩) retitledPage.properties ()
      [.text "/a", .link none, .link (some "/a")] () :=
    .cons rfl (.cons rfl (.cons rfl (.nil ())))
  obtain ⟨result, hrun⟩ := hruns _ _ hturn
  obtain ⟨values, hvalues, hfilled⟩ := hfills _ _ hrun
  obtain ⟨rfl, -⟩ := hturn.unique hvalues
  obtain ⟨lead, hlead, hleadLast⟩ := hfilled.last 1 _ rfl fun j q hj hq => by
    match j, hj, hq with
    | 2, _, hq =>
      cases hq
      decide
  obtain ⟨title, htitle, htitleLast⟩ := hfilled.last 2 _ rfl fun j q hj hq => by
    match j, hj, hq with
    | j + 3, _, hq => cases hq
  cases hlead
  cases htitle
  refine ⟨step, result, hstep, hrun, ?_, ?_, hleadLast, htitleLast⟩
  · rw [hfilled.names]
    decide
  · rw [hfilled.others "Id" (by decide)]
    rfl

end ContentLoom.Pipeline

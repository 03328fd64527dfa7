import ContentLoom.Generated.ModelClass
import ContentLoom.Proofs.Dispatch
import ContentLoom.Proofs.FilledModels
import ContentLoom.Proofs.StepFields

/-!
# Properties of a class in its model, its step and its runs

The model of a class declares its properties, its step assigns them, and a run of
a composed service sets them: three lists of the same names in the order of the
class.  The run copies the values that the step copies, and gives a converter the
arguments that the step passes to it.
-/

namespace ContentLoom.Generated

open Code

/-! ### Ends of texts -/

/-- The text ends with another. -/
def EndsWith (text tail : String) : Prop := tail.toList <:+ text.toList

theorem EndsWith.append (front tail : String) : EndsWith (front ++ tail) tail := by
  rw [EndsWith, String.toList_append]
  exact List.suffix_append ..

theorem EndsWith.tail {text front tail : String} (h : EndsWith text (front ++ tail)) :
    EndsWith text tail := by
  rw [EndsWith, String.toList_append] at h
  exact (List.suffix_append _ _).trans h

theorem EndsWith.unique {text tail other : String} (h : EndsWith text tail)
    (hother : EndsWith text other) (hlength : tail.length = other.length) : tail = other := by
  have hlengths : tail.toList.length = other.toList.length := by
    rw [String.length_toList, String.length_toList, hlength]
  have hsuffix := List.suffix_of_suffix_length_le h hother hlengths.le
  exact String.toList_injective (hsuffix.eq_of_length hlengths)

theorem EndsWith.cancel {text other tail : String} (h : EndsWith (text ++ tail) (other ++ tail)) :
    EndsWith text other := by
  obtain ⟨front, hchars⟩ := h
  simp only [String.toList_append, ← List.append_assoc] at hchars
  exact ⟨front, List.append_cancel_right hchars⟩

theorem EndsWith.length_le {text tail : String} (h : EndsWith text tail) :
    tail.length ≤ text.length := by
  rw [← String.length_toList, ← String.length_toList]
  exact List.IsSuffix.length_le h

/-! ### Declarations of the model -/

/-- What stands behind a property that can be set. -/
def accessors : String := " { get; set; }"

/-- Whether a property that can be set is declared here. -/
def declaresSettable : Write → Bool
  | .line text => accessors.toList.isSuffixOf text.toList
  | _ => false

/-- The declaration of a property with a type and a name. -/
def declares (type name : String) : Write := .line ("public " ++ type ++ " " ++ name ++ accessors)

/-- The last word before the accessors of a declaration. -/
def declaredName : Write → String
  | .line text => String.ofList
      ((text.toList.reverse.drop accessors.length).takeWhile (· ≠ ' ')).reverse
  | _ => ""

theorem declaresSettable_iff (text : String) :
    declaresSettable (.line text) = true ↔ EndsWith text accessors :=
  List.isSuffixOf_iff_suffix

theorem not_declaresSettable (front tail : String) (hlength : tail.length = closeBrace.length)
    (hne : tail ≠ closeBrace) :
    ¬declaresSettable (.line (front ++ tail)) = true := by
  intro hsettable
  have haccessors : accessors = (" " ++ openBrace ++ " get; set; ") ++ closeBrace := rfl
  rw [declaresSettable_iff, haccessors] at hsettable
  exact hne ((EndsWith.append front tail).unique hsettable.tail hlength)

theorem modelProperty_eq (p : ContentProperty) :
    .line (modelProperty p) = declares p.exposed.text p.name := rfl

theorem filter_properties (ps : List ContentProperty) :
    (ps.flatMap fun p => [Write.blank, .line (modelProperty p)]).filter declaresSettable =
      ps.map fun p => declares p.exposed.text p.name := by
  induction ps with
  | nil => rfl
  | cons p ps ih =>
    have hproperty : declaresSettable (.line (modelProperty p)) = true :=
      (declaresSettable_iff _).2 (.append ..)
    rw [List.flatMap_cons, List.filter_append, ih, List.map_cons,
      List.filter_cons_of_neg Bool.false_ne_true, List.filter_cons_of_pos hproperty, modelProperty_eq]
    rfl

theorem settables_modelClass (o : Options) (c : ContentClass) :
    (modelClass o c).filter declaresSettable =
      c.properties.map fun p => declares p.exposed.text p.name := by
  have husing (name : String) : ¬declaresSettable (.line ("using " ++ name ++ ";")) = true :=
    not_declaresSettable _ ";" (by decide) (by decide)
  have hns (name : String) : ¬declaresSettable (.line ("namespace " ++ name ++ ";")) = true :=
    not_declaresSettable _ ";" (by decide) (by decide)
  have htag (value : String) : ¬declaresSettable
      (.line ("public override string PipelineModelType => " ++ value ++ ";")) = true :=
    not_declaresSettable _ ";" (by decide) (by decide)
  have hsummary (type : String) : ¬declaresSettable
      (.line ("/// " ++ ("Pipeline model of <see cref=\"" ++ type ++ "\"/>"))) = true := by
    have hend : "\"/>" = "\"/" ++ ">" := rfl
    rw [hend, ← String.append_assoc, ← String.append_assoc]
    exact not_declaresSettable _ ">" (by decide) (by decide)
  have hhead : fileHead.filter declaresSettable = [] := by decide
  have hsummaries : (summary ("Pipeline model of <see cref=\"" ++ rooted c.fullName ++ "\"/>")).filter
      declaresSettable = [] := by
    rw [summary, List.filter_cons_of_neg (by decide), List.filter_cons_of_neg (hsummary _),
      List.filter_cons_of_neg (by decide)]
    rfl
  have hblank : [Write.blank].filter declaresSettable = [] := rfl
  have hbraces (header : String) (body : List Write) :
      (block header body).filter declaresSettable = body.filter declaresSettable := by
    simp [block, blockWith, declaresSettable]
  simp only [modelClass, file, usings, namespaceOf, List.filter_append, hhead, hsummaries, hblank,
    hbraces, List.map_cons, List.map_nil, List.filter_cons_of_neg (husing _),
    List.filter_cons_of_neg (hns _), List.filter_cons_of_neg (htag _), filter_properties]
  rfl

theorem declaredName_declares {type name : String} (h : ' ' ∉ name.toList) :
    declaredName (declares type name) = name := by
  have hlength : accessors.length = accessors.toList.reverse.length := by
    rw [List.length_reverse, String.length_toList]
  have hword : ∀ x ∈ name.toList.reverse, decide (x ≠ ' ') = true := by
    intro x hx
    exact decide_eq_true fun hblank => h (hblank ▸ List.mem_reverse.1 hx)
  simp only [declares, declaredName, String.toList_append, List.reverse_append]
  rw [hlength, List.drop_left, List.takeWhile_append_of_pos hword]
  simp

/-! ### Assignments of the step -/

/-- The header of the member that a step runs. -/
def executeHeader (o : Options) (c : ContentClass) : String :=
  "public override void Execute(" ++ rooted c.fullName ++ " content, " ++ rooted (modelType o c) ++
    " contentPipelineModel, IContentPipelineContext pipelineContext)"

/-- The assignment of a value to a property of the model. -/
def assigns (name value : String) : Write :=
  .line ("contentPipelineModel." ++ name ++ " = " ++ value ++ ";")

/-- The word behind the model in an assignment. -/
def assignedName : Write → String
  | .line text => String.ofList
      ((text.toList.drop "contentPipelineModel.".length).takeWhile (· ≠ ' '))
  | _ => ""

/-- The value that the step of a class assigns to a property. -/
def stepValue (c : ContentClass) (p : ContentProperty) : String :=
  valueExpression p (fieldFor (injections c) p)

/-- The value is the property of the content itself. -/
def CopiesContent (name value : String) : Prop := value = "content." ++ name

/-- The value is that of a converter which is given the field with the arguments for a property,
where there is a condition as its first branch. -/
def PassesArguments (name value : String) : Prop :=
  EndsWith value ("pipelineContext, " ++ name ++ "Config)") ∨
    EndsWith value ("pipelineContext, " ++ name ++ "Config) : null")

theorem openBlock_mem_configCode {p : ContentProperty} {header : String}
    (h : .openBlock header ∈ configCode p) : header = "" := by
  unfold configCode at h
  cases hconfig : p.config with
  | none => simp [hconfig] at h
  | some config => simpa [hconfig, blockWith] using h

/-- What stands in the step of a class before the member that it runs. -/
def stepFront (o : Options) (c : ContentClass) : List Write :=
  let header := "public partial class " ++ c.stepName ++ " : " ++
    rooted (under o "Pipelines.ContentPipelineStep") ++ "<" ++ rooted c.fullName ++ ", " ++
    rooted (modelType o c) ++ ">"
  fileHead ++ usings ["System.Collections.Generic", under o "Interfaces"] ++ [Write.blank] ++
    namespaceOf (o.stepsNamespace (groupName c)) ++ [Write.line header, Write.openBlock ""] ++
    c.properties.flatMap configCode ++
    ((injections c).map fun i => Write.line
      ("private readonly " ++ injectedType i.conversion ++ " _" ++ i.parameter ++ ";")) ++
    (if (injections c).isEmpty then [] else [Write.blank]) ++ stepConstructor c (injections c) ++
    [Write.blank]

theorem stepClass_eq (o : Options) (c : ContentClass) :
    stepClass o c = stepFront o c ++ (block (executeHeader o c)
      (c.properties.map fun p => assigns p.name (stepValue c p)) ++ [.closeBlock closeBrace]) := by
  simp only [stepClass, file, block, blockWith, stepFront, List.append_assoc, List.cons_append,
    List.nil_append, List.isEmpty_cons]
  rfl

theorem openBlock_mem_stepFront {o : Options} {c : ContentClass} {header : String}
    (h : .openBlock header ∈ stepFront o c) : header = "" := by
  have hblank : .openBlock header ∉
      (if (injections c).isEmpty then [] else [Write.blank]) := by
    split <;> simp
  have hopened : header = "" ∨ (∃ p ∈ c.properties, .openBlock header ∈ configCode p) ∨
      header = "" := by
    simpa [stepFront, fileHead, lines, usings, namespaceOf, stepConstructor, block, blockWith,
      indented, hblank] using h
  rcases hopened with hempty | ⟨p, -, hmem⟩ | hempty
  · exact hempty
  · exact openBlock_mem_configCode hmem
  · exact hempty

theorem memberBody_execute (o : Options) (c : ContentClass) :
    memberBody (executeHeader o c) (stepClass o c) =
      c.properties.map fun p => assigns p.name (stepValue c p) := by
  have hnamed : executeHeader o c ≠ "" := by
    unfold executeHeader
    rw [Ne, String.append_eq_empty_iff]
    rintro ⟨-, hlast⟩
    exact absurd hlast (by decide)
  rw [stepClass_eq]
  exact memberBody_block (fun hmem => hnamed (openBlock_mem_stepFront hmem)) (by simp [assigns])

theorem assignedName_assigns {name : String} (h : ' ' ∉ name.toList) (value : String) :
    assignedName (assigns name value) = name := by
  have hlength := ("contentPipelineModel.".length_toList).symm
  have hword : ∀ x ∈ name.toList, decide (x ≠ ' ') = true :=
    fun x hx => decide_eq_true fun hblank => h (hblank ▸ hx)
  simp only [assigns, assignedName, String.toList_append, List.append_assoc]
  rw [hlength, List.drop_left, List.takeWhile_append_of_pos hword]
  simp

/-! ### Values that a step assigns -/

theorem fieldFor_eq_none_iff {c : ContentClass} {p : ContentProperty} (hp : p ∈ c.properties) :
    fieldFor (injections c) p = none ↔ p.conversion = .copy := by
  have hgiven : p.conversion ∈ (injections c).map (·.conversion) ↔ p.conversion ≠ .copy := by
    rw [conversions_injections, ContentClass.mem_conversions]
    exact and_iff_left ⟨p, hp, rfl⟩
  have hfound : fieldFor (injections c) p = none ↔
      p.conversion ∉ (injections c).map (·.conversion) := by
    simp [fieldFor]
  rw [hfound, hgiven, not_not]

/-- The last arguments of the call of a converter: the context, and those for the property. -/
def lastArguments (p : ContentProperty) : String :=
  let config := match p.config with
    | some _ => ", " ++ configField p
    | none => ""
  "pipelineContext" ++ config ++ ")"

/-- A converted value ends with the last arguments of the call, or with the branch for a property
without a value behind them. -/
theorem valueExpression_some (p : ContentProperty) (field : String) :
    ∃ front, p.name.length + 8 < front.length ∧
      (valueExpression p (some field) = front ++ lastArguments p ∨
        valueExpression p (some field) = front ++ lastArguments p ++ " : null") := by
  let rest := ", content, nameof(content." ++ p.name ++ "), "
  have hrest : valueExpression p (some field) =
      field ++ ".GetValue(content." ++ p.name ++ rest ++ lastArguments p ∨
      valueExpression p (some field) =
        "content." ++ p.name ++ ".HasValue ? " ++ field ++ ".GetValue(content." ++ p.name ++
          ".Value" ++ rest ++ lastArguments p ++ " : null" := by
    have hcontext : "), pipelineContext" = "), " ++ "pipelineContext" := rfl
    unfold valueExpression lastArguments
    cases p.config <;> cases p.conversion <;> cases p.exposed.nullable <;>
      simp only [hcontext, String.append_assoc, rest, if_true, Bool.false_eq_true, if_false,
        true_or, or_true]
  rcases hrest with hvalue | hvalue
  · refine ⟨_, ?_, Or.inl hvalue⟩
    simp only [String.length_append, rest]
    have hlength : ".GetValue(content.".length = 18 := by decide
    omega
  · refine ⟨_, ?_, Or.inr hvalue⟩
    simp only [String.length_append, rest]
    have hlength : ".GetValue(content.".length = 18 := by decide
    omega

theorem copiesContent_iff {c : ContentClass} {p : ContentProperty} (hp : p ∈ c.properties) :
    CopiesContent p.name (stepValue c p) ↔ p.conversion = .copy := by
  rw [← fieldFor_eq_none_iff hp, CopiesContent, stepValue]
  cases hfield : fieldFor (injections c) p with
  | none => exact iff_of_true rfl rfl
  | some field =>
    refine iff_of_false (fun hcopy => ?_) nofun
    -- the front of a converted value alone is longer than the property of the content
    obtain ⟨front, hlength, hvalue⟩ := valueExpression_some p field
    have hcontent : ("content." ++ p.name).length = p.name.length + 8 := by
      rw [String.length_append]
      exact Nat.add_comm ..
    rw [hcopy] at hvalue
    rcases hvalue with hvalue | hvalue
    all_goals
      have hlengths := congrArg String.length hvalue
      rw [hcontent] at hlengths
      simp only [String.length_append] at hlengths
      omega

theorem not_passesArguments_copy (name : String) : ¬PassesArguments name ("content." ++ name) := by
  have hlong (rest : String) :
      ¬EndsWith ("content." ++ name) ("pipelineContext, " ++ name ++ rest) := by
    intro hends
    have hlength := hends.length_le
    simp only [String.length_append] at hlength
    have hcontent : "content.".length = 8 := by decide
    have hcontext : "pipelineContext, ".length = 17 := by decide
    omega
  rintro (hends | hends)
  · exact hlong _ hends
  · exact hlong _ hends

theorem passesArguments_valueExpression (p : ContentProperty) (field : String) :
    PassesArguments p.name (valueExpression p (some field)) ↔ p.config.isSome = true := by
  obtain ⟨front, -, hvalue⟩ := valueExpression_some p field
  have hnull : "Config) : null" = "Config)" ++ " : null" := rfl
  cases hconfig : p.config with
  | some config =>
    have hmark : "pipelineContext, " = "pipelineContext" ++ ", " := rfl
    have hclose : "Config)" = "Config" ++ ")" := rfl
    have hlast : lastArguments p = "pipelineContext, " ++ p.name ++ "Config)" := by
      unfold lastArguments configField
      rw [hconfig, hmark, hclose]
      simp only [String.append_assoc]
    refine iff_of_true ?_ rfl
    rw [PassesArguments, hnull, ← String.append_assoc, ← hlast]
    rcases hvalue with hvalue | hvalue
    · rw [hvalue]
      exact Or.inl (.append ..)
    · rw [hvalue, String.append_assoc]
      exact Or.inr (.append ..)
  | none =>
    have hlast : lastArguments p = "pipelineC" ++ "ontext)" := by
      unfold lastArguments
      rw [hconfig]
      rfl
    have hcall : EndsWith (front ++ lastArguments p) "ontext)" := by
      rw [hlast, ← String.append_assoc]
      exact .append ..
    -- the call ends with the context, or its branch with null: neither ends a field of arguments
    refine iff_of_false (fun hpasses => ?_) Bool.false_ne_true
    rw [PassesArguments, hnull, ← String.append_assoc] at hpasses
    rcases hvalue with hvalue | hvalue <;> rw [hvalue] at hpasses
    · rcases hpasses with hpasses | hpasses
      · exact absurd (hcall.unique hpasses.tail (by decide)) (by decide)
      · exact absurd (hcall.unique hpasses.tail (by decide)) (by decide)
    · rcases hpasses with hpasses | hpasses
      · exact absurd ((EndsWith.append _ " : null").unique hpasses.tail (by decide)) (by decide)
      · exact absurd (hcall.unique hpasses.cancel.tail (by decide)) (by decide)

/-- The step passes the arguments of a property exactly where it is converted and has some. -/
theorem passesArguments_iff {c : ContentClass} {p : ContentProperty} (hp : p ∈ c.properties) :
    PassesArguments p.name (stepValue c p) ↔ p.conversion ≠ .copy ∧ p.config.isSome = true := by
  rw [Ne, ← fieldFor_eq_none_iff hp, stepValue]
  cases hfield : fieldFor (injections c) p with
  | none => exact iff_of_false (not_passesArguments_copy p.name) fun h => h.1 rfl
  | some field =>
    rw [passesArguments_valueExpression]
    exact (and_iff_right nofun).symm

/-- What the generated code does with the properties of a class: the model declares them with their
types, and the step assigns each its value, in the order of the class and none besides. -/
structure WritesProperties (o : Options) (c : ContentClass) : Prop where
  declared : (modelClass o c).filter declaresSettable =
    c.properties.map fun p => declares p.exposed.text p.name
  assigned : memberBody (executeHeader o c) (stepClass o c) =
    c.properties.map fun p => assigns p.name (stepValue c p)
  /-- Names of one word can be read from the lines alone. -/
  words : (∀ p ∈ c.properties, ' ' ∉ p.name.toList) →
    ((modelClass o c).filter declaresSettable).map declaredName = c.properties.map (·.name) ∧
    (memberBody (executeHeader o c) (stepClass o c)).map assignedName = c.properties.map (·.name)

theorem writesProperties (o : Options) (c : ContentClass) : WritesProperties o c where
  declared := settables_modelClass o c
  assigned := memberBody_execute o c
  words := by
    intro hwords
    rw [settables_modelClass, memberBody_execute, List.map_map, List.map_map]
    exact ⟨List.map_congr_left fun p hp => declaredName_declares (hwords p hp),
      List.map_congr_left fun p hp => assignedName_assigns (hwords p hp) _⟩

end ContentLoom.Generated

namespace ContentLoom.Pipeline

open Generated

variable {σ : Type}

/-! ### What the text of a step runs -/

instance (name value : String) : Decidable (CopiesContent name value) :=
  inferInstanceAs (Decidable (value = _))

instance (name value : String) : Decidable (Generated.PassesArguments name value) :=
  inferInstanceAs (Decidable (_ <:+ _ ∨ _ <:+ _))

/-- What the step that is generated for a class makes of a property of an item, as its text says:
the value of the property where the text copies that, and otherwise what the converter makes of it,
which is given the arguments where the text passes them. -/
def stepRun (r : Registry σ) (c : ContentClass) (context : Context σ) (item : ContentItem)
    (p : ContentProperty) : Run σ ModelValue :=
  let raw := item.property p.name
  let config := if Generated.PassesArguments p.name (stepValue c p) then p.config else none
  if CopiesContent p.name (stepValue c p) then pure (.ofContent raw)
  else
    match r.get? p.conversion with
    | some converter => converter.convert context ⟨item, p.name, config⟩ raw
    | none => throw (.missingConverter p.conversion.text c.fullName p.name)

theorem isSome_get?_of_mapping {r : Registry σ} {className : String} {p : ContentProperty}
    {m : PropertyMapping σ} (h : PropertyMapping.of r className p = .ok m) :
    (r.get? p.conversion).isSome = true ↔ p.conversion ≠ .copy := by
  rw [Ne, ← p.conversion.isCopy_iff]
  unfold PropertyMapping.of at h
  split at h
  · rename_i hcopy
    rw [p.conversion.isCopy_iff.1 hcopy]
    exact iff_of_false Bool.false_ne_true (not_not_intro rfl)
  · rename_i hconverted
    split at h
    · rename_i converter hfound
      rw [hfound]
      exact iff_of_true rfl hconverted
    · cases h

theorem propertyValue_eq_stepRun {r : Registry σ} {c : ContentClass} {p : ContentProperty}
    {m : PropertyMapping σ} (hp : p ∈ c.properties)
    (h : PropertyMapping.of r c.fullName p = .ok m) (context : Context σ) (item : ContentItem) :
    propertyValue r context item p = stepRun r c context item p := by
  -- as the mapping was found, the conversions without a converter are the copies
  have hgiven := isSome_get?_of_mapping h
  unfold propertyValue stepRun
  cases hfound : r.get? p.conversion with
  | none =>
    rw [hfound] at hgiven
    have hcopy : p.conversion = .copy := not_not.1 (mt hgiven.2 Bool.false_ne_true)
    exact (if_pos ((copiesContent_iff hp).2 hcopy)).symm
  | some converter =>
    rw [hfound] at hgiven
    have hconverted : p.conversion ≠ .copy := hgiven.1 rfl
    have hconfig : (if Generated.PassesArguments p.name (stepValue c p) then p.config else none) =
        p.config := by
      split
      · rfl
      · rename_i hnot
        rw [passesArguments_iff hp, not_and, Option.not_isSome_iff_eq_none] at hnot
        exact (hnot hconverted).symm
    simp only [hconfig, if_neg (mt (copiesContent_iff hp).1 hconverted)]

theorem exists_mapping {r : Registry σ} {c : ContentClass} {step : MappingStep σ}
    (h : MappingStep.of r c = .ok step) {p : ContentProperty} (hp : p ∈ c.properties) :
    ∃ m, PropertyMapping.of r c.fullName p = .ok m := by
  obtain ⟨mappings, hmappings, -⟩ := Json.Document.bind_eq_ok_iff.1 h
  obtain ⟨m, -, hm⟩ := exists_of_forall₂ (Json.Document.mapM_eq_ok_iff.1 hmappings) hp
  exact ⟨m, hm⟩

theorem mapM_stepRun {r : Registry σ} {c : ContentClass} {step : MappingStep σ}
    (h : MappingStep.of r c = .ok step) (context : Context σ) (item : ContentItem) :
    c.properties.mapM (propertyValue r context item) =
      c.properties.mapM (stepRun r c context item) := by
  refine mapM_congr fun p hp => ?_
  obtain ⟨m, hm⟩ := exists_mapping h hp
  exact propertyValue_eq_stepRun hp hm context item

/-! ### What converters are asked -/

/-- The converter notes what it is asked, behind all that was noted before. -/
def Converter.Notes (notes : σ → List Request) (converter : Converter σ) : Prop :=
  ∀ context request raw start,
    notes ((converter.convert context request raw).run.run start).2 = notes start ++ [request]

/-- What the registered converters are asked for some properties of an item. -/
def requests (r : Registry σ) (item : ContentItem) (ps : List ContentProperty) : List Request :=
  (ps.filter fun p => (r.get? p.conversion).isSome).map fun p => ⟨item, p.name, p.config⟩

theorem notes_inTurn {r : Registry σ} {notes : σ → List Request} {context : Context σ}
    {item : ContentItem} {ps : List ContentProperty} {start last : σ} {values : List ModelValue}
    (hnotes : ∀ p ∈ ps, ∀ converter, r.get? p.conversion = some converter → converter.Notes notes)
    (h : InTurn (propertyValue r context item) ps start values last) :
    notes last = notes start ++ requests r item ps := by
  induction h with
  | nil => exact (List.append_nil _).symm
  | @cons p ps y ys start next last head tail ih =>
    obtain ⟨hfirst, hrest⟩ := List.forall_mem_cons.1 hnotes
    unfold propertyValue at head
    cases hfound : r.get? p.conversion with
    | none =>
      rw [hfound] at head
      cases head
      rw [ih hrest, requests, requests, List.filter_cons_of_neg (by simp [hfound])]
    | some converter =>
      rw [hfound] at head
      have hnoted := hfirst converter hfound context ⟨item, p.name, p.config⟩
        (item.property p.name) start
      rw [head] at hnoted
      rw [ih hrest, hnoted, requests, requests, List.filter_cons_of_pos (by simp [hfound]),
        List.map_cons, List.append_assoc, List.singleton_append]

/-- A run of an item of the class, in which converters were asked and which gave a model, does with
the properties what the generated step does: no converter is asked for a property that the step
copies, and the model has its value; and a converter is given arguments for a property where the step
passes them. -/
structure RunsAlike (c : ContentClass) (item : ContentItem) (asked : List Request)
    (model : PipelineModel) : Prop where
  copied : ∀ p ∈ c.properties, CopiesContent p.name (stepValue c p) ↔
    p.name ∉ asked.map (·.property) ∧
      model.get? p.name = some (.ofContent (item.property p.name))
  arguments : ∀ p ∈ c.properties, Generated.PassesArguments p.name (stepValue c p) ↔
    ∃ request ∈ asked, request.property = p.name ∧ request.config.isSome = true
  /-- What a converter is asked, it is asked for a property of the class. -/
  given : ∀ request ∈ asked, ∃ p ∈ c.properties, request = ⟨item, p.name, p.config⟩

theorem requested_iff {r : Registry σ} {item : ContentItem} {ps : List ContentProperty}
    (hnames : (ps.map (·.name)).Nodup) {p : ContentProperty} (hp : p ∈ ps) (request : Request) :
    request ∈ requests r item ps ∧ request.property = p.name ↔
      request = ⟨item, p.name, p.config⟩ ∧ (r.get? p.conversion).isSome = true := by
  rw [requests, List.mem_map]
  constructor
  · rintro ⟨⟨q, hq, rfl⟩, hname⟩
    obtain ⟨hq, hsome⟩ := List.mem_filter.1 hq
    obtain rfl := List.inj_on_of_nodup_map hnames hq hp hname
    exact ⟨rfl, hsome⟩
  · rintro ⟨rfl, hsome⟩
    exact ⟨⟨p, List.mem_filter.2 ⟨hp, hsome⟩, rfl⟩, rfl⟩

theorem runsAlike_of_requests {r : Registry σ} {c : ContentClass} {item : ContentItem}
    {model : PipelineModel} (hnames : (c.properties.map (·.name)).Nodup)
    (hgiven : ∀ p ∈ c.properties, (r.get? p.conversion).isSome = true ↔ p.conversion ≠ .copy)
    (hcopied : ∀ p ∈ c.properties, r.get? p.conversion = none →
      model.get? p.name = some (.ofContent (item.property p.name))) :
    RunsAlike c item (requests r item c.properties) model where
  copied p hp := by
    have hasked : p.name ∈ (requests r item c.properties).map (·.property) ↔
        p.conversion ≠ .copy := by
      simp only [List.mem_map, requested_iff hnames hp, exists_eq_left, hgiven p hp]
    rw [copiesContent_iff hp, hasked, Ne, not_not]
    refine (and_iff_left_of_imp fun hcopy => hcopied p hp ?_).symm
    rw [hcopy]
    rfl
  arguments p hp := by
    simp only [passesArguments_iff hp, ← and_assoc, requested_iff hnames hp, hgiven p hp]
    simp only [and_assoc, exists_eq_left]
  given request hrequest := by
    obtain ⟨p, hp, rfl⟩ := List.mem_map.1 hrequest
    exact ⟨p, List.mem_of_mem_filter hp, rfl⟩

/-! ### Runs of a service -/

/-- What a service does with the properties of a class that is the one for its type and has no steps
but its mapping: the run of an item is what the text of the generated step says, property by
property, and every model has the properties of the class in their order. -/
structure ServesProperties (r : Registry σ) (c : ContentClass) (s : Service σ) : Prop where
  runs : ∀ (mode : Mode) (item : ContentItem) (language : Option String),
    item.contentType = c.fullName →
    s.execute mode item language = do
      let values ← c.properties.mapM (stepRun r c (s.contextAbove language s.maxDepth) item)
      pure ⟨.ofClass c.discriminant, (c.properties.map (·.name)).zip values⟩
  names : ∀ (mode : Mode) (item : ContentItem) (language : Option String),
    item.contentType = c.fullName →
    Gives (s.execute mode item language) fun model => model.names = c.properties.map (·.name)
  /-- Where the converters note what they are asked, a run shows that it does what the step does. -/
  alike : ∀ notes : σ → List Request,
    (∀ p ∈ c.properties, ∀ converter, r.get? p.conversion = some converter →
      converter.Notes notes) →
    ∀ (mode : Mode) (item : ContentItem) (language : Option String) (start : σ)
      (model : PipelineModel) (last : σ), item.contentType = c.fullName →
      (s.execute mode item language).run.run start = (.ok model, last) →
      ∃ asked, notes last = notes start ++ asked ∧ RunsAlike c item asked model

theorem get?_zip {kind : ModelKind} {ps : List ContentProperty} {values : List ModelValue}
    (hlength : values.length = ps.length) (hnames : (ps.map (·.name)).Nodup) {i : Nat}
    {p : ContentProperty} (hp : ps[i]? = some p) {v : ModelValue} (hv : values[i]? = some v) :
    (PipelineModel.mk kind ((ps.map (·.name)).zip values)).get? p.name = some v := by
  have hall : Entries.names ((ps.map (·.name)).zip values) = ps.map (·.name) :=
    List.map_fst_zip (by rw [List.length_map, hlength])
  have hdistinct : (Entries.names ((ps.map (·.name)).zip values)).Nodup := by rwa [hall]
  refine Entries.get?_of_mem hdistinct (List.mem_iff_getElem?.2 ⟨i, ?_⟩)
  rw [List.getElem?_zip_eq_some, List.getElem?_map, hp]
  exact ⟨rfl, hv⟩

section

variable {classes : List ContentClass} {registry : Registry σ} {maxDepth : Nat}
  {added : List (Addition σ)} {s : Service σ} {c : ContentClass}
  (hclass : classFor? classes c.fullName = some c) (hshared : sharedSteps added = [])
  (hown : stepsFor c.fullName added = [])
  (hbuilt : (added.foldl Composition.add (.ofClasses classes registry maxDepth)).build = .ok s)
include hclass hshared hown hbuilt

theorem execute_own :
    ∃ mapping, MappingStep.of registry c = .ok mapping ∧
      ∀ (mode : Mode) (item : ContentItem) (language : Option String),
        item.contentType = c.fullName →
        s.execute mode item language =
          mapping.toStep.execute mode (s.contextAbove language s.maxDepth) item
            (.ofKind (.ofClass c.discriminant)) := by
  obtain ⟨-, hsteps, hprepare⟩ := prepare_last hbuilt
  have hone (item : ContentItem) (htype : item.contentType = c.fullName) :
      ∃ mapping, MappingStep.of registry c = .ok mapping ∧
        s.prepare item = (.ofKind (.ofClass c.discriminant), [mapping.toStep]) := by
    have hitem := hprepare item
    rw [htype, hclass] at hitem
    obtain ⟨mapping, hmapping, hpair⟩ := hitem
    have hsorted : Step.inOrder [mapping.toStep] = [mapping.toStep] := List.mergeSort_singleton _
    rw [hown, hsorted] at hpair
    exact ⟨mapping, hmapping, hpair⟩
  have hnone : s.shared = [] := by
    rw [hsteps, hshared]
    exact List.mergeSort_nil
  obtain ⟨mapping, hmapping, -⟩ := hone (.ofType c.fullName) rfl
  refine ⟨mapping, hmapping, fun mode item language htype => ?_⟩
  obtain ⟨other, hother, hpair⟩ := hone item htype
  obtain rfl := Except.ok.inj (hother.symm.trans hmapping)
  unfold Service.execute
  rw [Service.runAbove_eq_runIn, Service.runIn, hpair, hnone]
  exact bind_pure _

variable (hnames : (c.properties.map (·.name)).Nodup)
include hnames

theorem execute_values (mode : Mode) (item : ContentItem) (language : Option String)
    (htype : item.contentType = c.fullName) :
    s.execute mode item language =
      c.properties.mapM (propertyValue registry (s.contextAbove language s.maxDepth) item) >>=
        fun values => pure ⟨.ofClass c.discriminant, (c.properties.map (·.name)).zip values⟩ := by
  obtain ⟨mapping, hmapping, hexecute⟩ := execute_own hclass hshared hown hbuilt
  rw [hexecute mode item language htype, execute_mapping hmapping]
  simp only [fill_ofKind _ hnames]

theorem execute_ok {mode : Mode} {item : ContentItem} {language : Option String} {start last : σ}
    {model : PipelineModel} (htype : item.contentType = c.fullName)
    (hrun : (s.execute mode item language).run.run start = (.ok model, last)) :
    ∃ values, InTurn (propertyValue registry (s.contextAbove language s.maxDepth) item)
        c.properties start values last ∧
      model = ⟨.ofClass c.discriminant, (c.properties.map (·.name)).zip values⟩ := by
  rw [execute_values hclass hshared hown hbuilt hnames mode item language htype] at hrun
  obtain ⟨values, hvalues, hmodel⟩ := Run.bind_pure_ok_iff.1 hrun
  exact ⟨values, mapM_ok_iff.1 hvalues, hmodel⟩

theorem servesProperties : ServesProperties registry c s where
  runs mode item language htype := by
    obtain ⟨mapping, hmapping, -⟩ := execute_own hclass hshared hown hbuilt
    rw [execute_values hclass hshared hown hbuilt hnames mode item language htype,
      mapM_stepRun hmapping]
  names mode item language htype := by
    intro start model last hrun
    obtain ⟨values, hturn, rfl⟩ := execute_ok hclass hshared hown hbuilt hnames htype hrun
    exact List.map_fst_zip (by rw [List.length_map, hturn.length_eq])
  alike notes hnotes mode item language start model last htype hrun := by
    obtain ⟨mapping, hmapping, -⟩ := execute_own hclass hshared hown hbuilt
    obtain ⟨values, hturn, rfl⟩ := execute_ok hclass hshared hown hbuilt hnames htype hrun
    refine ⟨_, notes_inTurn hnotes hturn, runsAlike_of_requests hnames (fun p hp => ?_) ?_⟩
    · obtain ⟨m, hm⟩ := exists_mapping hmapping hp
      exact isSome_get?_of_mapping hm
    · intro p hp hnone
      obtain ⟨i, hi⟩ := List.mem_iff_getElem?.1 hp
      have hcopy : propertyValue registry (s.contextAbove language s.maxDepth) item p =
          pure (.ofContent (item.property p.name)) := by
        rw [propertyValue, hnone]
      exact get?_zip hturn.length_eq hnames hi (hturn.getElem?_of_pure hi hcopy)

end

/-! ### All three -/

/-- The model of a class with distinct properties declares them, its step assigns them, and every
run that maps an item of the class and succeeds sets them, each in the order of the class.  The run
makes of each property what the text of the step says: it copies what the step copies and asks no
converter for it, and it gives a converter arguments where the step passes them. -/
theorem properties_agree (o : Options) {c : ContentClass}
    (hnames : (c.properties.map (·.name)).Nodup) :
    WritesProperties o c ∧
      ∀ (σ : Type) (classes : List ContentClass) (registry : Registry σ) (maxDepth : Nat)
        (added : List (Addition σ)) (s : Service σ),
        classFor? classes c.fullName = some c → sharedSteps added = [] →
        stepsFor c.fullName added = [] →
        (added.foldl Composition.add (.ofClasses classes registry maxDepth)).build = .ok s →
        ServesProperties registry c s :=
  ⟨writesProperties o c, fun _ _ _ _ _ _ hclass hshared hown hbuilt =>
    servesProperties hclass hshared hown hbuilt hnames⟩

/-- The arguments of a converter with one entry. -/
def widthArguments : ConverterConfig := .ofEntries [("width", "100")]

/-- A class with arguments for a copied property and for a converted one, and with an enumeration
that may have no value. -/
def mixedPage : ContentClass where
  name := "Page"
  stableId := ⟨1⟩
  group := "Common"
  order := 0
  fullName := "Site.Page"
  properties := [
    ⟨"Title", ⟨"string", false⟩, .copy, some widthArguments⟩,
    ⟨"Color", ⟨"string", true⟩, .enumeration "Site.Color", none⟩,
    ⟨"Image", ⟨"string", true⟩, .custom "Site.ImageConverter", some widthArguments⟩]

/-- A converter that notes what it is asked. -/
def notingConverter : Converter (List Request) where
  name := "NotingConverter"
  convert _ request _ := do
    modify (· ++ [request])
    pure (.text request.property)

/-- The converter for images and for all enumerations. -/
def notingRegistry : Registry (List Request) :=
  ⟨[(.custom "Site.ImageConverter", notingConverter)], some notingConverter⟩

/-- A page of this class that has a title only. -/
def mixedItem : ContentItem := ⟨"Site.Page", ⟨1⟩, [("Title", .text "Home")]⟩

theorem properties_agree_mixedPage :
    ∃ s model asked,
      (([] : List (Addition (List Request))).foldl Composition.add
        (.ofClasses [mixedPage] notingRegistry 0)).build = .ok s ∧
      (s.execute .immediate mixedItem none).run.run [] = (.ok model, asked) ∧
      model.names = ["Title", "Color", "Image"] ∧
      ((modelClass .standard mixedPage).filter declaresSettable).map declaredName =
        ["Title", "Color", "Image"] ∧
      (memberBody (executeHeader .standard mixedPage) (stepClass .standard mixedPage)).map
        assignedName = ["Title", "Color", "Image"] ∧
      asked = [⟨mixedItem, "Color", none⟩, ⟨mixedItem, "Image", some widthArguments⟩] ∧
      RunsAlike mixedPage mixedItem asked model := by
  have hnames : (mixedPage.properties.map (·.name)).Nodup := by decide
  have hwords : ∀ p ∈ mixedPage.properties, ' ' ∉ p.name.toList := by decide
  have hclass : classFor? [mixedPage] mixedPage.fullName = some mixedPage := by decide
  obtain ⟨s, hbuilt⟩ : ∃ s, (([] : List (Addition (List Request))).foldl Composition.add
      (.ofClasses [mixedPage] notingRegistry 0)).build = .ok s := ⟨_, rfl⟩
  obtain ⟨hwrites, hserves⟩ := properties_agree .standard hnames
  have hservice := hserves _ [mixedPage] notingRegistry 0 [] s hclass rfl rfl hbuilt
  have hrun : (s.execute .immediate mixedItem none).run.run [] =
      (.ok ⟨.ofClass "Common.Page",
        [("Title", .text "Home"), ("Color", .text "Color"), ("Image", .text "Image")]⟩,
      [⟨mixedItem, "Color", none⟩, ⟨mixedItem, "Image", some widthArguments⟩]) := by
    rw [execute_values hclass rfl rfl hbuilt hnames .immediate mixedItem none rfl]
    rfl
  have hnotes : ∀ p ∈ mixedPage.properties, ∀ converter,
      notingRegistry.get? p.conversion = some converter → converter.Notes id := by
    have hnoting : notingConverter.Notes id := fun _ _ _ _ => rfl
    have hcopied : notingRegistry.get? .copy = none := rfl
    have hcolor : notingRegistry.get? (.enumeration "Site.Color") = some notingConverter := rfl
    have himage : notingRegistry.get? (.custom "Site.ImageConverter") = some notingConverter := rfl
    simp [mixedPage, hcopied, hcolor, himage, hnoting]
  obtain ⟨asked, hasked, halike⟩ :=
    hservice.alike id hnotes .immediate mixedItem none [] _ _ rfl hrun
  obtain rfl : _ = asked := hasked
  exact ⟨s, _, _, hbuilt, hrun, hservice.names .immediate mixedItem none rfl [] _ _ hrun,
    (hwrites.words hwords).1, (hwrites.words hwords).2, rfl, halike⟩

end ContentLoom.Pipeline

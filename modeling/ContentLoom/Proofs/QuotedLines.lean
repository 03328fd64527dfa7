import ContentLoom.Proofs.GeneratedFiles
import ContentLoom.Proofs.GroupNamespaces
import ContentLoom.Proofs.LineEnds
import ContentLoom.Proofs.QuotedTexts
import ContentLoom.Proofs.StepFields
import ContentLoom.Proofs.TagDispatch

/-!
# Lines with quoted texts

The generated code takes over names as they are, and it quotes the groups of the
classes and the arguments of their converters.  Where no name has a line end, a
line can be broken by a quoted text alone, and only in three kinds of file: the
converter of models and the models by a group, and a step by the arguments of
its converters.
-/

namespace ContentLoom

namespace Naming

open Code Text

/-! ### Words are on one line -/

theorem not_lineEnd_of_isWordChar {c : Char} (h : isWordChar c = true) : isLineEnd c = false := by
  have hends : (lineEnds.all fun e => !isWordChar e) = true := by decide +kernel
  exact not_lineEnd_of_all hends h

theorem WordText.oneLine {s : String} (h : WordText s) : OneLine s :=
  fun c hc => not_lineEnd_of_isWordChar (h c hc)

/-- No line end stands where a run of lower case moves its characters to. -/
theorem not_lineEnd_of_lowerRun {r : CaseRun} (hr : r ∈ lowerRuns) {e : Char} (he : e ∈ lineEnds)
    {n : Nat} (hfirst : r.first ≤ n) (hlast : n ≤ r.last) :
    ((n : Int) + r.distance).toNat ≠ e.toNat := by
  have hall : (lowerRuns.all fun r => lineEnds.all fun e =>
      RangeTable.misses [((r.first + r.distance).toNat, (r.last + r.distance).toNat)]
        e.toNat e.toNat) = true := by decide +kernel
  have hmisses := List.all_eq_true.1 (List.all_eq_true.1 hall r hr) e he
  simp only [RangeTable.misses, Bool.or_eq_true, Nat.blt_eq, Bool.and_true] at hmisses
  omega

theorem not_lineEnd_lowerHead {c : Char} (h : isLineEnd c = false) :
    isLineEnd (lowerHead c) = false := by
  rcases CaseRun.apply_eq_or lowerRuns c.toNat with hkept | ⟨r, hr, hfirst, hlast, hmoved⟩
  · rwa [lowerHead, hkept, Char.ofNat_toNat]
  · rw [lowerHead, hmoved]
    rcases toNat_ofNat ((c.toNat : Int) + r.distance).toNat with hvalue | hzero
    · refine Bool.eq_false_iff.2 fun hend => ?_
      have hmem := List.contains_iff_mem.1 hend
      exact not_lineEnd_of_lowerRun hr hmem hfirst hlast hvalue.symm
    · -- the value is no character, and what stands for such values is no line end
      have hnull : Char.ofNat ((c.toNat : Int) + r.distance).toNat = '\x00' :=
        Char.toNat_inj.1 hzero
      rw [hnull]
      decide

theorem oneLine_lowerFirst {s : String} (h : OneLine s) : OneLine (lowerFirst s) := by
  unfold lowerFirst
  unfold OneLine at h
  split
  · decide
  · rename_i c cs hchars
    rw [hchars] at h
    obtain ⟨hc, hcs⟩ := List.forall_mem_cons.1 h
    have hlowered : ∀ d ∈ toLower c, isLineEnd d = false := by
      have hdot : isLineEnd '\u0307' = false := by decide
      unfold toLower
      split <;> simp [not_lineEnd_lowerHead hc, hdot]
    rw [OneLine, String.toList_ofList]
    exact List.forall_mem_append.2 ⟨hlowered, hcs⟩

theorem wordText_memberForm (c : ContentClass) {id : String} (hid : WordText id) :
    WordText (memberForm c id) :=
  ((wordText_sanitize c.group).append hid).append (wordText_sanitize c.name)

theorem wordText_pipelineMembers {classes : List ContentClass} {member : String}
    (h : member ∈ pipelineMembers classes) : WordText member := by
  have hforms (c : ContentClass) :
      WordText (memberForm c c.stableId.short) ∧ WordText (memberForm c c.stableId.hex) :=
    ⟨wordText_memberForm c (wordText_short _), wordText_memberForm c (wordText_hex _)⟩
  unfold pipelineMembers at h
  refine wordText_claimEach ?_ [] classes member h
  exact hforms

end Naming

namespace Generated

open Code Naming

/-! ### Names of a class -/

/-- The names of a class that generated code takes over are on one line: its own, those of its
properties, and the types of these. -/
structure OneLineNames (c : ContentClass) : Prop where
  name : OneLine c.name
  fullName : OneLine c.fullName
  properties : ∀ p ∈ c.properties,
    OneLine p.name ∧ OneLine p.exposed.text ∧ OneLine p.conversion.text

/-! ### Namespaces and types -/

section Names

variable {o : Options} {s : String}

@[simp] theorem oneLine_under :
    OneLine (under o s) ↔ OneLine o.sharedNamespace ∧ OneLine s := by
  simp (disch := exact Printable.of_eq rfl rfl) [under]

@[simp] theorem oneLine_interfaceNamespace :
    OneLine o.interfaceNamespace ↔ OneLine o.sharedNamespace := by
  simp (disch := exact Printable.of_eq rfl rfl) [Options.interfaceNamespace]

@[simp] theorem oneLine_modelsNamespace :
    OneLine (o.modelsNamespace s) ↔ OneLine o.sharedNamespace ∧ OneLine s := by
  simp (disch := exact Printable.of_eq rfl rfl) [Options.modelsNamespace]

@[simp] theorem oneLine_stepsNamespace :
    OneLine (o.stepsNamespace s) ↔ OneLine o.sharedNamespace ∧ OneLine s := by
  simp (disch := exact Printable.of_eq rfl rfl) [Options.stepsNamespace]

@[simp] theorem oneLine_rooted : OneLine (rooted s) ↔ OneLine s := by
  simp (disch := exact Printable.of_eq rfl rfl) [rooted]

@[simp] theorem oneLine_groupName (c : ContentClass) : OneLine (groupName c) :=
  (wordText_sanitize c.group).oneLine

@[simp] theorem oneLine_contract (k : KnownConverter) : OneLine k.contract := by
  cases k <;>
    simp (disch := exact Printable.of_eq rfl rfl) [KnownConverter.contract, KnownConverter.stem]

@[simp] theorem oneLine_implementation (k : KnownConverter) : OneLine k.implementation := by
  cases k <;>
    simp (disch := exact Printable.of_eq rfl rfl) [KnownConverter.implementation,
      KnownConverter.stem]

theorem oneLine_contractTypes (k : KnownConverter) :
    OneLine (contractTypes k).1 ∧ OneLine (contractTypes k).2 := by
  cases k <;> simp (disch := exact Printable.of_eq rfl rfl) [contractTypes]

end Names

/-! ### Files that depend on no class -/

theorem oneLineTexts_construction {name : String} {given : List (String × String)}
    (hname : OneLine name) (hgiven : ∀ g ∈ given, OneLine g.1 ∧ OneLine g.2) :
    OneLineTexts (construction name given) := by
  have hparameters : OneLine (", ".intercalate (given.map fun g => g.1 ++ " " ++ g.2)) := by
    refine oneLine_intercalate (oneLine_of_eq rfl rfl) (List.forall_mem_map.2 ?_)
    intro g hg
    simp (disch := exact Printable.of_eq rfl rfl) [hgiven g hg]
  have hstored : ∀ g ∈ given, OneLine g.2 := fun g hg => (hgiven g hg).2
  unfold construction
  split
  · exact oneLineTexts_nil.2 trivial
  · have hboth := And.intro hgiven hstored
    simpa (disch := exact Printable.of_eq rfl rfl) [oneLineTexts_map, hname, hparameters]
      using hboth

theorem oneLineTexts_stepBase {name : String} {body : List Write} :
    OneLineTexts (stepBase name body) ↔ OneLine name ∧ OneLineTexts body := by
  simp (disch := exact Printable.of_eq rfl rfl) [stepBase]

theorem oneLineTexts_runMember {header call : String} :
    OneLineTexts (runMember header call) ↔ OneLine header ∧ OneLine call := by
  simp (disch := exact Printable.of_eq rfl rfl) [runMember]

section Shared

variable {o : Options} (ho : OneLine o.sharedNamespace)

include ho

theorem oneLineTexts_contracts : ∀ f ∈ contracts o, OneLineTexts f.code := by
  simp only [contracts, List.forall_mem_append, List.forall_mem_cons, List.forall_mem_map]
  simp (disch := exact Printable.of_eq rfl rfl) [modelContract, linkContract,
    propertyConverterContract, converterContract, enumConverterContract, xhtmlRenderContract,
    contextContract, stepContract, pipelineContract, serviceContract, contractFile,
    ho, oneLine_contractTypes]

theorem oneLineTexts_valueTypes : ∀ f ∈ valueTypes o, OneLineTexts f.code := by
  simp only [valueTypes, List.forall_mem_cons]
  simp (disch := exact Printable.of_eq rfl rfl) [linkType, mediaType, areaItemType, areaType,
    valueFile, ho]

theorem oneLineTexts_markerClasses : ∀ f ∈ markerClasses o, OneLineTexts f.code := by
  simp only [markerClasses, List.forall_mem_cons]
  simp (disch := exact Printable.of_eq rfl rfl) [ignoreMarker, modelMarker, converterMarker,
    converterMarkerContract, markerFile, ho]

theorem oneLineTexts_knownConverter (k : KnownConverter) : OneLineTexts (knownConverter o k) := by
  have hbody : ∀ t ∈ converterBody k, OneLine t := by
    cases k <;> simp (disch := exact Printable.of_eq rfl rfl) [converterBody]
  have hdependencies : ∀ given ∈ dependencies k, OneLine given.1 ∧ OneLine given.2 := by
    cases k <;> simp (disch := exact Printable.of_eq rfl rfl) [dependencies]
  have hconstruction := oneLineTexts_construction (oneLine_implementation k) hdependencies
  unfold knownConverter
  simpa (disch := exact Printable.of_eq rfl rfl) [converterFile, callParameters, languageMember, ho,
    hconstruction, oneLine_contractTypes] using hbody

theorem oneLineTexts_defaultConverters : ∀ f ∈ defaultConverters o, OneLineTexts f.code := by
  have henum : OneLineTexts (enumConverter o) := by
    simp (disch := exact Printable.of_eq rfl rfl) [enumConverter, converterFile, callParameters, ho]
  have hknown : ∀ k ∈ KnownConverter.all, OneLineTexts (knownConverter o k) :=
    fun k _ => oneLineTexts_knownConverter ho k
  simpa only [defaultConverters, List.forall_mem_cons, List.forall_mem_map] using ⟨henum, hknown⟩

theorem oneLineTexts_pipelineBases : ∀ f ∈ pipelineBases o, OneLineTexts f.code := by
  simp only [pipelineBases, List.forall_mem_cons]
  simp (disch := exact Printable.of_eq rfl rfl) [directStepBase, waitingStepBase, defaultPipeline,
    oneLineTexts_stepBase, oneLineTexts_runMember, pipelineFile, ho]

theorem oneLineTexts_baseModels (classes : List ContentClass) :
    ∀ f ∈ baseModels o classes, OneLineTexts f.code := by
  have hbase : OneLineTexts (baseModel o) := by
    simp (disch := exact Printable.of_eq rfl rfl) [baseModel, ho]
  have hgroups : ∀ group ∈ groupNames classes, OneLineTexts (groupInterface o group) := by
    intro group hgroup
    obtain ⟨c, -, rfl⟩ := (mem_groupNames classes group).1 hgroup
    simp (disch := exact Printable.of_eq rfl rfl) [groupInterface, ho]
  simpa only [baseModels, List.forall_mem_cons, List.forall_mem_map] using ⟨hbase, hgroups⟩

end Shared

/-! ### The model of a class -/

section Model

variable {c : ContentClass} (hc : OneLineNames c)

include hc

theorem quotable_discriminant : Quotable c.discriminant ↔ Quotable c.group := by
  have hdot : Quotable "." := (oneLine_of_eq rfl rfl).quotable
  simp [ContentClass.discriminant, quotable_append, hdot, hc.name.quotable]

theorem oneLine_modelName : OneLine c.modelName := by
  simp (disch := exact Printable.of_eq rfl rfl) [ContentClass.modelName, hc.name]

theorem oneLine_stepName : OneLine c.stepName := by
  simp (disch := exact Printable.of_eq rfl rfl) [ContentClass.stepName, hc.name]

theorem oneLine_modelProperty {p : ContentProperty} (hp : p ∈ c.properties) :
    OneLine (modelProperty p) := by
  obtain ⟨hname, hexposed, -⟩ := hc.properties p hp
  simp (disch := exact Printable.of_eq rfl rfl) [modelProperty, hname, hexposed]

variable {o : Options} (ho : OneLine o.sharedNamespace)

include ho

theorem oneLine_modelType : OneLine (modelType o c) := by
  simp (disch := exact Printable.of_eq rfl rfl) [modelType, oneLine_modelName hc, ho]

theorem oneLine_stepType : OneLine (stepType o c) := by
  simp (disch := exact Printable.of_eq rfl rfl) [stepType, oneLine_stepName hc, ho]

/-- The one text that a model has a literal of is its tag. -/
theorem oneLineTexts_modelClass : OneLineTexts (modelClass o c) ↔ Quotable c.group := by
  have hproperties : OneLineTexts
      (c.properties.flatMap fun p => [.blank, .line (modelProperty p)]) := by
    refine oneLineTexts_flatMap.2 fun p hp => ?_
    simp (disch := exact Printable.of_eq rfl rfl) [oneLine_modelProperty hc hp]
  simp (disch := exact Printable.of_eq rfl rfl) [modelClass, oneLine_modelName hc, oneLine_literal,
    quotable_discriminant hc, ho, hc.fullName, hproperties]

end Model

/-! ### The step of a class -/

theorem oneLine_valueExpression {p : ContentProperty} (hname : OneLine p.name)
    {field : Option String} (hfield : ∀ f, field = some f → OneLine f) :
    OneLine (valueExpression p field) := by
  have hconfig : OneLine (configField p) := by
    simp (disch := exact Printable.of_eq rfl rfl) [configField, hname]
  cases field with
  | none => simp (disch := exact Printable.of_eq rfl rfl) [valueExpression, hname]
  | some f =>
    have hf := hfield f rfl
    unfold valueExpression
    -- whether there are arguments, and whether an enumeration may be missing
    cases p.config <;> cases p.conversion <;> cases p.exposed.nullable <;>
      simp (disch := exact Printable.of_eq rfl rfl) [hname, hf, hconfig]

section Step

variable {c : ContentClass} (hc : OneLineNames c)

include hc

theorem oneLine_injectedType {k : Conversion} (hk : k ∈ c.conversions) :
    OneLine (injectedType k) := by
  obtain ⟨-, p, hp, rfl⟩ := ContentClass.mem_conversions.1 hk
  have htext := (hc.properties p hp).2.2
  cases hconversion : p.conversion with
  | copy => exact oneLine_of_eq rfl rfl
  | known converter => rwa [hconversion] at htext
  | enumeration type =>
    rw [hconversion] at htext
    unfold Conversion.text at htext
    unfold injectedType
    simp only [oneLine_append, oneLine_rooted] at htext ⊢
    exact htext
  | custom type =>
    rw [hconversion] at htext
    exact oneLine_rooted.2 htext

theorem oneLine_injections {i : Injection} (hi : i ∈ injections c) :
    OneLine (injectedType i.conversion) ∧ OneLine i.parameter := by
  obtain ⟨m, hm, rfl⟩ := mem_injections.1 hi
  have hconversion : m.1 ∈ c.conversions := by
    rw [← conversions_converterMembers]
    exact List.mem_map_of_mem hm
  have hmember := (wordText_converterMembers hm).oneLine
  exact ⟨oneLine_injectedType hc hconversion, oneLine_lowerFirst hmember⟩

theorem oneLine_fieldFor {p : ContentProperty} {field : String}
    (h : fieldFor (injections c) p = some field) : OneLine field := by
  obtain ⟨i, hi, rfl⟩ := Option.map_eq_some_iff.1 h
  have hparameter := (oneLine_injections hc (List.mem_of_find?_eq_some hi)).2
  simp (disch := exact Printable.of_eq rfl rfl) [hparameter]

theorem oneLine_assignment {p : ContentProperty} (hp : p ∈ c.properties) :
    OneLine (assignment (injections c) p) := by
  have hname := (hc.properties p hp).1
  have hvalue : OneLine (valueExpression p (fieldFor (injections c) p)) :=
    oneLine_valueExpression hname fun field hfound => oneLine_fieldFor hc hfound
  unfold assignment
  simp (disch := exact Printable.of_eq rfl rfl) [hname, hvalue]

theorem oneLineTexts_configCode {p : ContentProperty} (hp : p ∈ c.properties) :
    OneLineTexts (configCode p) ↔
      ∀ d, p.config = some d → ∀ e ∈ d.entries, Quotable e.1 ∧ Quotable e.2 := by
  have hname := (hc.properties p hp).1
  cases hconfig : p.config with
  | none => simp [configCode_of_none hconfig]
  | some d =>
    simp (disch := exact Printable.of_eq rfl rfl) [configCode_of_some hconfig, configHead,
      configField, entryLine, oneLineTexts_map, oneLine_literal, hname]

theorem oneLineTexts_stepConstructor : OneLineTexts (stepConstructor c (injections c)) := by
  have hparameters : OneLine (", ".intercalate ((injections c).map fun i =>
      injectedType i.conversion ++ " " ++ i.parameter)) := by
    refine oneLine_intercalate (oneLine_of_eq rfl rfl) (List.forall_mem_map.2 ?_)
    intro i hi
    simp (disch := exact Printable.of_eq rfl rfl) [oneLine_injections hc hi]
  have hstored : ∀ i ∈ injections c, OneLine i.parameter :=
    fun i hi => (oneLine_injections hc hi).2
  unfold stepConstructor
  simpa (disch := exact Printable.of_eq rfl rfl) [oneLineTexts_map, oneLine_stepName hc,
    hparameters] using hstored

variable {o : Options} (ho : OneLine o.sharedNamespace)

include ho

/-- The texts that a step has literals of are the arguments of its converters. -/
theorem oneLineTexts_stepClass : OneLineTexts (stepClass o c) ↔
    ∀ p ∈ c.properties, ∀ d, p.config = some d → ∀ e ∈ d.entries, Quotable e.1 ∧ Quotable e.2 := by
  have hfields : OneLineTexts ((injections c).map fun i =>
      .line ("private readonly " ++ injectedType i.conversion ++ " _" ++ i.parameter ++ ";")) := by
    refine oneLineTexts_map.2 fun i hi => ?_
    simp (disch := exact Printable.of_eq rfl rfl) [oneLine_injections hc hi]
  have hassignments :
      OneLineTexts (c.properties.map fun p => .line (assignment (injections c) p)) :=
    oneLineTexts_map.2 fun p hp => oneLine_assignment hc hp
  have hconfigs : OneLineTexts (c.properties.flatMap configCode) ↔
      ∀ p ∈ c.properties, ∀ d, p.config = some d → ∀ e ∈ d.entries, Quotable e.1 ∧ Quotable e.2 :=
    oneLineTexts_flatMap.trans (forall₂_congr fun p hp => oneLineTexts_configCode hc hp)
  unfold stepClass
  simp (disch := exact Printable.of_eq rfl rfl) only [oneLineTexts_file, oneLineTexts_cons,
    oneLineTexts_append, oneLineTexts_block, oneLineTexts_ite, oneLineTexts_nil, ite_self,
    Write.text, oneLine_append, oneLine_under, oneLine_stepsNamespace, oneLine_rooted,
    oneLine_groupName, ho, hc.fullName, oneLine_stepName hc, oneLine_modelType hc ho,
    oneLineTexts_stepConstructor hc, Printable.oneLine, List.forall_mem_cons, List.not_mem_nil,
    IsEmpty.forall_iff, implies_true, true_and, and_true, hfields, hassignments, hconfigs]

end Step

/-! ### The service -/

/-- The names of a branch of the service are on one line. -/
structure OneLineBranch (b : Branch) : Prop where
  content : OneLine b.content
  pipeline : OneLine b.pipeline
  member : OneLine b.member

theorem oneLine_runCall {b : Branch} (hb : OneLineBranch b) : OneLine (runCall b) := by
  simp (disch := exact Printable.of_eq rfl rfl) [runCall, hb.content, hb.member]

theorem oneLine_waitingCall {b : Branch} (hb : OneLineBranch b) : OneLine (waitingCall b) := by
  simp (disch := exact Printable.of_eq rfl rfl) [waitingCall, hb.content, hb.member]

theorem oneLine_separated {between last : String} (hbetween : OneLine between)
    (hlast : OneLine last) {ts : List String} (hts : ∀ t ∈ ts, OneLine t) :
    ∀ t ∈ separated between last ts, OneLine t := by
  fun_induction separated between last ts with
  | case1 => exact nofun
  | case2 t =>
    rw [List.forall_mem_singleton] at hts ⊢
    exact oneLine_append.2 ⟨hts, hlast⟩
  | case3 t ts hmore ih =>
    obtain ⟨ht, hrest⟩ := List.forall_mem_cons.1 hts
    exact List.forall_mem_cons.2 ⟨oneLine_append.2 ⟨ht, hbetween⟩, ih hrest⟩

section Branches

variable {bs : List Branch} (hbs : ∀ b ∈ bs, OneLineBranch b)

include hbs

theorem oneLineTexts_serviceConstructor : OneLineTexts (serviceConstructor bs) := by
  have hparameters : ∀ t ∈ separated "," ")" (bs.map fun b => b.pipeline ++ " " ++ b.member),
      OneLine t := by
    refine oneLine_separated (oneLine_of_eq rfl rfl) (oneLine_of_eq rfl rfl) ?_
    refine List.forall_mem_map.2 fun b hb => ?_
    simp (disch := exact Printable.of_eq rfl rfl) [(hbs b hb).pipeline, (hbs b hb).member]
  have hstored :
      OneLineTexts (bs.map fun b => .line ("_" ++ b.member ++ " = " ++ b.member ++ ";")) := by
    refine oneLineTexts_map.2 fun b hb => ?_
    simp (disch := exact Printable.of_eq rfl rfl) [(hbs b hb).member]
  unfold serviceConstructor
  split
  · simp (disch := exact Printable.of_eq rfl rfl)
  · simpa (disch := exact Printable.of_eq rfl rfl) [hstored] using hparameters

theorem oneLineTexts_dispatchMember {header otherwise : String} {call : Branch → String}
    (hheader : OneLine header) (hotherwise : OneLine otherwise)
    (hcall : ∀ b, OneLineBranch b → OneLine (call b)) :
    OneLineTexts (dispatchMember header call otherwise bs) := by
  have htests : OneLineTexts (bs.flatMap fun b =>
      lines ["if (contentType == typeof(" ++ b.content ++ "))", "    return " ++ call b]) := by
    refine oneLineTexts_flatMap.2 fun b hb => ?_
    simp (disch := exact Printable.of_eq rfl rfl) [(hbs b hb).content, hcall b (hbs b hb)]
  simp (disch := exact Printable.of_eq rfl rfl) [dispatchMember, hheader, hotherwise, htests]

end Branches

/-! ### Files that list the classes -/

theorem oneLineTexts_caseCode (k : Case) :
    OneLineTexts (caseCode k) ↔ Quotable k.tag ∧ OneLine k.type := by
  simp (disch := exact Printable.of_eq rfl rfl) [caseCode, oneLine_literal]

section Lists

variable {o : Options} (ho : OneLine o.sharedNamespace) {classes : List ContentClass}
  (hclasses : ∀ c ∈ classes, OneLineNames c)

include ho hclasses

theorem oneLineBranch_of_mem {b : Branch} (hb : b ∈ branches o classes) : OneLineBranch b := by
  obtain ⟨⟨c, member⟩, hzip, rfl⟩ := List.mem_map.1 hb
  obtain ⟨hc, hmember⟩ := List.of_mem_zip hzip
  have hnames := hclasses c hc
  constructor
  · exact oneLine_rooted.2 hnames.fullName
  · simp (disch := exact Printable.of_eq rfl rfl) [hnames.fullName, oneLine_modelType hnames ho]
  · exact oneLine_lowerFirst (wordText_pipelineMembers hmember).oneLine

-- the characters of the longest headers are compared one by one
set_option maxRecDepth 1000 in
theorem oneLineTexts_pipelineService : OneLineTexts (pipelineService o classes) := by
  have hbranches : ∀ b ∈ branches o classes, OneLineBranch b :=
    fun b hb => oneLineBranch_of_mem ho hclasses hb
  have hfields : OneLineTexts ((branches o classes).map fun b =>
      .line ("private readonly " ++ b.pipeline ++ " _" ++ b.member ++ ";")) := by
    refine oneLineTexts_map.2 fun b hb => ?_
    simp (disch := exact Printable.of_eq rfl rfl) [(hbranches b hb).pipeline,
      (hbranches b hb).member]
  unfold pipelineService
  simp (disch := exact Printable.of_eq rfl rfl) only [serviceFile, oneLineTexts_file,
    oneLineTexts_append, oneLineTexts_summary, oneLineTexts_block, oneLineTexts_ite,
    oneLineTexts_cons, oneLineTexts_nil, oneLineTexts_indented, oneLineTexts_lines, ite_self,
    Write.text, oneLine_under, ho, hfields, oneLineTexts_serviceConstructor hbranches,
    Printable.oneLine, List.forall_mem_cons, List.not_mem_nil, IsEmpty.forall_iff, implies_true,
    true_and, and_true]
  refine ⟨oneLineTexts_dispatchMember hbranches ?_ ?_ fun _ => oneLine_runCall,
    oneLineTexts_dispatchMember hbranches ?_ ?_ fun _ => oneLine_waitingCall⟩
  all_goals exact oneLine_of_eq rfl rfl

set_option maxRecDepth 1000 in
theorem oneLineTexts_serviceClasses : ∀ f ∈ serviceClasses o classes, OneLineTexts f.code := by
  simp only [serviceClasses, List.forall_mem_cons, oneLineTexts_pipelineService ho hclasses]
  simp (disch := exact Printable.of_eq rfl rfl) [pipelineArgs, pipelineContext, baseService,
    xhtmlRenderService, entityFile, serviceFile, ho]

theorem oneLineTexts_registrations : ∀ f ∈ registrations o classes, OneLineTexts f.code := by
  have hsteps : ∀ t ∈ separated "" ";" (classes.map (stepRegistration o)), OneLine t := by
    refine oneLine_separated (oneLine_of_eq rfl rfl) (oneLine_of_eq rfl rfl) ?_
    refine List.forall_mem_map.2 fun c hc => ?_
    have hnames := hclasses c hc
    unfold stepRegistration
    simp (disch := exact Printable.of_eq rfl rfl) [hnames.fullName, oneLine_modelType hnames ho,
      oneLine_stepType hnames ho]
  have hregistered : OneLineTexts (stepRegistrations o classes) := by
    simpa (disch := exact Printable.of_eq rfl rfl) [stepRegistrations, registrationFile, ho]
      using fun _ => hsteps
  have hconverters : ∀ k ∈ KnownConverter.all,
      OneLine (".AddSingleton<" ++ k.contract ++ ", " ++ k.implementation ++ ">()") := by
    intro k _
    simp (disch := exact Printable.of_eq rfl rfl)
  have hservices : OneLineTexts (serviceRegistrations o) := by
    simp (disch := exact Printable.of_eq rfl rfl) only [serviceRegistrations, registrationFile,
      oneLineTexts_file, oneLineTexts_block, oneLineTexts_cons, oneLineTexts_indented,
      oneLineTexts_lines, List.forall_mem_append, List.forall_mem_cons, List.forall_mem_map,
      List.not_mem_nil, IsEmpty.forall_iff, implies_true, oneLine_under, ho, Write.text,
      Printable.oneLine, true_and, and_true]
    exact hconverters
  simpa only [registrations, List.forall_mem_cons, List.not_mem_nil, IsEmpty.forall_iff,
    implies_true, and_true] using ⟨hregistered, hservices⟩

theorem oneLineTexts_cases :
    OneLineTexts ((cases o classes).flatMap caseCode) ↔ ∀ c ∈ classes, Quotable c.group := by
  have htypes : ∀ k ∈ cases o classes, OneLine k.type := by
    intro k hk
    obtain ⟨c, hfirst, rfl⟩ := first_of_mem_cases hk
    exact oneLine_modelType (hclasses c (List.mem_of_find?_eq_some hfirst)) ho
  calc OneLineTexts ((cases o classes).flatMap caseCode)
      ↔ ∀ k ∈ cases o classes, Quotable k.tag :=
        oneLineTexts_flatMap.trans (forall₂_congr fun k hk =>
          (oneLineTexts_caseCode k).trans (and_iff_left (htypes k hk)))
    _ ↔ ∀ tag ∈ (cases o classes).map (·.tag), Quotable tag := List.forall_mem_map.symm
    _ ↔ ∀ tag ∈ classes.map (·.discriminant), Quotable tag :=
        forall_congr' fun tag => imp_congr_left ((firstAppearances_cases o classes).mem tag)
    _ ↔ ∀ c ∈ classes, Quotable c.discriminant := List.forall_mem_map
    _ ↔ ∀ c ∈ classes, Quotable c.group :=
        forall₂_congr fun c hc => quotable_discriminant (hclasses c hc)

/-- The texts that a serializer has literals of are the tags. -/
theorem oneLineTexts_serializer {name contract : String} (hname : OneLine name)
    (hcontract : OneLine contract) :
    OneLineTexts (serializer o name contract classes) ↔ ∀ c ∈ classes, Quotable c.group := by
  have hbody : OneLineTexts (writeBody o classes) ↔ ∀ c ∈ classes, Quotable c.group := by
    unfold writeBody
    split
    · rename_i hempty
      have hnone : classes = [] := List.isEmpty_iff.1 hempty
      simp (disch := exact Printable.of_eq rfl rfl) [hnone]
    · simpa (disch := exact Printable.of_eq rfl rfl) using oneLineTexts_cases ho hclasses
  unfold serializer
  simp (disch := exact Printable.of_eq rfl rfl) [hname, hcontract, hbody, ho]

end Lists

/-! ### All files -/

/-- The code of the files of some classes, in order. -/
def codes (o : Options) (classes : List ContentClass) : List (List Write) :=
  (sharedFiles o classes).map (·.code) ++ classes.flatMap fun c => [modelClass o c, stepClass o c]

theorem sources_nameClasses (o : Options) (names : FileNames) (classes : List ContentClass) :
    (nameClasses o names classes).map (·.source) =
      (classes.flatMap fun c => [modelClass o c, stepClass o c]).map render := by
  induction classes generalizing names with
  | nil => rfl
  | cons c rest ih =>
    rw [nameClasses, List.map_cons, List.map_cons, ih]
    rfl

theorem sources_artifacts {o : Options} {cancelled : Bool} {classes : List ContentClass}
    {files : List Artifact} (h : artifacts o cancelled classes = .ok files) :
    files.map (·.source) = (codes o classes).map render := by
  cases cancelled with
  | true => cases h
  | false =>
    rw [eq_allFiles h, allFiles, codes, List.map_append, List.map_append, sources_nameClasses,
      named, List.map_map, List.map_map]
    rfl

/-- Which texts can break a line in the files of some classes. -/
structure QuotedLines (o : Options) (classes : List ContentClass) : Prop where
  sources : ∀ cancelled files, artifacts o cancelled classes = .ok files →
    files.map (·.source) = (codes o classes).map render
  /-- In the model of a class it is the group. -/
  model : ∀ c ∈ classes, OneLineNames c → (Unbroken (modelClass o c) ↔ Quotable c.group)
  /-- In the step of a class it is an argument of a converter, its name or its value. -/
  step : ∀ c ∈ classes, OneLineNames c → (Unbroken (stepClass o c) ↔
    ∀ p ∈ c.properties, ∀ d, p.config = some d → ∀ e ∈ d.entries, Quotable e.1 ∧ Quotable e.2)
  /-- In the converter of models it is the group of a class. -/
  converter : (∀ c ∈ classes, OneLineNames c) →
    (Unbroken (modelConverter o classes) ↔ ∀ c ∈ classes, Quotable c.group)
  /-- In the other files there is none. -/
  others : (∀ c ∈ classes, OneLineNames c) →
    ∀ f ∈ sharedFiles o classes, f.code ≠ modelConverter o classes → Unbroken f.code

theorem oneLineTexts_sharedFiles {o : Options} (ho : OneLine o.sharedNamespace)
    {classes : List ContentClass} (hclasses : ∀ c ∈ classes, OneLineNames c) {f : SharedFile}
    (hf : f ∈ sharedFiles o classes) (hother : f.code ≠ modelConverter o classes) :
    OneLineTexts f.code := by
  simp only [sharedFiles, List.mem_append] at hf
  rcases hf with (((((((hbase | hcontract) | hvalue) | hmarker) | hconverter) | hpipeline) |
    hservice) | hserializer) | hregistration
  · exact oneLineTexts_baseModels ho classes f hbase
  · exact oneLineTexts_contracts ho f hcontract
  · exact oneLineTexts_valueTypes ho f hvalue
  · exact oneLineTexts_markerClasses ho f hmarker
  · exact oneLineTexts_defaultConverters ho f hconverter
  · exact oneLineTexts_pipelineBases ho f hpipeline
  · exact oneLineTexts_serviceClasses ho hclasses f hservice
  · rcases List.mem_cons.1 hserializer with rfl | hlink
    · exact absurd rfl hother
    · obtain rfl := List.mem_singleton.1 hlink
      exact (oneLineTexts_serializer ho (List.forall_mem_nil _) (oneLine_of_eq rfl rfl)
        (oneLine_of_eq rfl rfl)).2 (List.forall_mem_nil _)
  · exact oneLineTexts_registrations ho hclasses f hregistration

/-- A literal has the line ends of its text but for `\n` and `\r`.  So, where the names that the
code takes over are on one line, a group with one of the others breaks a line of the models of its
classes and of the converter of models, an argument of a converter with one breaks a line of the
step that gives it, and no other line of a file is broken. -/
theorem quotedLines {o : Options} (ho : OneLine o.sharedNamespace) (classes : List ContentClass) :
    (∀ s, (literal s).toList.filter isLineEnd = s.toList.filter isRawEnd) ∧
      QuotedLines o classes := by
  refine ⟨filter_literal, ?_⟩
  constructor
  · exact fun _ _ h => sources_artifacts h
  · exact fun c _ hc => (unbroken_iff _).trans (oneLineTexts_modelClass hc ho)
  · exact fun c _ hc => (unbroken_iff _).trans (oneLineTexts_stepClass hc ho)
  · intro hclasses
    exact (unbroken_iff _).trans (oneLineTexts_serializer ho hclasses
      (oneLine_of_eq rfl rfl) (oneLine_of_eq rfl rfl))
  · exact fun hclasses f hf hother =>
      (unbroken_iff _).2 (oneLineTexts_sharedFiles ho hclasses hf hother)

/-- A class whose group has a line end that no literal escapes, and a property for whose converter
an argument has another. -/
def parted : ContentClass where
  name := "Teaser"
  stableId := ⟨1⟩
  group := "Site\u2028News"
  order := 0
  fullName := "Site.Teaser"
  properties := [⟨"Lead", ⟨"string", true⟩, .custom "Site.Clip",
    some (Dictionary.ofEntries [("mark", "\u0085")])⟩]

theorem quotedLines_parted :
    OneLine Options.standard.sharedNamespace ∧ OneLineNames parted ∧
      (literal parted.group).toList.filter isLineEnd = ['\u2028'] ∧
      (∃ files, artifacts .standard false [parted] = .ok files ∧
        files.map (·.source) = (codes .standard [parted]).map render) ∧
      ¬Unbroken (modelClass .standard parted) ∧ ¬Unbroken (stepClass .standard parted) ∧
      ¬Unbroken (modelConverter .standard [parted]) ∧
      ∀ f ∈ sharedFiles .standard [parted], f.code ≠ modelConverter .standard [parted] →
        Unbroken f.code := by
  have ho : OneLine Options.standard.sharedNamespace := oneLine_of_eq rfl rfl
  have hproperties : ∀ p ∈ parted.properties,
      OneLine p.name ∧ OneLine p.exposed.text ∧ OneLine p.conversion.text :=
    List.forall_mem_singleton.2 ⟨by decide, by decide, by decide⟩
  have hnames : OneLineNames parted :=
    ⟨oneLine_of_eq rfl rfl, oneLine_of_eq rfl rfl, hproperties⟩
  have hfiles : artifacts .standard false [parted] = .ok (allFiles .standard [parted]) := by
    have hfree : contested? [parted] = none := by decide
    rw [artifacts_eq, hfree]
  obtain ⟨hliteral, hlines⟩ := quotedLines ho [parted]
  have hparted : parted ∈ [parted] := List.mem_singleton_self _
  have hall : ∀ c ∈ [parted], OneLineNames c := List.forall_mem_singleton.2 hnames
  have hgroup : ¬Quotable parted.group := by decide
  refine ⟨ho, hnames, ?_, ⟨_, hfiles, hlines.sources _ _ hfiles⟩, ?_, ?_, ?_, hlines.others hall⟩
  · rw [hliteral]
    decide
  · rw [hlines.model parted hparted hnames]
    exact hgroup
  · rw [hlines.step parted hparted hnames]
    intro hquotable
    have hmark := (hquotable _ (List.mem_singleton_self _) _ rfl ("mark", "\u0085") (by decide)).2
    exact absurd hmark (by decide)
  · rw [hlines.converter hall]
    exact fun h => hgroup (h parted hparted)

end Generated

end ContentLoom

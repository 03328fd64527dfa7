import ContentLoom.Proofs.Dispatch
import ContentLoom.Proofs.GeneratedTypes
import ContentLoom.Proofs.LiteralText

/-!
# Dispatch by tags

The generated converter of models switches over their tags.  The switch is read
back from the code: one arm for each tag of the classes, labelled with the
literal that the models with the tag write, which casts to the model that the
first class with the tag declares.  The tag of the base model has no arm, so the
base model is written as what it is.
-/

namespace ContentLoom.Generated

open Code Naming

/-! ### Reading a switch -/

/-- An arm of a switch: its label and what it runs. -/
structure Arm where
  label : String
  body : List Write
deriving DecidableEq

/-- The code of an arm. -/
def Arm.code (a : Arm) : List Write := .line a.label :: indented a.body

/-- The arms of the code between the braces of a switch. -/
def readArms : List Write → List Arm
  | .line label :: .indent :: rest =>
    ⟨label, rest.takeWhile (· ≠ .dedent)⟩ :: readArms ((rest.dropWhile (· ≠ .dedent)).drop 1)
  | _ => []
termination_by ws => ws.length
decreasing_by
  have hshorter := List.length_dropWhile_le (fun w => decide (w ≠ .dedent)) rest
  simp only [List.length_drop, List.length_cons]
  omega

theorem readArms_cons {a : Arm} (hbody : .dedent ∉ a.body) (rest : List Write) :
    readArms (a.code ++ rest) = a :: readArms rest := by
  have hinside : ∀ w ∈ a.body, decide (w ≠ Write.dedent) = true := by
    intro w hw
    exact decide_eq_true fun h => hbody (h ▸ hw)
  have hcode : a.code ++ rest = .line a.label :: .indent :: (a.body ++ (.dedent :: rest)) := by
    simp [Arm.code, indented]
  rw [hcode, readArms, List.takeWhile_append_of_pos hinside, List.dropWhile_append_of_pos hinside]
  simp

theorem readArms_code {arms : List Arm} (hbodies : ∀ a ∈ arms, .dedent ∉ a.body) :
    readArms (arms.flatMap Arm.code) = arms := by
  induction arms with
  | nil => rw [List.flatMap_nil, readArms]; simp
  | cons a arms ih =>
    rw [List.flatMap_cons, readArms_cons (hbodies a (List.mem_cons_self ..)),
      ih fun b hb => hbodies b (List.mem_cons_of_mem _ hb)]

/-- The tag that a label names. -/
def labelTag? (label : String) : Option String :=
  match label.toList with
  | 'c' :: 'a' :: 's' :: 'e' :: ' ' :: rest =>
    if rest.getLast? = some ':' then (readLiteral? rest.dropLast).map String.ofList else none
  | _ => none

/-- The label of a literal. -/
def caseLabel (written : String) : String := "case " ++ written ++ ":"

theorem labelTag?_caseLabel (tag : String) : labelTag? (caseLabel (literal tag)) = some tag := by
  have hchars : (caseLabel (literal tag)).toList =
      'c' :: 'a' :: 's' :: 'e' :: ' ' :: (literalChars tag.toList ++ [':']) := by
    simp [caseLabel, literal, String.toList_append]
  rw [labelTag?, hchars]
  simp [readLiteral?_literalChars]

/-- What the arms of a switch run for a tag: the arm that names it, or else the default arm. -/
def armFor? (arms : List Arm) (tag : String) : Option Arm :=
  (arms.find? fun a => labelTag? a.label == some tag).or
    (arms.find? fun a => a.label == "default:")

/-! ### Tags in order -/

/-- Each of all tags once, in the order in which they first appear. -/
structure FirstAppearances (all tags : List String) : Prop where
  mem : ∀ tag, tag ∈ tags ↔ tag ∈ all
  order : tags.Pairwise fun s t => all.idxOf s < all.idxOf t

theorem FirstAppearances.order_append {all tags : List String} (h : FirstAppearances all tags)
    (tag : String) :
    tags.Pairwise fun s t => (all ++ [tag]).idxOf s < (all ++ [tag]).idxOf t := by
  refine h.order.imp_of_mem fun {s t} hs ht hlt => ?_
  rw [List.idxOf_append_of_mem ((h.mem s).1 hs), List.idxOf_append_of_mem ((h.mem t).1 ht)]
  exact hlt

theorem FirstAppearances.append_old {all tags : List String} (h : FirstAppearances all tags)
    {tag : String} (hold : tag ∈ all) : FirstAppearances (all ++ [tag]) tags where
  mem s := by
    rw [h.mem, List.mem_append, List.mem_singleton]
    constructor
    · exact Or.inl
    · rintro (hs | rfl)
      · exact hs
      · exact hold
  order := h.order_append tag

theorem FirstAppearances.append_new {all tags : List String} (h : FirstAppearances all tags)
    {tag : String} (hnew : tag ∉ all) : FirstAppearances (all ++ [tag]) (tags ++ [tag]) where
  mem s := by rw [List.mem_append, List.mem_append, h.mem]
  order := by
    rw [List.pairwise_append]
    refine ⟨h.order_append tag, List.pairwise_singleton .., ?_⟩
    intro s hs t ht
    obtain rfl := List.mem_singleton.1 ht
    have hbound := List.idxOf_lt_length_of_mem ((h.mem s).1 hs)
    rw [List.idxOf_append_of_mem ((h.mem s).1 hs), List.idxOf_append_of_notMem hnew]
    omega

/-! ### Cases of the classes -/

/-- The first class with a tag. -/
def firstTagged? (classes : List ContentClass) (tag : String) : Option ContentClass :=
  classes.find? (·.discriminant == tag)

theorem cases_append (o : Options) (classes : List ContentClass) (c : ContentClass) :
    cases o (classes ++ [c]) = addCase o (cases o classes) c := by
  rw [cases_eq_foldl, List.foldl_append, ← cases_eq_foldl]
  rfl

theorem firstAppearances_cases (o : Options) (classes : List ContentClass) :
    FirstAppearances (classes.map (·.discriminant)) ((cases o classes).map (·.tag)) := by
  -- cases are added at the end, so the classes are taken from the end as well
  induction classes using List.reverseRecOn with
  | nil => exact ⟨fun tag => Iff.rfl, .nil⟩
  | append_singleton classes c ih =>
    rw [cases_append, addCase, List.map_append]
    split
    · rename_i hknown
      rw [any_tag_iff, ih.mem] at hknown
      exact ih.append_old hknown
    · rename_i hnew
      rw [any_tag_iff, ih.mem] at hnew
      rw [List.map_append]
      exact ih.append_new hnew

/-- Each case belongs to the first class with its tag. -/
theorem first_of_mem_cases {o : Options} {classes : List ContentClass} {k : Case}
    (hk : k ∈ cases o classes) :
    ∃ c, firstTagged? classes k.tag = some c ∧ k = caseOf o c := by
  induction classes using List.reverseRecOn with
  | nil => cases hk
  | append_singleton classes c ih =>
    -- a class after the first one with a tag does not change which is the first
    have hkept (hold : k ∈ cases o classes) :
        ∃ d, firstTagged? (classes ++ [c]) k.tag = some d ∧ k = caseOf o d := by
      obtain ⟨d, hfirst, hcase⟩ := ih hold
      refine ⟨d, ?_, hcase⟩
      rw [firstTagged?] at hfirst ⊢
      rw [List.find?_append, hfirst, Option.some_or]
    rw [cases_append, addCase] at hk
    split at hk
    · exact hkept hk
    · rename_i hnew
      rcases List.mem_append.1 hk with hold | hlast
      · exact hkept hold
      · obtain rfl := List.mem_singleton.1 hlast
        rw [any_tag_iff, (firstAppearances_cases o classes).mem] at hnew
        have hnone : classes.find? (·.discriminant == c.discriminant) = none := by
          rw [List.find?_eq_none]
          intro d hd hsame
          exact hnew (List.mem_map.2 ⟨d, hd, by simpa using hsame⟩)
        refine ⟨c, ?_, rfl⟩
        rw [firstTagged?, caseOf, List.find?_append, hnone]
        simp

theorem mem_cases_of_mem {o : Options} {classes : List ContentClass} {c : ContentClass}
    (hc : c ∈ classes) : ∃ k ∈ cases o classes, k.tag = c.discriminant := by
  apply List.mem_map.1
  rw [(firstAppearances_cases o classes).mem]
  exact List.mem_map_of_mem hc

theorem firstTagged?_of_nodup {classes : List ContentClass}
    (hnodup : (classes.map (·.discriminant)).Nodup) {c : ContentClass} (hc : c ∈ classes) :
    firstTagged? classes c.discriminant = some c := by
  cases hfirst : firstTagged? classes c.discriminant with
  | none =>
    have hunknown := List.find?_eq_none.1 hfirst c hc
    exact absurd (beq_self_eq_true _) hunknown
  | some first =>
    have htag : first.discriminant = c.discriminant := by simpa using List.find?_some hfirst
    rw [List.inj_on_of_nodup_map hnodup (List.mem_of_find?_eq_some hfirst) hc htag]

/-- A tag of a class has a dot, and that of the base model has none. -/
theorem discriminant_ne_base (c : ContentClass) :
    c.discriminant ≠ ContentClass.baseDiscriminant := by
  intro heq
  have hdot : '.' ∈ c.discriminant.toList := by
    simp [ContentClass.discriminant, String.toList_append]
  rw [heq] at hdot
  exact absurd hdot (by decide)

theorem find?_cases (o : Options) (classes : List ContentClass) (tag : String) :
    (cases o classes).find? (·.tag == tag) = (firstTagged? classes tag).map (caseOf o) := by
  cases hfind : (cases o classes).find? (·.tag == tag) with
  | some k =>
    have htag : k.tag = tag := by simpa using List.find?_some hfind
    obtain ⟨c, hfirst, rfl⟩ := first_of_mem_cases (List.mem_of_find?_eq_some hfind)
    rw [htag] at hfirst
    rw [hfirst, Option.map_some]
  | none =>
    have hnone : firstTagged? classes tag = none := by
      apply List.find?_eq_none.2
      intro c hc hsame
      obtain ⟨k, hk, hktag⟩ := mem_cases_of_mem (o := o) hc
      have hfound := List.find?_eq_none.1 hfind k hk
      rw [hktag] at hfound
      exact hfound hsame
    rw [hnone, Option.map_none]

/-! ### The code of the converter -/

/-- The converter of models. -/
def modelConverter (o : Options) (classes : List ContentClass) : List Write :=
  serializer o "ContentPipelineModelJsonConverter" "IContentPipelineModel" classes

/-- The member that writes a model. -/
def writeHeader : String :=
  "public override void Write(Utf8JsonWriter writer, IContentPipelineModel value, JsonSerializerOptions options)"

/-- The switch over tags. -/
def switchHeader : String := "switch (value.PipelineModelType)"

/-- The line that writes a value as a type. -/
def castLine (type : String) : String :=
  "JsonSerializer.Serialize(writer, (" ++ rooted type ++ ")value, options);"

/-- The arm of a case. -/
def armOf (k : Case) : Arm := ⟨caseLabel (literal k.tag), lines [castLine k.type, "break;"]⟩

/-- The arm for all other tags. -/
def defaultArm : Arm := ⟨"default:", lines [fallbackLine, "break;"]⟩

/-- The arms of the switch of a converter. -/
def switchArms (code : List Write) : List Arm := readArms (memberBody switchHeader code)

/-- The first line that a converter runs for a tag. -/
def served? (code : List Write) (tag : String) : Option Write :=
  if Write.openBlock switchHeader ∈ code then (armFor? (switchArms code) tag).bind (·.body.head?)
  else (memberBody writeHeader code).head?

/-- What stands in the converter before the member that writes. -/
def converterFront (o : Options) : List Write :=
  fileHead ++ usings ["System", "System.Text.Json", "System.Text.Json.Serialization",
      under o "Interfaces"] ++
    [Write.blank] ++ namespaceOf (under o "JsonConverters") ++
    [Write.openBlock "public class ContentPipelineModelJsonConverter : JsonConverter<IContentPipelineModel>",
      Write.line "private static readonly JsonSerializerOptions FallbackOptions = new(JsonSerializerDefaults.Web)"] ++
    blockWith (closeBrace ++ ";") ""
      [Write.line "DefaultIgnoreCondition = JsonIgnoreCondition.WhenWritingNull,"] ++
    [Write.blank, Write.line "public override bool HandleNull => false;", Write.blank,
      Write.line "public override IContentPipelineModel? Read(ref Utf8JsonReader reader, Type typeToConvert, JsonSerializerOptions options) =>"] ++
    indented (lines ["throw new NotSupportedException(\"Pipeline models are write-only.\");"]) ++
    [Write.blank]

theorem modelConverter_eq (o : Options) (classes : List ContentClass) :
    modelConverter o classes =
      converterFront o ++
        (block writeHeader (writeBody o classes) ++ [Write.closeBlock closeBrace]) := by
  simp [modelConverter, serializer, file, block, blockWith, converterFront, writeHeader]

theorem openBlock_mem_converterFront {o : Options} {header : String}
    (h : Write.openBlock header ∈ converterFront o) :
    header ∈
      ["public class ContentPipelineModelJsonConverter : JsonConverter<IContentPipelineModel>",
        ""] := by
  simpa [converterFront, fileHead, lines, usings, namespaceOf, blockWith, indented] using h

theorem switch_not_mem_front (o : Options) :
    Write.openBlock switchHeader ∉ converterFront o ++ [Write.openBlock writeHeader] := by
  intro hmem
  rcases List.mem_append.1 hmem with hfront | hmember
  · exact absurd (openBlock_mem_converterFront hfront) (by decide)
  · exact absurd hmember (by decide)

theorem switchBody_eq (o : Options) (classes : List ContentClass) :
    (cases o classes).flatMap caseCode ++
        (.line "default:" :: indented (lines [fallbackLine, "break;"])) =
      ((cases o classes).map armOf ++ [defaultArm]).flatMap Arm.code := by
  rw [List.flatMap_append, List.flatMap_map, List.flatMap_singleton]
  rfl

theorem modelConverter_of_ne_nil (o : Options) {classes : List ContentClass} (h : classes ≠ []) :
    modelConverter o classes = (converterFront o ++ [Write.openBlock writeHeader]) ++
      (block switchHeader (((cases o classes).map armOf ++ [defaultArm]).flatMap Arm.code) ++
        [Write.closeBlock closeBrace, Write.closeBlock closeBrace]) := by
  have hbody : writeBody o classes =
      block switchHeader (((cases o classes).map armOf ++ [defaultArm]).flatMap Arm.code) := by
    rw [writeBody, if_neg (by simpa using h), switchBody_eq]
    rfl
  rw [modelConverter_eq, hbody]
  simp [block, blockWith]

theorem closeBlock_not_mem_arms (arms : List Arm)
    (h : ∀ a ∈ arms, Write.closeBlock closeBrace ∉ a.body) :
    Write.closeBlock closeBrace ∉ arms.flatMap Arm.code := by
  intro hmem
  obtain ⟨a, ha, hcode⟩ := List.mem_flatMap.1 hmem
  have hbody : Write.closeBlock closeBrace ∈ a.body := by simpa [Arm.code, indented] using hcode
  exact h a ha hbody

theorem body_of_mem_arms {o : Options} {classes : List ContentClass} {a : Arm}
    (ha : a ∈ (cases o classes).map armOf ++ [defaultArm]) : ∃ texts, a.body = lines texts := by
  rcases List.mem_append.1 ha with hcase | hdefault
  · obtain ⟨k, -, rfl⟩ := List.mem_map.1 hcase
    exact ⟨_, rfl⟩
  · obtain rfl := List.mem_singleton.1 hdefault
    exact ⟨_, rfl⟩

theorem memberBody_switch (o : Options) {classes : List ContentClass} (h : classes ≠ []) :
    memberBody switchHeader (modelConverter o classes) =
      ((cases o classes).map armOf ++ [defaultArm]).flatMap Arm.code := by
  rw [modelConverter_of_ne_nil o h]
  refine memberBody_block (switch_not_mem_front o) (closeBlock_not_mem_arms _ fun a ha => ?_)
  obtain ⟨texts, hbody⟩ := body_of_mem_arms ha
  simp [hbody, lines]

theorem switchArms_of_ne_nil (o : Options) {classes : List ContentClass} (h : classes ≠ []) :
    switchArms (modelConverter o classes) = (cases o classes).map armOf ++ [defaultArm] := by
  rw [switchArms, memberBody_switch o h]
  apply readArms_code
  intro a ha
  obtain ⟨texts, hbody⟩ := body_of_mem_arms ha
  simp [hbody, lines]

/-! ### What is run for a tag -/

theorem caseLabel_ne_default (written : String) : caseLabel written ≠ "default:" := by
  intro heq
  have hhead := congrArg (fun s => s.toList.head?) heq
  simp [caseLabel, String.toList_append] at hhead

theorem armFor?_cases (ks : List Case) (tag : String) :
    armFor? (ks.map armOf ++ [defaultArm]) tag =
      some (((ks.find? (·.tag == tag)).map armOf).getD defaultArm) := by
  have hnamed : (fun a : Arm => labelTag? a.label == some tag) ∘ armOf = (·.tag == tag) := by
    funext k
    show (labelTag? (caseLabel (literal k.tag)) == some tag) = (k.tag == tag)
    rw [labelTag?_caseLabel, Option.some_beq_some]
  have hother : ∀ a ∈ ks.map armOf, ¬(a.label == "default:") = true := by
    intro a ha
    obtain ⟨k, -, rfl⟩ := List.mem_map.1 ha
    rw [beq_iff_eq]
    exact caseLabel_ne_default (literal k.tag)
  have hdefault : (ks.map armOf ++ [defaultArm]).find? (fun a => a.label == "default:") =
      some defaultArm := by
    rw [List.find?_append, List.find?_eq_none.2 hother]
    rfl
  have hunnamed : [defaultArm].find? (fun a => labelTag? a.label == some tag) = none := by
    have hnone : labelTag? defaultArm.label = none := by decide
    simp [hnone]
  rw [armFor?, hdefault, List.find?_append, List.find?_map, hnamed, hunnamed, Option.or_none]
  cases ks.find? (·.tag == tag) <;> rfl

theorem switch_mem_modelConverter (o : Options) {classes : List ContentClass} (h : classes ≠ []) :
    Write.openBlock switchHeader ∈ modelConverter o classes := by
  rw [modelConverter_of_ne_nil o h]
  simp [block, blockWith]

theorem writeBody_nil (o : Options) : writeBody o [] = [.line fallbackLine] := rfl

theorem switch_not_mem_bare (o : Options) : Write.openBlock switchHeader ∉ modelConverter o [] := by
  rw [modelConverter_eq, writeBody_nil]
  intro hmem
  rcases List.mem_append.1 hmem with hfront | hrest
  · exact switch_not_mem_front o (List.mem_append_left _ hfront)
  · exact absurd hrest (by decide)

theorem memberBody_bare (o : Options) :
    memberBody writeHeader (modelConverter o []) = [.line fallbackLine] := by
  rw [modelConverter_eq, writeBody_nil]
  refine memberBody_block (fun hmem => ?_) (by decide)
  exact absurd (openBlock_mem_converterFront hmem) (by decide)

/-- A converter runs the case of a tag, and the default arm where the tag has none. -/
theorem served?_eq (o : Options) (classes : List ContentClass) (tag : String) :
    served? (modelConverter o classes) tag =
      some (.line (((firstTagged? classes tag).map fun c => castLine (modelType o c)).getD
        fallbackLine)) := by
  by_cases hbare : classes = []
  · subst hbare
    rw [served?, if_neg (switch_not_mem_bare o), memberBody_bare]
    rfl
  · rw [served?, if_pos (switch_mem_modelConverter o hbare), switchArms_of_ne_nil o hbare,
      armFor?_cases, find?_cases]
    cases firstTagged? classes tag <;> rfl

/-! ### What the models declare -/

/-- The code of a class with a name in a namespace, which gives a literal as its tag. -/
def GivesTag (ns name written : String) (code : List Write) : Prop :=
  ∃ used comment bases members,
    code = file used ns (summary comment ++
      block ("public partial class " ++ name ++ " : " ++ bases)
        (.line ("public override string PipelineModelType => " ++ written ++ ";") :: members))

theorem givesTag_modelClass (o : Options) (c : ContentClass) :
    GivesTag (o.modelsNamespace (groupName c)) c.modelName (literal c.discriminant)
      (modelClass o c) := by
  have hheader : "public partial class " ++ c.modelName ++ " : " ++
      rooted (under o "Models.ContentPipelineModel") ++ ", I" ++ groupName c ++ "PipelineModel" =
      "public partial class " ++ c.modelName ++ " : " ++
        (rooted (under o "Models.ContentPipelineModel") ++ ", I" ++ groupName c ++
          "PipelineModel") := by
    simp only [String.append_assoc]
  rw [modelClass, hheader]
  exact ⟨_, _, _, _, rfl⟩

/-- The arm for a tag.  Its label is the literal that each class with the tag gives, and it casts
to the type that the first of them declares. -/
structure TagArm (o : Options) (classes : List ContentClass) (tag : String) (a : Arm) : Prop where
  named : labelTag? a.label = some tag
  first : ∃ c ns name written, firstTagged? classes tag = some c ∧
    GivesTag ns name written (modelClass o c) ∧
    a = ⟨caseLabel written, lines [castLine (ns ++ "." ++ name), "break;"]⟩
  label : ∀ c ∈ classes, c.discriminant = tag → ∃ ns name written,
    GivesTag ns name written (modelClass o c) ∧ a.label = caseLabel written

theorem tagArm_of_mem_cases {o : Options} {classes : List ContentClass} {k : Case}
    (hk : k ∈ cases o classes) : TagArm o classes k.tag (armOf k) where
  named := labelTag?_caseLabel k.tag
  first := by
    obtain ⟨c, hfirst, hcase⟩ := first_of_mem_cases hk
    refine ⟨c, _, _, _, hfirst, givesTag_modelClass o c, ?_⟩
    rw [hcase]
    rfl
  label := by
    intro c _ htag
    refine ⟨_, _, _, givesTag_modelClass o c, ?_⟩
    rw [htag]
    rfl

theorem tagArms_cases (o : Options) (classes : List ContentClass) :
    List.Forall₂ (TagArm o classes) ((cases o classes).map (·.tag))
      ((cases o classes).map armOf) := by
  rw [List.forall₂_map_left_iff, List.forall₂_map_right_iff, List.forall₂_same]
  exact fun k hk => tagArm_of_mem_cases hk

/-! ### Dispatch -/

/-- The converter and the models among some files, with the code that is read. -/
structure ConverterFiles (o : Options) (classes : List ContentClass) (files : List Artifact) :
    Prop where
  converter : ⟨FileNames.fileName o.fileExtension "ContentPipelineModelJsonConverter",
    .jsonConverter, render (modelConverter o classes)⟩ ∈ files
  base : ⟨FileNames.fileName o.fileExtension "ContentPipelineModel", .baseModel,
    render (baseModel o)⟩ ∈ files
  models : ∃ own : List (Artifact × Artifact), List.Forall₂ (ClassFiles o) classes own ∧
    ∀ p ∈ own, p.1 ∈ files

/-- The converter dispatches the models of some classes by their tags. -/
structure DispatchesTags (o : Options) (classes : List ContentClass) : Prop where
  /-- Without classes there is no switch. -/
  bare : classes = [] → Write.openBlock switchHeader ∉ modelConverter o classes
  /-- The switch has one arm for each tag, and after them the default arm. -/
  switch : classes ≠ [] → ∃ tags arms,
    FirstAppearances (classes.map (·.discriminant)) tags ∧
      List.Forall₂ (TagArm o classes) tags arms ∧
      switchArms (modelConverter o classes) = arms ++ [defaultArm] ∧
      ∃ front, Write.openBlock switchHeader ∉ front ∧
        modelConverter o classes = front ++
          (block switchHeader ((arms ++ [defaultArm]).flatMap Arm.code) ++
            [Write.closeBlock closeBrace, Write.closeBlock closeBrace])
  /-- A model is written as the type that the first class with its tag declares. -/
  first : ∀ c ∈ classes, ∃ d ns name written, firstTagged? classes c.discriminant = some d ∧
    GivesTag ns name written (modelClass o d) ∧
    served? (modelConverter o classes) c.discriminant =
      some (.line (castLine (ns ++ "." ++ name)))
  /-- Where all tags are different, it is written as its own type. -/
  own : (classes.map (·.discriminant)).Nodup → ∀ c ∈ classes, ∃ ns name written,
    GivesTag ns name written (modelClass o c) ∧
    served? (modelConverter o classes) c.discriminant =
      some (.line (castLine (ns ++ "." ++ name)))
  /-- A base model is written as what it is. -/
  base : ∃ written,
    .line ("public virtual string PipelineModelType => " ++ written ++ ";") ∈ baseModel o ∧
    (∀ a ∈ switchArms (modelConverter o classes), a.label ≠ caseLabel written) ∧
    served? (modelConverter o classes) ContentClass.baseDiscriminant = some (.line fallbackLine)
  files : ∀ files, artifacts o false classes = .ok files → ConverterFiles o classes files

theorem served?_first {o : Options} {classes : List ContentClass} {tag : String}
    {c : ContentClass} (hfirst : firstTagged? classes tag = some c) :
    ∃ ns name written, GivesTag ns name written (modelClass o c) ∧
      served? (modelConverter o classes) tag = some (.line (castLine (ns ++ "." ++ name))) := by
  refine ⟨_, _, _, givesTag_modelClass o c, ?_⟩
  rw [served?_eq, hfirst]
  rfl

theorem exists_firstTagged? {classes : List ContentClass} {c : ContentClass} (hc : c ∈ classes) :
    ∃ d, firstTagged? classes c.discriminant = some d := by
  rw [← Option.isSome_iff_exists, firstTagged?, List.find?_isSome]
  exact ⟨c, hc, beq_self_eq_true _⟩

theorem served?_base (o : Options) (classes : List ContentClass) :
    served? (modelConverter o classes) ContentClass.baseDiscriminant =
      some (.line fallbackLine) := by
  have hnone : firstTagged? classes ContentClass.baseDiscriminant = none := by
    apply List.find?_eq_none.2
    intro c _ hsame
    exact discriminant_ne_base c (by simpa using hsame)
  rw [served?_eq, hnone]
  rfl

theorem switchArms_bare (o : Options) : switchArms (modelConverter o []) = [] := by
  have hnone : memberBody switchHeader (modelConverter o []) = [] := by
    have hskipped : (modelConverter o []).dropWhile (· ≠ Write.openBlock switchHeader) = [] := by
      apply List.dropWhile_eq_nil_iff.2
      intro w hw
      exact decide_eq_true fun h => switch_not_mem_bare o (h ▸ hw)
    rw [memberBody, hskipped]
    rfl
  have hempty : ∀ a ∈ ([] : List Arm), .dedent ∉ a.body := by
    intro a ha
    cases ha
  rw [switchArms, hnone]
  exact readArms_code hempty

theorem label_ne_base {o : Options} {classes : List ContentClass} {a : Arm}
    (ha : a ∈ switchArms (modelConverter o classes)) :
    a.label ≠ caseLabel (literal ContentClass.baseDiscriminant) := by
  by_cases hbare : classes = []
  · rw [hbare, switchArms_bare] at ha
    cases ha
  · rw [switchArms_of_ne_nil o hbare] at ha
    rcases List.mem_append.1 ha with hcase | hdefault
    · obtain ⟨k, hk, rfl⟩ := List.mem_map.1 hcase
      obtain ⟨c, -, hcase⟩ := first_of_mem_cases hk
      intro heq
      have htags := congrArg labelTag? heq
      rw [armOf, labelTag?_caseLabel, labelTag?_caseLabel, hcase] at htags
      exact discriminant_ne_base c (Option.some.inj htags)
    · obtain rfl := List.mem_singleton.1 hdefault
      exact (caseLabel_ne_default _).symm

theorem converterFiles_allFiles (o : Options) (classes : List ContentClass) :
    ConverterFiles o classes (allFiles o classes) where
  converter := by
    have hshared : ⟨"ContentPipelineModelJsonConverter", .jsonConverter,
        modelConverter o classes⟩ ∈ sharedFiles o classes :=
      List.mem_append_left _ (List.mem_append_right _ (List.mem_cons_self ..))
    have hfile := shared_mem_allFiles hshared
    exact hfile
  base := by
    have hshared : ⟨"ContentPipelineModel", .baseModel, baseModel o⟩ ∈ sharedFiles o classes := by
      rw [sharedFiles_eq]
      exact List.mem_append_left _ (List.mem_cons_self ..)
    have hfile := shared_mem_allFiles hshared
    exact hfile
  models := by
    obtain ⟨own, hnamed, hown⟩ := nameClasses_pairs
      (extension_holding o.fileExtension ((sharedFiles o classes).map (·.stem))) classes
    refine ⟨own, hown, fun p hp => ?_⟩
    rw [allFiles, hnamed]
    exact List.mem_append_right _ (List.mem_flatMap.2 ⟨p, hp, List.mem_cons_self ..⟩)

/-- For all classes, the switch of the converter has one arm for each tag, in the order in which
the tags first appear.  The label of an arm is the literal that the models with the tag give, and
the arm casts to the type that the model of the first such class declares.  A base model has none of
these tags. -/
theorem dispatchesTags (o : Options) (classes : List ContentClass) : DispatchesTags o classes where
  bare := by
    rintro rfl
    exact switch_not_mem_bare o
  switch hsome := ⟨_, _, firstAppearances_cases o classes, tagArms_cases o classes,
    switchArms_of_ne_nil o hsome, _, switch_not_mem_front o, modelConverter_of_ne_nil o hsome⟩
  first c hc := by
    obtain ⟨d, hfirst⟩ := exists_firstTagged? hc
    obtain ⟨ns, name, written, hgives, hserved⟩ := served?_first (o := o) hfirst
    exact ⟨d, ns, name, written, hfirst, hgives, hserved⟩
  own hnodup c hc := served?_first (firstTagged?_of_nodup hnodup hc)
  base := ⟨_, by simp [baseModel, file, block, blockWith], fun a ha => label_ne_base ha,
    served?_base o classes⟩
  files files hfiles := by
    rw [eq_allFiles hfiles]
    exact converterFiles_allFiles o classes

/-- Two classes with one tag and different models. -/
def overlapping : List ContentClass :=
  [⟨"Page", ⟨1⟩, "Site.News", 0, "Site.Page", []⟩, ⟨"News.Page", ⟨2⟩, "Site", 0, "Site.News", []⟩]

theorem dispatchesTags_overlapping :
    DispatchesTags .standard overlapping ∧
      overlapping.map (·.discriminant) = ["Site.News.Page", "Site.News.Page"] ∧
      ∃ files, artifacts .standard false overlapping = .ok files ∧
        ConverterFiles .standard overlapping files := by
  have hfiles : artifacts .standard false overlapping = .ok (allFiles .standard overlapping) := by
    have hfree : contested? overlapping = none := by decide
    rw [artifacts_eq, hfree]
  have hdispatches := dispatchesTags .standard overlapping
  exact ⟨hdispatches, by decide, _, hfiles, hdispatches.files _ hfiles⟩

end ContentLoom.Generated

import ContentLoom.Proofs.GeneratedFiles
import ContentLoom.Proofs.StepResults

/-!
# Dispatch to pipelines

The generated service tests the type of its content in the order of the classes,
and so the first class of a type is the one whose pipeline it runs.  A composed
service has the pipeline of the last class of a type.  They are the same class,
and give models with the same tag, where no two classes have one name.
-/

namespace ContentLoom.Generated

open Code Naming

/-! ### Reading the generated service -/

/-- The code between the braces of the member with a header. -/
def memberBody (header : String) (code : List Write) : List Write :=
  ((code.dropWhile (· ≠ .openBlock header)).drop 1).takeWhile (· ≠ .closeBlock closeBrace)

/-- The test for a type of content. -/
def typeTest (type : String) : Write :=
  .line ("if (contentType == typeof(" ++ rooted type ++ "))")

/-- What is run for a type: the line after the first test for it. -/
def chosen? (type : String) (body : List Write) : Option Write :=
  ((body.dropWhile (· ≠ typeTest type)).drop 1).head?

/-- The member that runs a pipeline. -/
def runHeader : String :=
  "protected override IContentPipelineModel RunPipelineForContent(IContentData content, IContentPipelineContext pipelineContext)"

/-- The member that runs a pipeline for a caller that waits. -/
def waitingHeader : String :=
  "protected override Task<IContentPipelineModel> RunPipelineForContentAsync(IContentData content, IContentPipelineContext pipelineContext)"

theorem memberBody_block {header : String} {front body rest : List Write}
    (hfront : .openBlock header ∉ front) (hbody : .closeBlock closeBrace ∉ body) :
    memberBody header (front ++ (block header body ++ rest)) = body := by
  have hskip : (front ++ (block header body ++ rest)).dropWhile (· ≠ .openBlock header) =
      block header body ++ rest := by
    rw [List.dropWhile_append_of_pos]
    · simp [block, blockWith]
    · intro w hw
      exact decide_eq_true fun h => hfront (h ▸ hw)
  have hdrop : (block header body ++ rest).drop 1 = body ++ (.closeBlock closeBrace :: rest) := by
    simp [block, blockWith]
  rw [memberBody, hskip, hdrop, List.takeWhile_append_of_pos]
  · simp
  · intro w hw
    exact decide_eq_true fun h => hbody (h ▸ hw)

theorem chosen?_self (type : String) (ws : List Write) :
    chosen? type (typeTest type :: ws) = ws.head? := by
  simp [chosen?]

theorem chosen?_cons {type : String} {w : Write} (h : w ≠ typeTest type) (ws : List Write) :
    chosen? type (w :: ws) = chosen? type ws := by
  simp [chosen?, h]

theorem line_ne_typeTest {text : String} (type : String) (h : text.toList.head? ≠ some 'i') :
    .line text ≠ typeTest type := by
  intro heq
  apply h
  rw [Write.line.inj heq]
  simp [String.toList_append]

theorem rooted_injective : Function.Injective rooted :=
  fun _ _ h => (String.append_right_inj "global::").1 h

theorem line_eq_typeTest_iff (content type : String) :
    Write.line ("if (contentType == typeof(" ++ content ++ "))") = typeTest type ↔
      content = rooted type := by
  rw [typeTest, Write.line.injEq, String.append_left_inj, String.append_right_inj]

/-- The tests of some branches, each with what is run for its type. -/
def branchTests (call : Branch → String) (bs : List Branch) : List Write :=
  bs.flatMap fun b =>
    lines ["if (contentType == typeof(" ++ b.content ++ "))", "    return " ++ call b]

theorem chosen?_branchTests (type : String) (call : Branch → String) (bs : List Branch)
    {rest : List Write} (hrest : chosen? type rest = none) :
    chosen? type (branchTests call bs ++ rest) =
      (bs.find? fun b => b.content == rooted type).map fun b =>
        .line ("    return " ++ call b) := by
  induction bs with
  | nil => exact hrest
  | cons b bs ih =>
    have hpair : branchTests call (b :: bs) ++ rest =
        .line ("if (contentType == typeof(" ++ b.content ++ "))") ::
          .line ("    return " ++ call b) :: (branchTests call bs ++ rest) := by
      simp [branchTests, lines]
    rw [hpair, List.find?_cons]
    by_cases hcontent : b.content = rooted type
    · rw [(line_eq_typeTest_iff b.content type).2 hcontent, chosen?_self]
      simp [hcontent]
    · have hreturn : Write.line ("    return " ++ call b) ≠ typeTest type :=
        line_ne_typeTest type (by simp [String.toList_append])
      have hne : (b.content == rooted type) = false := beq_eq_false_iff_ne.2 hcontent
      rw [chosen?_cons (fun h => hcontent ((line_eq_typeTest_iff b.content type).1 h)),
        chosen?_cons hreturn, ih, hne]

/-- The code of a member that runs the pipeline of the first branch with the type of the content. -/
def dispatchBody (call : Branch → String) (otherwise : String) (bs : List Branch) : List Write :=
  (if bs.isEmpty then [] else [Write.line "var contentType = content.GetOriginalType();"]) ++
    branchTests call bs ++ (if bs.isEmpty then [] else [Write.blank]) ++ [Write.line otherwise]

theorem dispatchMember_eq (header : String) (call : Branch → String) (otherwise : String)
    (bs : List Branch) :
    dispatchMember header call otherwise bs = block header (dispatchBody call otherwise bs) := rfl

theorem chosen?_dispatchBody (type : String) (call : Branch → String) {otherwise : String}
    (hother : otherwise.toList.head? ≠ some 'i') (bs : List Branch) :
    chosen? type (dispatchBody call otherwise bs) =
      (bs.find? fun b => b.content == rooted type).map fun b =>
        .line ("    return " ++ call b) := by
  have hlast : chosen? type [.line otherwise] = none := by
    rw [chosen?_cons (line_ne_typeTest type hother)]
    rfl
  have hrest : chosen? type ((if bs.isEmpty then [] else [.blank]) ++ [.line otherwise]) =
      none := by
    split
    · exact hlast
    · rw [List.singleton_append, chosen?_cons (by simp [typeTest]), hlast]
  have hfirst : Write.line "var contentType = content.GetOriginalType();" ≠ typeTest type :=
    line_ne_typeTest type (by decide)
  rw [dispatchBody, List.append_assoc, List.append_assoc]
  split
  · rename_i hempty
    rw [if_pos hempty] at hrest
    exact chosen?_branchTests type call bs hrest
  · rename_i hsome
    rw [if_neg hsome] at hrest
    rw [List.singleton_append, chosen?_cons hfirst]
    exact chosen?_branchTests type call bs hrest

theorem closeBlock_not_mem_dispatchBody (call : Branch → String) (otherwise : String)
    (bs : List Branch) : .closeBlock closeBrace ∉ dispatchBody call otherwise bs := by
  simp [dispatchBody, branchTests, lines]

/-! ### The two members of the service -/

/-- What stands in the service before its members that dispatch. -/
def serviceFront (o : Options) (bs : List Branch) : List Write :=
  fileHead ++ usings ["System.Threading.Tasks", "EPiServer", "EPiServer.Core",
      under o "Interfaces", under o "Entities", under o "Models"] ++
    [Write.blank] ++ namespaceOf (under o "Services") ++
    summary "Dispatches content to the pipeline of its exact type" ++
    [Write.openBlock "public partial class ContentPipelineService : BaseContentPipelineService"] ++
    (bs.map fun b => Write.line ("private readonly " ++ b.pipeline ++ " _" ++ b.member ++ ";")) ++
    (if bs.isEmpty then [] else [Write.blank]) ++ serviceConstructor bs ++ [Write.blank]

/-- What stands in the service after them. -/
def serviceEnd : List Write :=
  [.blank, .line "private static async Task<IContentPipelineModel> Widen<TPipelineModel>(Task<TPipelineModel> run)"] ++
    indented (lines ["where TPipelineModel : IContentPipelineModel"]) ++
    block "" [.line "return await run;"] ++ [.closeBlock closeBrace]

theorem pipelineService_eq (o : Options) (classes : List ContentClass) :
    pipelineService o classes = serviceFront o (branches o classes) ++
      (dispatchMember runHeader runCall "return new ContentPipelineModel();" (branches o classes) ++
        ([.blank] ++
          (dispatchMember waitingHeader waitingCall
              "return Task.FromResult<IContentPipelineModel>(new ContentPipelineModel());"
              (branches o classes) ++ serviceEnd))) := by
  simp only [pipelineService, serviceFile, file, block, blockWith, serviceFront, serviceEnd,
    List.append_assoc, List.cons_append, List.nil_append, List.isEmpty_cons]
  rfl

theorem openBlock_mem_serviceFront {o : Options} {bs : List Branch} {header : String}
    (h : .openBlock header ∈ serviceFront o bs) :
    header ∈ ["public partial class ContentPipelineService : BaseContentPipelineService", "",
      "public ContentPipelineService()"] := by
  have hconstructor : .openBlock header ∈ serviceConstructor bs →
      header = "" ∨ header = "public ContentPipelineService()" := by
    unfold serviceConstructor
    split
    · intro hmem
      exact Or.inr (by simpa [block, blockWith] using hmem)
    · intro hmem
      exact Or.inl (by simpa [block, blockWith, indented, lines] using hmem)
  have hopened :
      header = "public partial class ContentPipelineService : BaseContentPipelineService" ∨
        .openBlock header ∈ serviceConstructor bs := by
    simpa [serviceFront, fileHead, lines, usings, namespaceOf, summary] using h
  rcases hopened with rfl | hmem
  · exact List.mem_cons_self ..
  · rcases hconstructor hmem with rfl | rfl <;> decide

theorem memberBody_run (o : Options) (classes : List ContentClass) :
    memberBody runHeader (pipelineService o classes) =
      dispatchBody runCall "return new ContentPipelineModel();" (branches o classes) := by
  rw [pipelineService_eq, dispatchMember_eq]
  refine memberBody_block (fun hmem => ?_) (closeBlock_not_mem_dispatchBody _ _ _)
  exact absurd (openBlock_mem_serviceFront hmem) (by simp [runHeader])

theorem memberBody_waiting (o : Options) (classes : List ContentClass) :
    memberBody waitingHeader (pipelineService o classes) =
      dispatchBody waitingCall
        "return Task.FromResult<IContentPipelineModel>(new ContentPipelineModel());"
        (branches o classes) := by
  rw [pipelineService_eq, ← List.append_assoc, ← List.append_assoc, dispatchMember_eq waitingHeader]
  refine memberBody_block (fun hmem => ?_) (closeBlock_not_mem_dispatchBody _ _ _)
  have hbody : .openBlock waitingHeader ∉ dispatchBody runCall "return new ContentPipelineModel();"
      (branches o classes) := by
    simp [dispatchBody, branchTests, lines]
  rw [List.mem_append, List.mem_append] at hmem
  rcases hmem with (hmem | hmem) | hmem
  · exact absurd (openBlock_mem_serviceFront hmem) (by simp [waitingHeader])
  · have hother : waitingHeader ≠ runHeader := by simp [waitingHeader, runHeader]
    simp [dispatchMember_eq, block, blockWith, hother, hbody] at hmem
  · simp at hmem

/-! ### The class of a branch -/

/-- The branch of a class with a name for its member. -/
def branchOf (o : Options) (c : ContentClass) (member : String) : Branch :=
  ⟨rooted c.fullName,
    "IContentPipeline<" ++ rooted c.fullName ++ ", " ++ rooted (modelType o c) ++ ">",
    lowerFirst member⟩

/-- The first class with a full name. -/
def firstNamed? (classes : List ContentClass) (type : String) : Option ContentClass :=
  classes.find? (·.fullName == type)

theorem length_pipelineMembers (classes : List ContentClass) :
    (pipelineMembers classes).length = classes.length := length_claimEach ..

theorem find?_branches (o : Options) (classes : List ContentClass) (type : String) :
    ((branches o classes).find? fun b => b.content == rooted type) =
      ((classes.zip (pipelineMembers classes)).find? fun e => e.1.fullName == type).map
        fun e => branchOf o e.1 e.2 := by
  have htest (e : ContentClass × String) :
      ((branchOf o e.1 e.2).content == rooted type) = (e.1.fullName == type) := by
    rw [Bool.eq_iff_iff, beq_iff_eq, beq_iff_eq]
    exact rooted_injective.eq_iff
  have hbranches : branches o classes =
      (classes.zip (pipelineMembers classes)).map fun e => branchOf o e.1 e.2 := rfl
  rw [hbranches, List.find?_map]
  simp only [Function.comp_def, htest]

theorem firstNamed?_eq (classes : List ContentClass) (type : String) :
    firstNamed? classes type =
      ((classes.zip (pipelineMembers classes)).find? fun e => e.1.fullName == type).map
        Prod.fst := by
  have hclasses := List.map_fst_zip (Nat.le_of_eq (length_pipelineMembers classes).symm)
  conv => lhs; rw [firstNamed?, ← hclasses, List.find?_map]
  rfl

theorem chosen?_run (o : Options) (classes : List ContentClass) (type : String) :
    chosen? type (memberBody runHeader (pipelineService o classes)) =
      ((classes.zip (pipelineMembers classes)).find? fun e => e.1.fullName == type).map fun e =>
        .line ("    return " ++ runCall (branchOf o e.1 e.2)) := by
  rw [memberBody_run, chosen?_dispatchBody type runCall (by decide), find?_branches, Option.map_map]
  rfl

theorem chosen?_waiting (o : Options) (classes : List ContentClass) (type : String) :
    chosen? type (memberBody waitingHeader (pipelineService o classes)) =
      ((classes.zip (pipelineMembers classes)).find? fun e => e.1.fullName == type).map fun e =>
        .line ("    return " ++ waitingCall (branchOf o e.1 e.2)) := by
  rw [memberBody_waiting, chosen?_dispatchBody type waitingCall (by decide), find?_branches,
    Option.map_map]
  rfl

/-! ### What the generated code does for a type -/

/-- Among the files the service runs the pipeline of a class for a type, and the model of the class
has its tag. -/
structure Dispatches (o : Options) (classes : List ContentClass) (files : List Artifact)
    (type : String) (c : ContentClass) : Prop where
  named : c.fullName = type
  branch : ∃ b : Branch, b.content = rooted type ∧
    b.pipeline = "IContentPipeline<" ++ rooted type ++ ", " ++ rooted (modelType o c) ++ ">" ∧
    .line ("private readonly " ++ b.pipeline ++ " _" ++ b.member ++ ";") ∈
      pipelineService o classes ∧
    chosen? type (memberBody runHeader (pipelineService o classes)) =
      some (.line ("    return " ++ runCall b)) ∧
    chosen? type (memberBody waitingHeader (pipelineService o classes)) =
      some (.line ("    return " ++ waitingCall b))
  service : ∃ a ∈ files, a.fileName = FileNames.fileName o.fileExtension "ContentPipelineService" ∧
    a.source = render (pipelineService o classes)
  model : ∃ a ∈ files, a.source = render (modelClass o c)
  tag : .line ("public override string PipelineModelType => " ++ literal c.discriminant ++ ";") ∈
    modelClass o c

theorem field_mem_pipelineService {o : Options} {classes : List ContentClass} {b : Branch}
    (hb : b ∈ branches o classes) :
    .line ("private readonly " ++ b.pipeline ++ " _" ++ b.member ++ ";") ∈
      pipelineService o classes := by
  have hfields : Write.line ("private readonly " ++ b.pipeline ++ " _" ++ b.member ++ ";") ∈
      (branches o classes).map fun b =>
        Write.line ("private readonly " ++ b.pipeline ++ " _" ++ b.member ++ ";") :=
    List.mem_map.2 ⟨b, hb, rfl⟩
  rw [pipelineService_eq, serviceFront]
  simp only [List.mem_append, hfields, true_or, or_true]

theorem tag_mem_modelClass (o : Options) (c : ContentClass) :
    .line ("public override string PipelineModelType => " ++ literal c.discriminant ++ ";") ∈
      modelClass o c := by
  simp [modelClass, file, block, blockWith]

theorem exists_of_forall₂ {α β : Type} {R : α → β → Prop} {xs : List α} {ys : List β}
    (h : List.Forall₂ R xs ys) {x : α} (hx : x ∈ xs) : ∃ y ∈ ys, R x y := by
  induction h with
  | nil => cases hx
  | cons hfirst _ ih =>
    rcases List.mem_cons.1 hx with rfl | hx
    · exact ⟨_, List.mem_cons_self .., hfirst⟩
    · obtain ⟨y, hy, hrel⟩ := ih hx
      exact ⟨y, List.mem_cons_of_mem _ hy, hrel⟩

theorem shared_mem_allFiles {o : Options} {classes : List ContentClass} {f : SharedFile}
    (hf : f ∈ sharedFiles o classes) :
    ⟨FileNames.fileName o.fileExtension f.stem, f.kind, render f.code⟩ ∈ allFiles o classes :=
  List.mem_append_left _ (List.mem_map_of_mem hf)

theorem service_mem_allFiles (o : Options) (classes : List ContentClass) :
    ∃ a ∈ allFiles o classes,
      a.fileName = FileNames.fileName o.fileExtension "ContentPipelineService" ∧
        a.source = render (pipelineService o classes) := by
  have hservice : ⟨"ContentPipelineService", .service, pipelineService o classes⟩ ∈
      serviceClasses o classes := by simp [serviceClasses]
  have hshared : ⟨"ContentPipelineService", .service, pipelineService o classes⟩ ∈
      sharedFiles o classes :=
    List.mem_append_left _ (List.mem_append_left _ (List.mem_append_right _ hservice))
  exact ⟨_, shared_mem_allFiles hshared, rfl, rfl⟩

theorem model_mem_allFiles (o : Options) {classes : List ContentClass} {c : ContentClass}
    (hc : c ∈ classes) : ∃ a ∈ allFiles o classes, a.source = render (modelClass o c) := by
  obtain ⟨own, hnamed, hown⟩ := nameClasses_pairs
    (extension_holding o.fileExtension ((sharedFiles o classes).map (·.stem))) classes
  obtain ⟨pair, hpair, hfiles⟩ := exists_of_forall₂ hown hc
  have hmem : pair.1 ∈ own.flatMap fun p => [p.1, p.2] :=
    List.mem_flatMap.2 ⟨pair, hpair, List.mem_cons_self ..⟩
  rw [← hnamed] at hmem
  exact ⟨pair.1, List.mem_append_right _ hmem, hfiles.modelSource⟩

theorem dispatches_first {o : Options} {classes : List ContentClass} {files : List Artifact}
    (hfiles : artifacts o false classes = .ok files) {type : String} {c : ContentClass}
    (hfirst : firstNamed? classes type = some c) : Dispatches o classes files type c := by
  obtain rfl := eq_allFiles hfiles
  rw [firstNamed?_eq] at hfirst
  obtain ⟨⟨d, member⟩, hfind, rfl⟩ := Option.map_eq_some_iff.1 hfirst
  have hnamed : d.fullName = type := by simpa using List.find?_some hfind
  have hmem := List.mem_of_find?_eq_some hfind
  have hbranch : branchOf o d member ∈ branches o classes := List.mem_map.2 ⟨_, hmem, rfl⟩
  refine ⟨hnamed, ⟨branchOf o d member, ?_, ?_, field_mem_pipelineService hbranch, ?_, ?_⟩,
    service_mem_allFiles o classes, model_mem_allFiles o (List.of_mem_zip hmem).1,
    tag_mem_modelClass o d⟩
  · rw [branchOf, hnamed]
  · rw [branchOf, hnamed]
  · rw [chosen?_run, hfind]
    rfl
  · rw [chosen?_waiting, hfind]
    rfl

end ContentLoom.Generated

namespace ContentLoom.Pipeline

open Generated

variable {σ : Type}

/-! ### What a composed service does for a type -/

/-- The service runs the pipeline of a class for a type: its mapping among the steps added for the
type, and its tag on every model as long as no added step changes it. -/
structure Runs (s : Service σ) (registry : Registry σ) (added : List (Addition σ)) (type : String)
    (c : ContentClass) : Prop where
  named : c.fullName = type
  pipeline : ∃ mapping, MappingStep.of registry c = .ok mapping ∧
    ∀ item : ContentItem, item.contentType = type →
      s.prepare item = (.ofKind (.ofClass c.discriminant),
        Step.inOrder (mapping.toStep :: stepsFor type added))
  tag : (∀ step ∈ sharedSteps added ++ stepsFor type added,
      step.Keeps fun model => model.discriminant = c.discriminant) →
    ∀ (mode : Mode) (item : ContentItem) (language : Option String), item.contentType = type →
      Gives (s.execute mode item language) fun model => model.discriminant = c.discriminant

theorem runs_last {classes : List ContentClass} {registry : Registry σ} {maxDepth : Nat}
    {added : List (Addition σ)} {s : Service σ}
    (hbuilt : (added.foldl Composition.add (.ofClasses classes registry maxDepth)).build = .ok s)
    {type : String} {c : ContentClass} (hlast : classFor? classes type = some c) :
    Runs s registry added type c where
  named := (mem_of_classFor? hlast).2
  pipeline := by
    have hall (item : ContentItem) (htype : item.contentType = type) :
        ∃ mapping, MappingStep.of registry c = .ok mapping ∧
          s.prepare item = (.ofKind (.ofClass c.discriminant),
            Step.inOrder (mapping.toStep :: stepsFor type added)) := by
      have hitem := (prepare_last hbuilt).2.2 item
      rw [htype, hlast] at hitem
      exact hitem
    obtain ⟨mapping, hmapping, -⟩ := hall (.ofType type) rfl
    refine ⟨mapping, hmapping, fun item htype => ?_⟩
    obtain ⟨other, hother, hpair⟩ := hall item htype
    rw [hpair, Except.ok.inj (hother.symm.trans hmapping)]
  tag := by
    rintro hkeeps mode item language rfl
    exact execute_gives (P := fun model => model.discriminant = c.discriminant) hbuilt hlast rfl
      (fun _ _ _ _ hmodel => hmodel) hkeeps mode language

theorem firstNamed?_eq_none_iff {classes : List ContentClass} {type : String} :
    firstNamed? classes type = none ↔ ∀ c ∈ classes, c.fullName ≠ type := by
  simp [firstNamed?]

theorem mem_of_firstNamed? {classes : List ContentClass} {type : String} {c : ContentClass}
    (h : firstNamed? classes type = some c) : c ∈ classes ∧ c.fullName = type := by
  have hnamed := List.find?_some h
  exact ⟨List.mem_of_find?_eq_some h, by simpa using hnamed⟩

/-- A type without a class is dispatched to no pipeline, neither in the generated code nor at run
time.  Otherwise the generated code runs the pipeline of its first class and the composed service
that of its last one, which is the same class if no two classes have one name. -/
theorem dispatch_of_built {o : Options} {classes : List ContentClass} {files : List Artifact}
    {registry : Registry σ} {maxDepth : Nat} {added : List (Addition σ)} {s : Service σ}
    (hfiles : artifacts o false classes = .ok files)
    (hbuilt : (added.foldl Composition.add (.ofClasses classes registry maxDepth)).build = .ok s)
    (type : String) :
    ((∀ c ∈ classes, c.fullName ≠ type) ∧
      chosen? type (memberBody runHeader (pipelineService o classes)) = none ∧
      chosen? type (memberBody waitingHeader (pipelineService o classes)) = none ∧
      ∀ item : ContentItem, item.contentType = type → s.prepare item = (.base, [])) ∨
    ∃ first last, firstNamed? classes type = some first ∧ classFor? classes type = some last ∧
      Dispatches o classes files type first ∧ Runs s registry added type last ∧
      ((classes.map (·.fullName)).Nodup → first = last) := by
  cases hfirst : firstNamed? classes type with
  | none =>
    have hunnamed := firstNamed?_eq_none_iff.1 hfirst
    have hnone := classFor?_eq_none_iff.2 hunnamed
    have hbranch : (classes.zip (Naming.pipelineMembers classes)).find?
        (fun e => e.1.fullName == type) = none :=
      Option.map_eq_none_iff.1 (firstNamed?_eq classes type ▸ hfirst)
    refine Or.inl ⟨hunnamed, ?_, ?_, fun item htype => ?_⟩
    · rw [chosen?_run, hbranch]
      rfl
    · rw [chosen?_waiting, hbranch]
      rfl
    · have hitem := (prepare_last hbuilt).2.2 item
      rw [htype, hnone] at hitem
      exact hitem
  | some first =>
    obtain ⟨hmem, hnamed⟩ := mem_of_firstNamed? hfirst
    cases hlast : classFor? classes type with
    | none => exact absurd hnamed (classFor?_eq_none_iff.1 hlast first hmem)
    | some last =>
      obtain ⟨hlater, hname⟩ := mem_of_classFor? hlast
      refine Or.inr ⟨first, last, rfl, rfl, dispatches_first hfiles hfirst, runs_last hbuilt hlast,
        fun hnodup => ?_⟩
      exact List.inj_on_of_nodup_map hnodup hmem hlater (hnamed.trans hname.symm)

/-- A class of pages in a group of its own. -/
def pageIn (group : String) : ContentClass := ⟨"Page", ⟨1⟩, group, 0, "Site.Page", []⟩

theorem dispatch_of_repeated :
    ∃ files s, artifacts .standard false [pageIn "First", pageIn "Second"] = .ok files ∧
      (([] : List (Addition Unit)).foldl Composition.add
        (.ofClasses [pageIn "First", pageIn "Second"] .empty 16)).build = .ok s ∧
      Dispatches .standard [pageIn "First", pageIn "Second"] files "Site.Page" (pageIn "First") ∧
      Runs s .empty [] "Site.Page" (pageIn "Second") ∧
      (pageIn "First").discriminant ≠ (pageIn "Second").discriminant := by
  have hfiles : artifacts .standard false [pageIn "First", pageIn "Second"] =
      .ok (allFiles .standard [pageIn "First", pageIn "Second"]) := by
    have hfree : contested? [pageIn "First", pageIn "Second"] = none := by decide
    rw [artifacts_eq, hfree]
  have hbuilt : ∃ s, (([] : List (Addition Unit)).foldl Composition.add
      (.ofClasses [pageIn "First", pageIn "Second"] .empty 16)).build = .ok s := ⟨_, rfl⟩
  obtain ⟨s, hbuilt⟩ := hbuilt
  refine ⟨_, s, hfiles, hbuilt, ?_⟩
  rcases dispatch_of_built hfiles hbuilt "Site.Page" with ⟨hunnamed, -⟩ |
    ⟨first, last, hfirst, hlast, hdispatches, hruns, -⟩
  · exact absurd rfl (hunnamed (pageIn "First") (List.mem_cons_self ..))
  · obtain rfl : pageIn "First" = first := Option.some.inj hfirst
    obtain rfl : pageIn "Second" = last := Option.some.inj hlast
    exact ⟨hdispatches, hruns, by decide⟩

end ContentLoom.Pipeline

import ContentLoom.Proofs.GroupNames
import ContentLoom.Proofs.ResolutionActs

/-!
# Names of shared files

The files that belong to no class have names of their own, except that the
interface of a group can have the name of a contract: that of all models for the
group `Content`, and that of links for the group `Link`.  A run on valid options
fails in these two cases only.
-/

namespace ContentLoom.Generated

open Naming FileNames

/-! ### Naming in order -/

/-- The names given to files with some stems, the last one in front. -/
def holding (extension : String) (stems : List String) : FileNames :=
  ⟨extension, (stems.map (fileName extension)).reverse⟩

/-- Files with the names of their stems. -/
def named (extension : String) (files : List SharedFile) : List Artifact :=
  files.map fun f => ⟨fileName extension f.stem, f.kind, Code.render f.code⟩

theorem fileName_injective (extension : String) : Function.Injective (fileName extension) := by
  intro s t h
  exact (String.append_left_inj ".g.").1 ((String.append_left_inj extension).1 h)

theorem contains_holding (extension stem : String) (stems : List String) :
    (holding extension stems).taken.contains (fileName extension stem) = true ↔ stem ∈ stems := by
  have hmem : fileName extension stem ∈ stems.map (fileName extension) ↔ stem ∈ stems :=
    List.mem_map_of_injective (fileName_injective extension)
  rw [List.contains_iff_mem, holding, List.mem_reverse, hmem]

theorem shared_of_fresh (extension stem : String) (stems : List String) (h : stem ∉ stems) :
    (holding extension stems).shared stem =
      .ok (fileName extension stem, holding extension (stems ++ [stem])) := by
  have hfree : ¬(holding extension stems).taken.contains (fileName extension stem) = true := by
    rw [contains_holding]
    exact h
  have htaken : fileName extension stem :: (holding extension stems).taken =
      (holding extension (stems ++ [stem])).taken := by simp [holding]
  have hstep : (holding extension stems).shared stem = .ok (fileName extension stem,
      ⟨extension, fileName extension stem :: (holding extension stems).taken⟩) := if_neg hfree
  rw [hstep, htaken]
  rfl

theorem shared_of_taken (extension stem : String) (stems : List String) (h : stem ∈ stems) :
    (holding extension stems).shared stem =
      .error (.duplicateArtifact (fileName extension stem)) := by
  have htaken := (contains_holding extension stem stems).2 h
  exact if_pos htaken

/-- Files whose stems are new are named, and those after them come next. -/
theorem nameShared_append (extension : String) (stems : List String) (files rest : List SharedFile)
    (hnodup : (stems ++ files.map (·.stem)).Nodup) :
    nameShared (holding extension stems) (files ++ rest) =
      (nameShared (holding extension (stems ++ files.map (·.stem))) rest).map
        fun (artifacts, names) => (named extension files ++ artifacts, names) := by
  induction files generalizing stems with
  | nil =>
    rw [List.map_nil, List.append_nil, List.nil_append]
    cases nameShared (holding extension stems) rest <;> rfl
  | cons f files ih =>
    have hmoved : stems ++ (f :: files).map (·.stem) =
        (stems ++ [f.stem]) ++ files.map (·.stem) := by simp
    rw [hmoved] at hnodup ⊢
    have hfront : (stems ++ [f.stem]).Nodup := hnodup.of_append_left
    have hfresh : f.stem ∉ stems := by
      intro hmem
      exact (List.nodup_append.1 hfront).2.2 f.stem hmem f.stem (List.mem_singleton.2 rfl) rfl
    rw [List.cons_append, nameShared, shared_of_fresh extension f.stem stems hfresh]
    change Except.bind (nameShared (holding extension (stems ++ [f.stem])) (files ++ rest)) _ = _
    rw [ih (stems ++ [f.stem]) hnodup]
    cases nameShared (holding extension (stems ++ [f.stem] ++ files.map (·.stem))) rest <;> rfl

theorem nameShared_cons_of_taken (extension : String) (stems : List String) (f : SharedFile)
    (rest : List SharedFile) (h : f.stem ∈ stems) :
    nameShared (holding extension stems) (f :: rest) =
      .error (.duplicateArtifact (fileName extension f.stem)) := by
  rw [nameShared, shared_of_taken extension f.stem stems h]
  rfl

/-! ### Stems -/

/-- The stem of the interface of a group. -/
def groupStem (group : String) : String := "I" ++ group ++ "PipelineModel"

/-- The part of a stem that is the group where it is the interface of one. -/
def groupOfStem (stem : String) : String :=
  String.ofList ((stem.toList.drop 1).reverse.drop 13).reverse

/-- The files that depend on no group. -/
def fixedFiles (o : Options) (classes : List ContentClass) : List SharedFile :=
  contracts o ++ (valueTypes o ++ (markerClasses o ++ (defaultConverters o ++
    (pipelineBases o ++ (serviceClasses o classes ++ (serializers o classes ++
      registrations o classes))))))

/-- The stems of the files that depend on no group. -/
def fixedStems : List String :=
  ["IContentPipelineModel", "ILinkPipelineModel", "IContentPropertyConverter"] ++
  KnownConverter.all.map (·.contract) ++
  ["IEnumConverter", "IXhtmlRenderService", "IContentPipelineContext", "IContentPipelineStep",
    "IContentPipeline", "IContentPipelineService",
    "Link", "Media", "ContentAreaItemPipelineModel", "ContentAreaPipelineModel",
    "ContentPipelineIgnoreAttribute", "ContentPipelineModelAttribute",
    "ContentPipelinePropertyConverterAttribute", "IContentPipelinePropertyConverterAttribute",
    "EnumConverter"] ++
  KnownConverter.all.map (·.implementation) ++
  ["ContentPipelineStep", "AsyncContentPipelineStep", "DefaultContentPipeline",
    "PipelineArgs", "ContentPipelineContext", "BaseContentPipelineService",
    "ContentPipelineService", "XhtmlRenderService",
    "ContentPipelineModelJsonConverter", "LinkPipelineModelJsonConverter",
    "PipelineStepsServiceCollectionExtensions", "ContentPipelineServiceCollectionExtensions"]

theorem stems_fixedFiles (o : Options) (classes : List ContentClass) :
    (fixedFiles o classes).map (·.stem) = fixedStems := by
  simp only [fixedFiles, contracts, valueTypes, markerClasses, defaultConverters, pipelineBases,
    serviceClasses, serializers, registrations, fixedStems, List.map_append, List.map_cons,
    List.map_nil, List.map_map, Function.comp_def, List.append_assoc, List.cons_append,
    List.nil_append]

theorem sharedFiles_eq (o : Options) (classes : List ContentClass) :
    sharedFiles o classes = baseModels o classes ++ fixedFiles o classes := by
  simp [sharedFiles, fixedFiles, List.append_assoc]

theorem stems_baseModels (o : Options) (classes : List ContentClass) :
    (baseModels o classes).map (·.stem) =
      "ContentPipelineModel" :: (groupNames classes).map groupStem := by
  simp [baseModels, groupStem]

/-- A stem depends on no group, or it is that of the interface of a group. -/
theorem stem_of_mem_sharedFiles {o : Options} {classes : List ContentClass} {f : SharedFile}
    (h : f ∈ sharedFiles o classes) :
    f.stem ∈ "ContentPipelineModel" :: fixedStems ∨
      ∃ c ∈ classes, f.stem = groupStem (groupName c) := by
  rw [sharedFiles_eq, List.mem_append] at h
  rcases h with h | h
  · have hstem : f.stem ∈ "ContentPipelineModel" :: (groupNames classes).map groupStem := by
      rw [← stems_baseModels o]
      exact List.mem_map_of_mem h
    rcases List.mem_cons.1 hstem with hbase | hgroup
    · exact Or.inl (hbase ▸ List.mem_cons_self ..)
    · obtain ⟨group, hgroup, hstem⟩ := List.mem_map.1 hgroup
      obtain ⟨c, hc, rfl⟩ := (mem_groupNames classes group).1 hgroup
      exact Or.inr ⟨c, hc, hstem.symm⟩
  · refine Or.inl (List.mem_cons_of_mem _ ?_)
    rw [← stems_fixedFiles o classes]
    exact List.mem_map_of_mem h

theorem groupOfStem_groupStem (group : String) : groupOfStem (groupStem group) = group := by
  have hchars : (groupStem group).toList = 'I' :: (group.toList ++ "PipelineModel".toList) := by
    simp [groupStem, String.toList_append]
  have hlength : ("PipelineModel".toList.reverse).length = 13 := by decide
  rw [groupOfStem, hchars, List.drop_succ_cons, List.drop_zero, List.reverse_append,
    ← hlength, List.drop_left, List.reverse_reverse, String.ofList_toList]

theorem groupStem_injective : Function.Injective groupStem :=
  Function.LeftInverse.injective groupOfStem_groupStem

/-- Of the stems that depend on no group, two are formed like those of groups. -/
theorem group_of_mem_fixedStems {group : String}
    (h : groupStem group ∈ "ContentPipelineModel" :: fixedStems) :
    group = "Content" ∨ group = "Link" := by
  have hforms : ∀ stem ∈ "ContentPipelineModel" :: fixedStems,
      groupStem (groupOfStem stem) = stem →
        groupOfStem stem = "Content" ∨ groupOfStem stem = "Link" := by decide
  have hgroup := hforms (groupStem group) h
  rw [groupOfStem_groupStem] at hgroup
  exact hgroup rfl

/-- The stems of the base models come each once, and with them those of some files that depend on
no group, unless the interface of a group is one of these. -/
theorem nodup_stems (o : Options) (classes : List ContentClass) {front : List String}
    (hfront : front.Sublist fixedStems)
    (hfree : ∀ group ∈ groupNames classes, groupStem group ∉ front) :
    ((baseModels o classes).map (·.stem) ++ front).Nodup := by
  have hfixed : ("ContentPipelineModel" :: fixedStems).Nodup := by decide
  have hgroups : ((groupNames classes).map groupStem).Nodup :=
    (nodup_groupNames classes).map groupStem_injective
  have hbase : "ContentPipelineModel" ∉ (groupNames classes).map groupStem := by
    intro hmem
    obtain ⟨group, -, hstem⟩ := List.mem_map.1 hmem
    have hchars := congrArg (fun s => s.toList.head?) hstem
    simp [groupStem, String.toList_append] at hchars
  rw [stems_baseModels, List.nodup_append]
  refine ⟨List.nodup_cons.2 ⟨hbase, hgroups⟩, (List.nodup_cons.1 hfixed).2.sublist hfront, ?_⟩
  rintro stem hstem other hother rfl
  rcases List.mem_cons.1 hstem with rfl | hstem
  · exact (List.nodup_cons.1 hfixed).1 (hfront.subset hother)
  · obtain ⟨group, hgroup, rfl⟩ := List.mem_map.1 hstem
    exact hfree group hgroup hother

/-! ### Contested names -/

/-- The first contract that has the name of the interface of a group. -/
def contested? (classes : List ContentClass) : Option String :=
  if classes.any (·.group == "Content") then some "IContentPipelineModel"
  else if classes.any (·.group == "Link") then some "ILinkPipelineModel"
  else none

theorem mem_groupNames_of_plain (classes : List ContentClass) {word : String}
    (hself : sanitize word = word) (hplain : '_' ∉ word.toList) :
    word ∈ groupNames classes ↔ classes.any (·.group == word) = true := by
  have hgroup (c : ContentClass) : groupName c = word ↔ c.group = word :=
    sanitize_eq_iff hself hplain
  rw [mem_groupNames, List.any_eq_true]
  simp only [hgroup, beq_iff_eq]

theorem content_mem_groupNames (classes : List ContentClass) :
    "Content" ∈ groupNames classes ↔ classes.any (·.group == "Content") = true :=
  mem_groupNames_of_plain classes (by decide) (by decide)

theorem link_mem_groupNames (classes : List ContentClass) :
    "Link" ∈ groupNames classes ↔ classes.any (·.group == "Link") = true :=
  mem_groupNames_of_plain classes (by decide) (by decide)

/-- All files of some classes, each under its name. -/
def allFiles (o : Options) (classes : List ContentClass) : List Artifact :=
  named o.fileExtension (sharedFiles o classes) ++
    nameClasses o (holding o.fileExtension ((sharedFiles o classes).map (·.stem))) classes

theorem groupStem_mem_baseModels {o : Options} {classes : List ContentClass} {group : String}
    (h : group ∈ groupNames classes) :
    groupStem group ∈ (baseModels o classes).map (·.stem) := by
  rw [stems_baseModels]
  exact List.mem_cons_of_mem _ (List.mem_map_of_mem h)

theorem fixedFiles_front (o : Options) (classes : List ContentClass) :
    ∃ model link rest, fixedFiles o classes = model :: link :: rest ∧
      model.stem = "IContentPipelineModel" ∧ link.stem = "ILinkPipelineModel" :=
  ⟨_, _, _, rfl, rfl, rfl⟩

theorem nameShared_of_content (o : Options) {classes : List ContentClass}
    (hcontent : "Content" ∈ groupNames classes) :
    nameShared (holding o.fileExtension []) (sharedFiles o classes) =
      .error (.duplicateArtifact (fileName o.fileExtension "IContentPipelineModel")) := by
  obtain ⟨model, link, rest, hfixed, hmodel, -⟩ := fixedFiles_front o classes
  have hnodup := nodup_stems o classes (List.nil_sublist _) fun _ _ => List.not_mem_nil
  rw [List.append_nil] at hnodup
  have htaken : model.stem ∈ [] ++ (baseModels o classes).map (·.stem) := by
    rw [hmodel]
    exact groupStem_mem_baseModels hcontent
  rw [sharedFiles_eq, hfixed, nameShared_append _ _ _ _ hnodup,
    nameShared_cons_of_taken _ _ _ _ htaken, hmodel]
  rfl

theorem nameShared_of_link (o : Options) {classes : List ContentClass}
    (hcontent : "Content" ∉ groupNames classes) (hlink : "Link" ∈ groupNames classes) :
    nameShared (holding o.fileExtension []) (sharedFiles o classes) =
      .error (.duplicateArtifact (fileName o.fileExtension "ILinkPipelineModel")) := by
  obtain ⟨model, link, rest, hfixed, hmodel, hstem⟩ := fixedFiles_front o classes
  have hfree : ∀ group ∈ groupNames classes, groupStem group ∉ ["IContentPipelineModel"] := by
    intro group hgroup hmem
    have hstem : groupStem group = groupStem "Content" := List.mem_singleton.1 hmem
    rw [groupStem_injective hstem] at hgroup
    exact hcontent hgroup
  have hnodup := nodup_stems o classes (by decide) hfree
  rw [← hmodel] at hnodup
  have hfront : (baseModels o classes ++ [model]).map (·.stem) =
      (baseModels o classes).map (·.stem) ++ [model.stem] := List.map_append
  rw [← hfront] at hnodup
  have htaken : link.stem ∈ [] ++ (baseModels o classes ++ [model]).map (·.stem) := by
    rw [hstem, hfront]
    exact List.mem_append_right _ (List.mem_append_left _ (groupStem_mem_baseModels hlink))
  have hsplit : sharedFiles o classes = (baseModels o classes ++ [model]) ++ link :: rest := by
    rw [sharedFiles_eq, hfixed, List.append_assoc]
    rfl
  rw [hsplit, nameShared_append _ _ _ _ hnodup, nameShared_cons_of_taken _ _ _ _ htaken, hstem]
  rfl

theorem nameShared_of_uncontested (o : Options) {classes : List ContentClass}
    (hcontent : "Content" ∉ groupNames classes) (hlink : "Link" ∉ groupNames classes) :
    nameShared (holding o.fileExtension []) (sharedFiles o classes) =
      .ok (named o.fileExtension (sharedFiles o classes),
        holding o.fileExtension ((sharedFiles o classes).map (·.stem))) := by
  have hfree : ∀ group ∈ groupNames classes, groupStem group ∉ fixedStems := by
    intro group hgroup hmem
    rcases group_of_mem_fixedStems (List.mem_cons_of_mem _ hmem) with rfl | rfl
    · exact hcontent hgroup
    · exact hlink hgroup
  have hnodup := nodup_stems o classes (List.Sublist.refl _) hfree
  rw [← stems_fixedFiles o classes, ← List.map_append, ← sharedFiles_eq] at hnodup
  have hall := nameShared_append o.fileExtension [] (sharedFiles o classes) [] hnodup
  rw [List.append_nil, List.nil_append] at hall
  rw [hall, nameShared]
  simp [Except.map]

theorem artifacts_eq (o : Options) (classes : List ContentClass) :
    artifacts o false classes =
      match contested? classes with
      | some contract => .error (.duplicateArtifact (fileName o.fileExtension contract))
      | none => .ok (allFiles o classes) := by
  have hrun : artifacts o false classes =
      (nameShared (holding o.fileExtension []) (sharedFiles o classes)).map
        fun (shared, names) => shared ++ nameClasses o names classes := by
    unfold artifacts
    change Except.bind (nameShared (holding o.fileExtension []) (sharedFiles o classes)) _ = _
    cases nameShared (holding o.fileExtension []) (sharedFiles o classes) <;> rfl
  unfold contested?
  rw [hrun]
  by_cases hcontent : classes.any (·.group == "Content") = true
  · rw [nameShared_of_content o ((content_mem_groupNames classes).2 hcontent), if_pos hcontent]
    rfl
  · have hnot : "Content" ∉ groupNames classes :=
      fun h => hcontent ((content_mem_groupNames classes).1 h)
    rw [if_neg hcontent]
    by_cases hlink : classes.any (·.group == "Link") = true
    · rw [nameShared_of_link o hnot ((link_mem_groupNames classes).2 hlink), if_pos hlink]
      rfl
    · have hnone : "Link" ∉ groupNames classes :=
        fun h => hlink ((link_mem_groupNames classes).1 h)
      rw [nameShared_of_uncontested o hnot hnone, if_neg hlink]
      rfl

theorem eq_allFiles {o : Options} {cancelled : Bool} {classes : List ContentClass}
    {files : List Artifact} (h : artifacts o cancelled classes = .ok files) :
    files = allFiles o classes := by
  cases cancelled with
  | true => cases h
  | false =>
    rw [artifacts_eq] at h
    cases hcontested : contested? classes with
    | some contract =>
      rw [hcontested] at h
      cases h
    | none =>
      rw [hcontested] at h
      exact (Except.ok.inj h).symm

end ContentLoom.Generated

namespace ContentLoom.Generation

open Generated Resolution

/-- On valid options a run fails exactly where a group has taken the name of a contract. -/
theorem run_eq_of_contested (g : Graph) (o : Options) (hvalid : o.validate = .ok ()) :
    ∃ classes reports, resolveClasses g o false = .ok (classes, reports) ∧
      run g o false =
        match contested? classes with
        | some contract =>
          .error (.duplicateArtifact (Naming.FileNames.fileName o.fileExtension contract))
        | none => .ok ⟨classes, allFiles o classes, reports⟩ := by
  refine ⟨runClasses g o, graphReports g, resolveClasses_of_valid g o hvalid, ?_⟩
  rw [run_of_valid g o hvalid, artifacts_eq]
  cases contested? (runClasses g o) <;> rfl

/-- A class in a group of its own choice. -/
def grouped (name group : String) : Declaration where
  name := name
  ns := "Site"
  kind := .classType
  isAbstract := false
  base := none
  interfaces := []
  attributes := [⟨"ContentType", [], [], [], []⟩,
    ⟨"ContentPipelineModel", [], [.str group], [], []⟩]
  properties := []

theorem run_of_content_group :
    Options.standard.validate = .ok () ∧
      run ⟨[grouped "Teaser" "content"]⟩ .standard false =
        .error (.duplicateArtifact "IContentPipelineModel.g.cs") := by
  have hvalid : Options.standard.validate = .ok () := by rfl
  obtain ⟨classes, reports, hresolved, hrun⟩ :=
    run_eq_of_contested ⟨[grouped "Teaser" "content"]⟩ .standard hvalid
  rw [resolveClasses_of_valid _ _ hvalid] at hresolved
  have hclasses : runClasses ⟨[grouped "Teaser" "content"]⟩ .standard = classes :=
    congrArg Prod.fst (Except.ok.inj hresolved)
  have hsingle (c : ContentClass) : sortClasses [c] = [c] := List.mergeSort_singleton c
  have hcontested : contested? classes = some "IContentPipelineModel" := by
    rw [← hclasses]
    change contested? (sortClasses [_]) = _
    rw [hsingle]
    rfl
  refine ⟨hvalid, ?_⟩
  rw [hrun, hcontested]
  rfl

end ContentLoom.Generation

import ContentLoom.Proofs.ArtifactNames

/-!
# The list of generated files

Where files are generated at all, they come in a fixed order: the base model, one
interface for each group, the files that depend on no group, and for each class
its model and its step.  All have names of their own, whatever the groups, names
and identifiers of the classes, and the interface of a group stands in the
namespace of its models.
-/

namespace ContentLoom.Generated

open Naming FileNames

/-! ### What each file is -/

/-- The text is a file in a namespace that has a type with a header. -/
def Declares (ns header source : String) : Prop :=
  ∃ used comment body,
    source = Code.render (Code.file used ns (Code.summary comment ++ Code.block header body))

/-- The interface of a group, in the namespace of the models of the group. -/
structure GroupFile (o : Options) (group : String) (a : Artifact) : Prop where
  name : a.fileName = fileName o.fileExtension ("I" ++ group ++ "PipelineModel")
  kind : a.kind = .groupInterface
  source : Declares (o.modelsNamespace group)
    ("public partial interface I" ++ group ++ "PipelineModel : IContentPipelineModel") a.source

/-- A file of a class, with one of the names that the class can be given. -/
structure ClassFile (o : Options) (c : ContentClass) (kind : ArtifactKind) (a : Artifact) :
    Prop where
  name : ∃ n, a.fileName = fileName o.fileExtension
    (candidate (classStem c kind c.stableId.short) (classStem c kind c.stableId.hex) n)
  kind : a.kind = kind

/-- The model of a class, which has the interface of its group, and the step of the class. -/
structure ClassFiles (o : Options) (c : ContentClass) (files : Artifact × Artifact) : Prop where
  model : ClassFile o c .model files.1
  modelSource : files.1.source = Code.render (modelClass o c)
  modelPlace : Declares (o.modelsNamespace (sanitize c.group))
    ("public partial class " ++ c.modelName ++ " : " ++
      rooted (under o "Models.ContentPipelineModel") ++ ", I" ++ sanitize c.group ++
      "PipelineModel") files.1.source
  step : ClassFile o c .step files.2
  stepSource : files.2.source = Code.render (stepClass o c)

/-- Some stems with their kind. -/
def ofKind (kind : ArtifactKind) (stems : List String) : List (String × ArtifactKind) :=
  stems.map fun stem => (stem, kind)

/-- The stems and the kinds of the files that depend on no group. -/
def fixedEntries : List (String × ArtifactKind) :=
  ofKind .interface (["IContentPipelineModel", "ILinkPipelineModel", "IContentPropertyConverter"] ++
    KnownConverter.all.map (·.contract) ++
    ["IEnumConverter", "IXhtmlRenderService", "IContentPipelineContext", "IContentPipelineStep",
      "IContentPipeline", "IContentPipelineService"]) ++
  ofKind .property
    ["Link", "Media", "ContentAreaItemPipelineModel", "ContentAreaPipelineModel"] ++
  ofKind .markerAttribute
    ["ContentPipelineIgnoreAttribute", "ContentPipelineModelAttribute",
      "ContentPipelinePropertyConverterAttribute", "IContentPipelinePropertyConverterAttribute"] ++
  ofKind .converter ("EnumConverter" :: KnownConverter.all.map (·.implementation)) ++
  ofKind .pipeline ["ContentPipelineStep", "AsyncContentPipelineStep", "DefaultContentPipeline"] ++
  ofKind .service
    ["PipelineArgs", "ContentPipelineContext", "BaseContentPipelineService",
      "ContentPipelineService", "XhtmlRenderService"] ++
  ofKind .jsonConverter ["ContentPipelineModelJsonConverter", "LinkPipelineModelJsonConverter"] ++
  ofKind .registration
    ["PipelineStepsServiceCollectionExtensions", "ContentPipelineServiceCollectionExtensions"]

/-- The files of a run over some classes, each of them once and in order. -/
structure LaidOut (o : Options) (classes : List ContentClass) (base : Artifact)
    (groups fixed : List Artifact) (own : List (Artifact × Artifact)) : Prop where
  baseFile : base = ⟨fileName o.fileExtension "ContentPipelineModel", .baseModel,
    Code.render (baseModel o)⟩
  groupFiles : ∃ names : List String, names.Pairwise (· < ·) ∧
    (∀ name, name ∈ names ↔ ∃ c ∈ classes, sanitize c.group = name) ∧
    List.Forall₂ (GroupFile o) names groups
  fixedNames : fixed.map (fun a => (a.fileName, a.kind)) =
    fixedEntries.map fun e => (fileName o.fileExtension e.1, e.2)
  fixedSources : fixed.map (·.source) = (fixedFiles o classes).map fun f => Code.render f.code
  classFiles : List.Forall₂ (ClassFiles o) classes own

/-! ### The files of the classes -/

theorem declares_groupInterface (o : Options) (group : String) :
    Declares (o.modelsNamespace group)
      ("public partial interface I" ++ group ++ "PipelineModel : IContentPipelineModel")
      (Code.render (groupInterface o group)) := by
  rw [groupInterface]
  exact ⟨_, _, _, rfl⟩

theorem declares_modelClass (o : Options) (c : ContentClass) :
    Declares (o.modelsNamespace (sanitize c.group))
      ("public partial class " ++ c.modelName ++ " : " ++
        rooted (under o "Models.ContentPipelineModel") ++ ", I" ++ sanitize c.group ++
        "PipelineModel")
      (Code.render (modelClass o c)) := by
  rw [modelClass]
  exact ⟨_, _, _, rfl⟩

theorem extension_perClass (names : FileNames) (c : ContentClass) (kind : ArtifactKind) :
    (names.perClass c kind).2.extension = names.extension := by
  simp only [perClass]

theorem extension_holding (extension : String) (stems : List String) :
    (holding extension stems).extension = extension := rfl

theorem classFile_perClass {o : Options} {names : FileNames}
    (hextension : names.extension = o.fileExtension) (c : ContentClass) (kind : ArtifactKind)
    (source : String) : ClassFile o c kind ⟨(names.perClass c kind).1, kind, source⟩ where
  name := by
    rw [← hextension]
    exact claim_eq names.taken (classStem c kind c.stableId.short) (classStem c kind c.stableId.hex)
      (fileName names.extension)
  kind := rfl

/-- The names of the model and the step of each class. -/
def classNames (names : FileNames) : List ContentClass → List (String × String)
  | [] => []
  | c :: rest =>
    let model := names.perClass c .model
    let step := model.2.perClass c .step
    (model.1, step.1) :: classNames step.2 rest

/-- The model and the step of a class under their names. -/
def classPair (o : Options) (c : ContentClass) (n : String × String) : Artifact × Artifact :=
  (⟨n.1, .model, Code.render (modelClass o c)⟩, ⟨n.2, .step, Code.render (stepClass o c)⟩)

theorem nameClasses_eq (o : Options) (names : FileNames) (classes : List ContentClass) :
    nameClasses o names classes =
      (classes.zipWith (classPair o) (classNames names classes)).flatMap fun p => [p.1, p.2] := by
  induction classes generalizing names with
  | nil => rfl
  | cons c rest ih =>
    rw [nameClasses, classNames, List.zipWith_cons_cons, List.flatMap_cons, ← ih]
    rfl

theorem classFiles_zipWith {o : Options} {names : FileNames}
    (hextension : names.extension = o.fileExtension) (classes : List ContentClass) :
    List.Forall₂ (ClassFiles o) classes
      (classes.zipWith (classPair o) (classNames names classes)) := by
  induction classes generalizing names with
  | nil => exact .nil
  | cons c rest ih =>
    have hstep : (names.perClass c .model).2.extension = o.fileExtension := by
      rw [extension_perClass, hextension]
    have hrest : ((names.perClass c .model).2.perClass c .step).2.extension =
        o.fileExtension := by
      rw [extension_perClass, hstep]
    have hclass : ClassFiles o c (classPair o c ((names.perClass c .model).1,
        ((names.perClass c .model).2.perClass c .step).1)) :=
      ⟨classFile_perClass hextension c .model _, rfl, declares_modelClass o c,
        classFile_perClass hstep c .step _, rfl⟩
    exact .cons hclass (ih hrest)

theorem nameClasses_pairs {o : Options} {names : FileNames}
    (hextension : names.extension = o.fileExtension) (classes : List ContentClass) :
    ∃ own, nameClasses o names classes = own.flatMap (fun p => [p.1, p.2]) ∧
      List.Forall₂ (ClassFiles o) classes own :=
  ⟨_, nameClasses_eq o names classes, classFiles_zipWith hextension classes⟩

/-! ### All files -/

theorem entries_fixedFiles (o : Options) (classes : List ContentClass) :
    (fixedFiles o classes).map (fun f => (f.stem, f.kind)) = fixedEntries := by
  simp only [fixedFiles, contracts, valueTypes, markerClasses, defaultConverters, pipelineBases,
    serviceClasses, serializers, registrations, fixedEntries, ofKind, List.map_append,
    List.map_cons, List.map_nil, List.map_map, Function.comp_def, List.append_assoc, List.cons_append,
    List.nil_append]

theorem groupFiles_named (o : Options) (groups : List String) :
    List.Forall₂ (GroupFile o) groups (named o.fileExtension (groups.map fun group =>
      ⟨"I" ++ group ++ "PipelineModel", .groupInterface, groupInterface o group⟩)) := by
  induction groups with
  | nil => exact .nil
  | cons group groups ih => exact .cons ⟨rfl, rfl, declares_groupInterface o group⟩ ih

theorem increasing_groupNames (classes : List ContentClass) :
    (groupNames classes).Pairwise (· < ·) := Entries.sorted_increasing _

/-- The files of a run have different names, and they are the base model, the interfaces of the
groups in increasing order, the files that depend on no group, and the model and the step of each
class in the order of the classes. -/
theorem artifacts_laidOut {o : Options} {cancelled : Bool} {classes : List ContentClass}
    {files : List Artifact} (h : artifacts o cancelled classes = .ok files) :
    (files.map (·.fileName)).Nodup ∧
      ∃ base groups fixed own,
        files = base :: (groups ++ (fixed ++ own.flatMap fun p => [p.1, p.2])) ∧
          LaidOut o classes base groups fixed own := by
  have hnodup := (wellNamed_artifacts h).nodup
  cases cancelled with
  | true => cases h
  | false =>
    rw [artifacts_eq] at h
    cases hcontested : contested? classes with
    | some contract =>
      rw [hcontested] at h
      cases h
    | none =>
      rw [hcontested] at h
      cases h
      have hextension := extension_holding o.fileExtension ((sharedFiles o classes).map (·.stem))
      obtain ⟨own, hnamed, hown⟩ := nameClasses_pairs hextension classes
      refine ⟨hnodup, _, _, named o.fileExtension (fixedFiles o classes), own, ?_, rfl,
        ⟨_, increasing_groupNames classes, mem_groupNames classes, groupFiles_named o _⟩, ?_, ?_,
        hown⟩
      · rw [allFiles, hnamed, sharedFiles_eq, named, List.map_append, List.append_assoc]
        rfl
      · rw [← entries_fixedFiles o classes]
        simp [named]
      · simp [named]

/-- A class with nothing of its own. -/
def plainClass : ContentClass := ⟨"Teaser", ⟨1⟩, "site", 0, "Site.Teaser", []⟩

theorem artifacts_laidOut_repeated :
    ∃ files, artifacts .standard false [plainClass, plainClass] = .ok files ∧
      (files.map (·.fileName)).Nodup ∧
      ∃ base groups fixed own,
        files = base :: (groups ++ (fixed ++ own.flatMap fun p => [p.1, p.2])) ∧
          LaidOut .standard [plainClass, plainClass] base groups fixed own := by
  have hfiles : artifacts .standard false [plainClass, plainClass] =
      .ok (allFiles .standard [plainClass, plainClass]) := by
    have hfree : contested? [plainClass, plainClass] = none := by decide
    rw [artifacts_eq, hfree]
  exact ⟨_, hfiles, artifacts_laidOut hfiles⟩

end ContentLoom.Generated

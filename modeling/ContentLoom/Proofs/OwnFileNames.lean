import ContentLoom.Proofs.GeneratedFiles

/-!
# Names of the files of a class

The name that is tried first for a file of a class ends with the first eight
digits of the identifier of the class.  No shared file has such a name, so where
no two classes have these digits in common every class is given the name tried
first, and this name depends on no other class.
-/

namespace ContentLoom

namespace Naming

/-! ### The last eight characters -/

/-- A hexadecimal digit as identifiers are written with. -/
def isSmallDigit (c : Char) : Bool := c.isDigit || ('a' ≤ c && c ≤ 'f')

/-- The last eight characters are hexadecimal digits. -/
def endsInDigits (s : String) : Bool := (s.toList.reverse.take 8).all isSmallDigit

theorem length_short (id : Identifier) : id.short.toList.length = 8 := by
  rw [Identifier.short, String.toList_ofList, List.length_take, Identifier.length_digits]
  rfl

theorem isSmallDigit_of_mem_short {id : Identifier} {c : Char} (h : c ∈ id.short.toList) :
    isSmallDigit c = true := by
  have hdigits : ∀ n < 16, isSmallDigit (Nat.digitChar n) = true := by decide
  rw [Identifier.short, String.toList_ofList] at h
  obtain ⟨place, -, rfl⟩ := List.mem_map.1 (List.mem_of_mem_take h)
  exact hdigits _ (Nat.mod_lt _ (by decide))

theorem endsInDigits_short (front : String) (id : Identifier) :
    endsInDigits (front ++ id.short) = true := by
  have hlast : (front ++ id.short).toList.reverse.take 8 = id.short.toList.reverse := by
    rw [String.toList_append, List.reverse_append, List.take_left']
    rw [List.length_reverse, length_short]
  rw [endsInDigits, hlast, List.all_reverse]
  exact List.all_eq_true.2 fun c hc => isSmallDigit_of_mem_short hc

theorem not_endsInDigits_pipelineModel (front : String) :
    endsInDigits (front ++ "PipelineModel") = false := by
  have hlast : (front ++ "PipelineModel").toList.reverse.take 8 =
      "PipelineModel".toList.reverse.take 8 := by
    rw [String.toList_append, List.reverse_append, List.take_append_of_le_length (by decide)]
  rw [endsInDigits, hlast]
  decide

theorem short_eq_of_append {front other : String} {id id' : Identifier}
    (h : front ++ id.short = other ++ id'.short) : id.short = id'.short := by
  have hchars := congrArg String.toList h
  rw [String.toList_append, String.toList_append] at hchars
  have hlength : id.short.toList.length = id'.short.toList.length := by
    rw [length_short, length_short]
  exact String.toList_inj.1 (List.append_inj' hchars hlength).2

namespace FileNames

/-! ### The name tried first -/

/-- The name of a file of a class that is tried first. -/
def firstName (extension : String) (c : ContentClass) (kind : ArtifactKind) : String :=
  fileName extension (classStem c kind c.stableId.short)

theorem short_eq_of_firstName {extension : String} {c d : ContentClass} {kind other : ArtifactKind}
    (h : firstName extension c kind = firstName extension d other) :
    c.stableId.short = d.stableId.short :=
  short_eq_of_append (Generated.fileName_injective extension h)

theorem firstName_step_ne_model (extension : String) (c : ContentClass) :
    firstName extension c .step ≠ firstName extension c .model := by
  intro h
  have hstem := Generated.fileName_injective extension h
  simp only [classStem, String.append_left_inj, String.append_right_inj] at hstem
  exact absurd hstem (by decide)

theorem perClass_of_not_mem {names : FileNames} {c : ContentClass} {kind : ArtifactKind}
    (h : firstName names.extension c kind ∉ names.taken) :
    names.perClass c kind = (firstName names.extension c kind,
      { names with taken := firstName names.extension c kind :: names.taken }) := by
  have hclaim := claim_of_not_mem h (classStem c kind c.stableId.hex)
  simp only [perClass, hclaim, firstName]

end FileNames

end Naming

namespace Generated

open Naming FileNames

theorem not_endsInDigits_stem {o : Options} {classes : List ContentClass} {f : SharedFile}
    (h : f ∈ sharedFiles o classes) : endsInDigits f.stem = false := by
  rcases stem_of_mem_sharedFiles h with hfixed | ⟨c, -, hstem⟩
  · have hletters : ∀ stem ∈ "ContentPipelineModel" :: fixedStems, endsInDigits stem = false := by
      decide +kernel
    exact hletters f.stem hfixed
  · rw [hstem]
    exact not_endsInDigits_pipelineModel _

theorem firstName_not_mem_shared (o : Options) (classes : List ContentClass) (c : ContentClass)
    (kind : ArtifactKind) :
    firstName o.fileExtension c kind ∉
      (holding o.fileExtension ((sharedFiles o classes).map (·.stem))).taken := by
  intro hmem
  have hstem := (contains_holding _ _ _).1 (List.contains_iff_mem.2 hmem)
  obtain ⟨f, hf, hsame⟩ := List.mem_map.1 hstem
  have hdigits : endsInDigits (classStem c kind c.stableId.short) = true := endsInDigits_short _ _
  rw [← hsame, not_endsInDigits_stem hf] at hdigits
  cases hdigits

/-! ### Files of classes with different digits -/

/-- Every class is given the names tried first: one that was given before has other digits at its
end. -/
theorem classNames_eq {names : FileNames} {classes : List ContentClass}
    (hapart : (classes.map (·.stableId.short)).Nodup)
    (hfree : ∀ c ∈ classes, ∀ kind, firstName names.extension c kind ∉ names.taken) :
    classNames names classes = classes.map fun c =>
      (firstName names.extension c .model, firstName names.extension c .step) := by
  induction classes generalizing names with
  | nil => rfl
  | cons c rest ih =>
    have hown := hfree c (List.mem_cons_self ..)
    obtain ⟨hothers, hrest⟩ := List.nodup_cons.1 hapart
    have hstep : firstName names.extension c .step ∉
        firstName names.extension c .model :: names.taken := by
      rw [List.mem_cons, not_or]
      exact ⟨firstName_step_ne_model _ c, hown .step⟩
    rw [classNames, perClass_of_not_mem (hown .model), List.map_cons]
    simp only
    rw [perClass_of_not_mem hstep, ih hrest]
    intro d hd kind hmem
    have hapart : c.stableId.short ≠ d.stableId.short := fun h =>
      hothers (List.mem_map.2 ⟨d, hd, h.symm⟩)
    simp only [List.mem_cons] at hmem
    rcases hmem with hsame | hsame | htaken
    · exact hapart (short_eq_of_firstName hsame).symm
    · exact hapart (short_eq_of_firstName hsame).symm
    · exact hfree d (List.mem_cons_of_mem _ hd) kind htaken

/-- The name of a file of a class by itself. -/
def soleName (o : Options) (c : ContentClass) (segment : String) : String :=
  sanitize c.group ++ "_" ++ sanitize c.name ++ "_" ++ segment ++ "_" ++ c.stableId.short ++
    ".g." ++ o.fileExtension

/-- The model of a class by itself. -/
def modelFile (o : Options) (c : ContentClass) : Artifact :=
  ⟨soleName o c "PipelineModel", .model, Code.render (modelClass o c)⟩

/-- The step of a class by itself. -/
def stepFile (o : Options) (c : ContentClass) : Artifact :=
  ⟨soleName o c "PipelineStep", .step, Code.render (stepClass o c)⟩

theorem nameClasses_eq_flatMap (o : Options) {classes : List ContentClass}
    (hapart : (classes.map (·.stableId.short)).Nodup) :
    nameClasses o (holding o.fileExtension ((sharedFiles o classes).map (·.stem))) classes =
      classes.flatMap fun c => [modelFile o c, stepFile o c] := by
  have hfree : ∀ c ∈ classes, ∀ kind,
      firstName (holding o.fileExtension ((sharedFiles o classes).map (·.stem))).extension c kind ∉
        (holding o.fileExtension ((sharedFiles o classes).map (·.stem))).taken := by
    intro c _ kind
    rw [extension_holding]
    exact firstName_not_mem_shared o classes c kind
  rw [nameClasses_eq, classNames_eq hapart hfree, extension_holding, List.zipWith_map_right,
    List.zipWith_self, List.flatMap_map]
  rfl

theorem kind_of_mem_sharedFiles {o : Options} {classes : List ContentClass} {f : SharedFile}
    (h : f ∈ sharedFiles o classes) : f.kind ≠ .model ∧ f.kind ≠ .step := by
  rw [sharedFiles_eq, List.mem_append] at h
  rcases h with h | h
  · rcases List.mem_cons.1 h with rfl | h
    · exact ⟨nofun, nofun⟩
    · obtain ⟨group, -, rfl⟩ := List.mem_map.1 h
      exact ⟨nofun, nofun⟩
  · have hkinds : ∀ e ∈ fixedEntries, e.2 ≠ .model ∧ e.2 ≠ .step := by decide
    apply hkinds (f.stem, f.kind)
    rw [← entries_fixedFiles o classes]
    exact List.mem_map_of_mem h

theorem filter_named {o : Options} {classes : List ContentClass} {kind : ArtifactKind}
    (hkind : kind = .model ∨ kind = .step) :
    (named o.fileExtension (sharedFiles o classes)).filter (·.kind == kind) = [] := by
  rw [List.filter_eq_nil_iff]
  intro a ha
  obtain ⟨f, hf, rfl⟩ := List.mem_map.1 ha
  have hown := kind_of_mem_sharedFiles hf
  rcases hkind with rfl | rfl
  · simpa using hown.1
  · simpa using hown.2

/-- The files of a run by their kind, where no two classes have their first digits in common. -/
theorem filter_kind_artifacts {o : Options} {cancelled : Bool} {classes : List ContentClass}
    {files : List Artifact} (hfiles : artifacts o cancelled classes = .ok files)
    (hapart : (classes.map (·.stableId.short)).Nodup) :
    files.filter (·.kind == .model) = classes.map (modelFile o) ∧
      files.filter (·.kind == .step) = classes.map (stepFile o) := by
  rw [eq_allFiles hfiles, allFiles, nameClasses_eq_flatMap o hapart, List.filter_append,
    List.filter_append, filter_named (Or.inl rfl), filter_named (Or.inr rfl), List.nil_append,
    List.nil_append, List.filter_flatMap, List.filter_flatMap, List.map_eq_flatMap,
    List.map_eq_flatMap]
  exact ⟨rfl, rfl⟩

/-- Where no two classes of a run have the first eight digits of their identifiers in common, the
model and the step of each class are named by its group, its name and these digits alone.  So a
class keeps the names of its files in every other such run, whatever classes it is among. -/
theorem classFiles_keep_names {o : Options} {cancelled : Bool} {classes : List ContentClass}
    {files : List Artifact} (hfiles : artifacts o cancelled classes = .ok files)
    (hapart : (classes.map (·.stableId.short)).Nodup) :
    files.filter (·.kind == .model) = classes.map (modelFile o) ∧
      files.filter (·.kind == .step) = classes.map (stepFile o) ∧
      ∀ (stopped : Bool) (others : List ContentClass) (found : List Artifact),
        artifacts o stopped others = .ok found → (others.map (·.stableId.short)).Nodup →
        ∀ (c : ContentClass) (i j : Nat), classes[i]? = some c → others[j]? = some c →
        ∀ kind ∈ [ArtifactKind.model, .step],
          ((files.filter (·.kind == kind)).map (·.fileName))[i]? =
            ((found.filter (·.kind == kind)).map (·.fileName))[j]? := by
  obtain ⟨hmodels, hsteps⟩ := filter_kind_artifacts hfiles hapart
  refine ⟨hmodels, hsteps, ?_⟩
  intro stopped others found hfound hothers c i j hi hj kind hkind
  obtain ⟨hmodels', hsteps'⟩ := filter_kind_artifacts hfound hothers
  simp only [List.mem_cons, List.not_mem_nil, or_false] at hkind
  rcases hkind with rfl | rfl
  · simp only [hmodels, hmodels', List.getElem?_map, hi, hj]
  · simp only [hsteps, hsteps', List.getElem?_map, hi, hj]

/-- Two classes whose groups and names give the same words. -/
def underscored : List ContentClass :=
  [⟨"c", ⟨0x00000001000000000000000000000000⟩, "a_b", 0, "Site.c", []⟩,
    ⟨"b_c", ⟨0x00000002000000000000000000000000⟩, "a", 0, "Site.b_c", []⟩]

theorem classFiles_keep_names_underscored :
    ∃ files, artifacts .standard false underscored = .ok files ∧
      (underscored.map (·.stableId.short)).Nodup ∧
      (files.filter (·.kind == .model)).map (·.fileName) =
        ["a_b_c_PipelineModel_00000001.g.cs", "a_b_c_PipelineModel_00000002.g.cs"] ∧
      (files.filter (·.kind == .step)).map (·.fileName) =
        ["a_b_c_PipelineStep_00000001.g.cs", "a_b_c_PipelineStep_00000002.g.cs"] := by
  have hfiles : artifacts .standard false underscored = .ok (allFiles .standard underscored) := by
    have hfree : contested? underscored = none := by decide
    rw [artifacts_eq, hfree]
  have hapart : (underscored.map (·.stableId.short)).Nodup := by decide +kernel
  obtain ⟨hmodels, hsteps, -⟩ := classFiles_keep_names hfiles hapart
  refine ⟨_, hfiles, hapart, ?_, ?_⟩
  · rw [hmodels, List.map_map]
    decide +kernel
  · rw [hsteps, List.map_map]
    decide +kernel

end Generated

end ContentLoom

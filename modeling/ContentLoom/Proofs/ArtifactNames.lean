import ContentLoom.Files.Path
import ContentLoom.LockFile
import ContentLoom.Proofs.FreeNames
import ContentLoom.Proofs.NumeralText
import ContentLoom.Proofs.SharedFileNames

/-!
# Names of generated files

A claimed name is none of those taken before, so no two files of a run have one
name.  A name is a word, a mark and the extension: it leads to no other
directory, and it is not that of the lock file.
-/

namespace ContentLoom

namespace Naming

/-! ### Words -/

/-- The text has no other characters than an identifier. -/
def WordText (s : String) : Prop := ∀ c ∈ s.toList, isWordChar c = true

instance (s : String) : Decidable (WordText s) :=
  decidable_of_iff (s.toList.all isWordChar = true) List.all_eq_true

theorem WordText.append {s t : String} (hs : WordText s) (ht : WordText t) :
    WordText (s ++ t) := by
  intro c hc
  rw [String.toList_append, List.mem_append] at hc
  exact hc.elim (hs c) (ht c)

theorem wordText_sanitize (s : String) : WordText (sanitize s) := by
  intro c hc
  rw [sanitize, String.toList_ofList] at hc
  exact isWordChar_of_mem_sanitizeChars hc

theorem isWordChar_of_isDigit {c : Char} (h : c.isDigit = true) : isWordChar c = true := by
  have hdigits : ∀ n < 10, isWordChar (Char.ofNat (48 + n)) = true := by decide
  have hrange : 48 ≤ c.toNat ∧ c.toNat ≤ 57 := by
    simp only [Char.isDigit, Bool.and_eq_true, decide_eq_true_eq, ge_iff_le,
      UInt32.le_iff_toNat_le] at h
    exact h
  have hchar : Char.ofNat (48 + (c.toNat - 48)) = c := by
    rw [Nat.add_sub_cancel' hrange.1, Char.ofNat_toNat]
  rw [← hchar]
  exact hdigits _ (by omega)

theorem wordText_toString (n : Nat) : WordText (toString n) := by
  intro c hc
  rw [toList_toString] at hc
  exact isWordChar_of_isDigit ((Json.Numeral.digits_toDigits n).2 c hc)

theorem isWordChar_digitAt (id : Identifier) (place : Nat) :
    isWordChar (id.digitAt place) = true := by
  have hdigits : ∀ n < 16, isWordChar (Nat.digitChar n) = true := by decide
  exact hdigits _ (Nat.mod_lt _ (by decide))

theorem wordText_hex (id : Identifier) : WordText id.hex := by
  intro c hc
  rw [Identifier.hex, String.toList_ofList] at hc
  obtain ⟨place, -, rfl⟩ := List.mem_map.1 hc
  exact isWordChar_digitAt id place

theorem wordText_short (id : Identifier) : WordText id.short := by
  intro c hc
  rw [Identifier.short, String.toList_ofList] at hc
  obtain ⟨place, -, rfl⟩ := List.mem_map.1 (List.mem_of_mem_take hc)
  exact isWordChar_digitAt id place

theorem wordText_candidate {short wide : String} (hshort : WordText short) (hwide : WordText wide)
    (n : Nat) : WordText (candidate short wide n) := by
  match n with
  | 0 => exact hshort
  | 1 => exact hwide
  | n + 2 =>
    have hmark : WordText "_" := by decide
    exact (hwide.append hmark).append (wordText_toString (n + 2))

namespace FileNames

theorem wordText_classStem (c : ContentClass) (kind : ArtifactKind) {id : String}
    (hid : WordText id) : WordText (classStem c kind id) := by
  have hmark : WordText "_" := by decide
  have hkind : WordText kind.fileSegment := by
    cases kind <;> decide
  exact ((((((wordText_sanitize c.group).append hmark).append
    (wordText_sanitize c.name)).append hmark).append hkind).append hmark).append hid

/-- The name of a class is new, and it is a word with the mark and the extension. -/
theorem perClass_name (names : FileNames) (c : ContentClass) (kind : ArtifactKind) :
    (names.perClass c kind).1 ∉ names.taken ∧
      ∃ stem, WordText stem ∧ (names.perClass c kind).1 = fileName names.extension stem := by
  refine ⟨claim_not_mem _ _ _ (Generated.fileName_injective names.extension), ?_⟩
  obtain ⟨n, hn⟩ := claim_eq names.taken (classStem c kind c.stableId.short)
    (classStem c kind c.stableId.hex) (fileName names.extension)
  have hshort := wordText_classStem c kind (wordText_short c.stableId)
  have hwide := wordText_classStem c kind (wordText_hex c.stableId)
  exact ⟨_, wordText_candidate hshort hwide n, hn⟩

end FileNames

end Naming

namespace Generated

open Naming FileNames

/-! ### Files of a run -/

/-- The files have different names, each of them a word with the mark and the extension. -/
structure WellNamed (extension : String) (taken : List String) (files : List Artifact) : Prop where
  nodup : (files.map (·.fileName)).Nodup
  fresh : ∀ a ∈ files, a.fileName ∉ taken
  word : ∀ a ∈ files, ∃ stem, WordText stem ∧ a.fileName = fileName extension stem

theorem WellNamed.cons {extension : String} {taken : List String} {a : Artifact}
    {files : List Artifact} (hfresh : a.fileName ∉ taken)
    (hword : ∃ stem, WordText stem ∧ a.fileName = fileName extension stem)
    (h : WellNamed extension (a.fileName :: taken) files) :
    WellNamed extension taken (a :: files) where
  nodup := by
    refine List.nodup_cons.2 ⟨?_, h.nodup⟩
    intro hmem
    obtain ⟨other, hother, hname⟩ := List.mem_map.1 hmem
    exact h.fresh other hother (hname ▸ List.mem_cons_self ..)
  fresh other hother := by
    rcases List.mem_cons.1 hother with rfl | hother
    · exact hfresh
    · exact fun hmem => h.fresh other hother (List.mem_cons_of_mem _ hmem)
  word other hother := by
    rcases List.mem_cons.1 hother with rfl | hother
    · exact hword
    · exact h.word other hother

theorem wellNamed_nil (extension : String) (taken : List String) : WellNamed extension taken [] :=
  ⟨List.nodup_nil, nofun, nofun⟩

theorem wellNamed_nameClasses (o : Options) (names : FileNames) (classes : List ContentClass) :
    WellNamed names.extension names.taken (nameClasses o names classes) := by
  induction classes generalizing names with
  | nil => exact wellNamed_nil ..
  | cons c rest ih =>
    have hmodel := names.perClass_name c .model
    have hstep := (names.perClass c .model).2.perClass_name c .step
    have hrest := ih ((names.perClass c .model).2.perClass c .step).2
    exact .cons hmodel.1 hmodel.2 (.cons hstep.1 hstep.2 hrest)

/-- The names of the files that belong to no class come in front of those of the classes. -/
theorem wellNamed_nameShared {names after : FileNames} {files : List SharedFile}
    {shared own : List Artifact} (hstems : ∀ f ∈ files, WordText f.stem)
    (hshared : nameShared names files = .ok (shared, after))
    (hown : WellNamed after.extension after.taken own) :
    WellNamed names.extension names.taken (shared ++ own) := by
  induction files generalizing names shared with
  | nil =>
    obtain ⟨rfl, rfl⟩ : [] = shared ∧ names = after := by simpa [nameShared] using hshared
    exact hown
  | cons f rest ih =>
    by_cases htaken : names.taken.contains (fileName names.extension f.stem) = true
    · have hrefused : names.shared f.stem =
          .error (.duplicateArtifact (fileName names.extension f.stem)) := if_pos htaken
      rw [nameShared, hrefused] at hshared
      cases hshared
    · have hnamed : names.shared f.stem = .ok (fileName names.extension f.stem,
          { names with taken := fileName names.extension f.stem :: names.taken }) := if_neg htaken
      rw [nameShared, hnamed] at hshared
      change Except.bind (nameShared _ rest) _ = _ at hshared
      cases hrest : nameShared
          { names with taken := fileName names.extension f.stem :: names.taken } rest with
      | error failure =>
        rw [hrest] at hshared
        cases hshared
      | ok result =>
        rw [hrest] at hshared
        cases hshared
        have hlater := ih (fun f hf => hstems f (List.mem_cons_of_mem _ hf)) hrest
        refine WellNamed.cons ?_ ⟨f.stem, hstems f (List.mem_cons_self ..), rfl⟩ hlater
        simpa using htaken

theorem wordText_stem {o : Options} {classes : List ContentClass} {f : SharedFile}
    (h : f ∈ sharedFiles o classes) : WordText f.stem := by
  rcases stem_of_mem_sharedFiles h with hfixed | ⟨c, -, hstem⟩
  · have hwords : ∀ stem ∈ "ContentPipelineModel" :: fixedStems, WordText stem := by
      decide +kernel
    exact hwords f.stem hfixed
  · have hfront : WordText "I" := by decide
    have hback : WordText "PipelineModel" := by decide
    rw [hstem]
    exact (hfront.append (wordText_sanitize c.group)).append hback

/-- No two files of a run have one name. -/
theorem wellNamed_artifacts {o : Options} {cancelled : Bool} {classes : List ContentClass}
    {files : List Artifact} (h : artifacts o cancelled classes = .ok files) :
    WellNamed o.fileExtension [] files := by
  unfold artifacts at h
  cases cancelled with
  | true => cases h
  | false =>
    change Except.bind (nameShared (.start o.fileExtension) (sharedFiles o classes)) _ = _ at h
    cases hshared : nameShared (.start o.fileExtension) (sharedFiles o classes) with
    | error failure =>
      rw [hshared] at h
      cases h
    | ok result =>
      rw [hshared] at h
      cases h
      exact wellNamed_nameShared (fun f hf => wordText_stem hf) hshared
        (wellNamed_nameClasses o _ classes)

end Generated

namespace Files.Path

/-! ### Plain names -/

theorem isPlainName_of_length {name : String} (hslash : '/' ∉ name.toList)
    (hlong : 3 ≤ name.toList.length) : isPlainName name = true := by
  have hparts : ofText name = ⟨.plain, [name.toList]⟩ := by
    unfold ofText ofChars
    split
    · rename_i hchars
      rw [hchars] at hslash
      exact absurd (List.mem_cons_self ..) hslash
    · rename_i hchars
      rw [hchars] at hlong
      exact absurd hlong (by decide)
    · rename_i hchars
      rw [hchars] at hslash
      exact absurd (List.mem_cons_of_mem _ (List.mem_cons_self ..)) hslash
    · rw [Text.segments_of_not_mem hslash]
  have hother (cs : List Char) (hshort : cs.length < 3) : (name.toList == cs) = false := by
    refine beq_eq_false_iff_ne.2 fun h => ?_
    rw [h] at hlong
    omega
  have hidle : isIdle name.toList = false := by
    rw [isIdle, hother [] (by decide), hother ['.'] (by decide)]
    rfl
  have hupward : (name.toList != upward) = true := by
    rw [bne, hother upward (by decide)]
    rfl
  unfold isPlainName
  rw [hparts]
  simp [names, hidle, hupward]

theorem head_of_isPlainName {name : String} (h : isPlainName name = true) :
    name.toList.head? ≠ some '/' := by
  intro hhead
  obtain ⟨rest, hchars⟩ : ∃ rest, name.toList = '/' :: rest := List.head?_eq_some_iff.1 hhead
  have hparts : ofText name = ⟨.root, Text.segments '/' rest⟩ := by rw [ofText, hchars, ofChars]
  unfold isPlainName at h
  rw [hparts] at h
  cases h

end Files.Path

namespace Generation

open Naming FileNames

theorem not_mem_fileName {extension stem : String} (hstem : WordText stem)
    (hextension : Options.validExtension extension.toList = true) {c : Char}
    (hword : isWordChar c = false) (hdot : c ≠ '.') (halphanum : c.isAlphanum = false) :
    c ∉ (fileName extension stem).toList := by
  have hmark : c ≠ 'g' := by
    rintro rfl
    exact absurd hword (by decide)
  have hback : c ∉ extension.toList := by
    intro hmem
    have hall := (Bool.and_eq_true_iff.1 hextension).2
    rw [List.all_eq_true.1 hall c hmem] at halphanum
    cases halphanum
  have hfront : c ∉ stem.toList := by
    intro hmem
    rw [hstem c hmem] at hword
    cases hword
  simp [fileName, String.toList_append, hfront, hback, hdot, hmark]

theorem isPlainName_fileName {extension stem : String} (hstem : WordText stem)
    (hextension : Options.validExtension extension.toList = true) :
    Files.Path.isPlainName (fileName extension stem) = true := by
  refine Files.Path.isPlainName_of_length
    (not_mem_fileName hstem hextension (by decide) (by decide) (by decide)) ?_
  have hmark : ".g.".toList.length = 3 := rfl
  simp only [fileName, String.toList_append, List.length_append, hmark]
  omega

theorem fileName_ne_lock {extension stem : String} (hstem : WordText stem)
    (hextension : Options.validExtension extension.toList = true) :
    fileName extension stem ≠ LockFile.fileName := by
  intro h
  have hhyphen : '-' ∉ (fileName extension stem).toList :=
    not_mem_fileName hstem hextension (by decide) (by decide) (by decide)
  rw [h] at hhyphen
  exact hhyphen (by decide)

/-- The files of a run can stand side by side in one directory, and the lock file beside them. -/
structure SideBySide (files : List Artifact) : Prop where
  nodup : (files.map (·.fileName)).Nodup
  plain : ∀ a ∈ files, Files.Path.isPlainName a.fileName = true
  ne_lock : ∀ a ∈ files, a.fileName ≠ LockFile.fileName

theorem validExtension_of_valid {o : Options} (h : o.validate = .ok ()) :
    Options.validExtension o.fileExtension.toList = true := by
  unfold Options.validate at h
  split at h
  · cases h
  · split at h
    · cases h
    · split at h
      · cases h
      · rename_i hextension
        simpa using hextension

/-- What a run gives its files for names, with the extension of its options. -/
theorem wellNamed_of_run {g : Graph} {o : Options} {result : Generation}
    (hrun : run g o false = .ok result) :
    Options.validExtension o.fileExtension.toList = true ∧
      Generated.WellNamed o.fileExtension [] result.artifacts := by
  cases hvalid : o.validate with
  | error f =>
    rw [run_of_invalid g o f hvalid] at hrun
    cases hrun
  | ok =>
    rw [run_of_valid g o hvalid] at hrun
    cases hfiles : Generated.artifacts o false (Resolution.runClasses g o) with
    | error f =>
      rw [hfiles] at hrun
      cases hrun
    | ok files =>
      rw [hfiles] at hrun
      cases hrun
      exact ⟨validExtension_of_valid hvalid, Generated.wellNamed_artifacts hfiles⟩

theorem sideBySide_artifacts {g : Graph} {o : Options} {result : Generation}
    (hrun : run g o false = .ok result) : SideBySide result.artifacts := by
  obtain ⟨hextension, hnamed⟩ := wellNamed_of_run hrun
  refine ⟨hnamed.nodup, fun a ha => ?_, fun a ha => ?_⟩
  · obtain ⟨stem, hstem, hname⟩ := hnamed.word a ha
    rw [hname]
    exact isPlainName_fileName hstem hextension
  · obtain ⟨stem, hstem, hname⟩ := hnamed.word a ha
    rw [hname]
    exact fileName_ne_lock hstem hextension

theorem not_mem_artifacts {g : Graph} {o : Options} {result : Generation}
    (hrun : run g o false = .ok result) {a : Artifact} (ha : a ∈ result.artifacts) {c : Char}
    (hword : isWordChar c = false) (hdot : c ≠ '.') (halphanum : c.isAlphanum = false) :
    c ∉ a.fileName.toList := by
  obtain ⟨hextension, hnamed⟩ := wellNamed_of_run hrun
  obtain ⟨stem, hstem, hname⟩ := hnamed.word a ha
  rw [hname]
  exact not_mem_fileName hstem hextension hword hdot halphanum

end Generation

end ContentLoom

import ContentLoom.Proofs.OutputFolder

/-!
# What a comparison foretells

Comparing a directory with the generated files tells what generating into it
would do to the directory: which artifacts it would create, which of them would
get another content, and which files it would delete.  The files of the
directory may hold any bytes.  One file is told to be stale that is not deleted
for good: a lock file with its own name among the recorded ones is removed like
the others, and then written again.
-/

namespace ContentLoom

namespace Files

/-! ### A directory of bytes -/

/-- Files by name, with their bytes. -/
abbrev ByteMap := Dictionary ByteArray

namespace ByteMap

/-- Writes a file in UTF-8. -/
def writeText (name text : String) : StateM ByteMap (Except FileError Unit) := do
  modify fun files => files.insert name text.toUTF8
  return .ok ()

/-- Removes a file that is there. -/
def removeFile (name : String) : StateM ByteMap (Except FileError Unit) := do
  if (← get).contains name then
    modify fun files => files.erase name
    return .ok ()
  else return .error .notFound

theorem removeFile_of_contains {files : ByteMap} {name : String}
    (h : files.contains name = true) :
    removeFile name files = (.ok (), files.erase name) := by
  change (if files.contains name = true then
    (do modify fun files : ByteMap => files.erase name; return .ok ())
    else return .error .notFound : StateM ByteMap (Except FileError Unit)) files = _
  rw [if_pos h]
  rfl

end ByteMap

/-- The text of some bytes. -/
def textOf (bytes : ByteArray) : Except FileError String :=
  match String.fromUTF8? bytes with
  | some text => .ok text
  | none => .error .notText

theorem textOf_toUTF8 (text : String) : textOf text.toUTF8 = .ok text := by
  have hvalid : text.toUTF8.IsValidUTF8 := text.isValidUTF8
  rw [textOf, String.fromUTF8?, dif_pos hvalid]
  rfl

end Files

namespace Command

open Files

/-- Files of bytes; a text is written in UTF-8. -/
def bytewise : Medium ByteArray := ⟨String.toUTF8, textOf, id⟩

section

variable (outside : String → Except FileError ByteArray) (directory : String)

/-- The bytes at a path, in the directory or outside. -/
def bytesAt (files : ByteMap) (path : String) : Except FileError ByteArray :=
  match nameIn? directory path with
  | some name => Medium.contentIn files name
  | none => outside path

/-- A machine on which only the files of one directory can be changed, and what is outside the
directory can be read. -/
def byteHost : Host (StateM ByteMap) where
  readText path := do return bytesAt outside directory (← get) path >>= textOf
  readBytes path := do return bytesAt outside directory (← get) path
  isFile path := do return (bytesAt outside directory (← get) path).isOk
  isPresent path := do return (bytesAt outside directory (← get) path).isOk
  writeText path text :=
    match nameIn? directory path with
    | some name => ByteMap.writeText name text
    | none => pure (.error .permissionDenied)
  removeFile path :=
    match nameIn? directory path with
    | some name => ByteMap.removeFile name
    | none => pure (.error .permissionDenied)
  createDirectories _ := pure (.ok ())
  remark _ := pure ()

theorem bytesAt_join {name : String} (hplain : Path.isPlainName name = true) (files : ByteMap) :
    bytesAt outside directory files (join directory name) = Medium.contentIn files name := by
  rw [bytesAt, nameIn?_join (Path.head_of_isPlainName hplain)]

theorem keeps_byteHost : bytewise.Keeps ((byteHost outside directory).folder directory) where
  readText {name} hplain files := by
    change (bytesAt outside directory files (join directory name) >>= textOf, files) = _
    rw [bytesAt_join outside directory hplain]
    rfl
  readBytes {name} hplain files := by
    change (bytesAt outside directory files (join directory name), files) = _
    rw [bytesAt_join outside directory hplain]
    cases Medium.contentIn files name <;> rfl
  isFile {name} hplain files := by
    change ((bytesAt outside directory files (join directory name)).isOk, files) = _
    rw [bytesAt_join outside directory hplain, Medium.isOk_contentIn]
  isPresent {name} hplain files := by
    change ((bytesAt outside directory files (join directory name)).isOk, files) = _
    rw [bytesAt_join outside directory hplain, Medium.isOk_contentIn]
  writeText {name} hplain files text := by
    have hname := nameIn?_join (Path.head_of_isPlainName hplain) directory
    change (match nameIn? directory (join directory name) with
      | some name => ByteMap.writeText name text
      | none => pure (.error .permissionDenied)) files = _
    rw [hname]
    rfl
  removeFile {name} hplain files hfile := by
    have hname := nameIn?_join (Path.head_of_isPlainName hplain) directory
    change (match nameIn? directory (join directory name) with
      | some name => ByteMap.removeFile name
      | none => pure (.error .permissionDenied)) files = _
    rw [hname]
    exact ByteMap.removeFile_of_contains hfile

end

/-! ### What a run does to a directory -/

/-- The file is not there before and is there afterwards. -/
def Created (before after : ByteMap) (name : String) : Prop :=
  before.get? name = none ∧ after.get? name ≠ none

/-- The file is there before and afterwards, with other bytes. -/
def Altered (before after : ByteMap) (name : String) : Prop :=
  ∃ old new, before.get? name = some old ∧ after.get? name = some new ∧ old ≠ new

/-- The file is there before and is not there afterwards. -/
def Deleted (before after : ByteMap) (name : String) : Prop :=
  before.get? name ≠ none ∧ after.get? name = none

theorem unchanged_of_get? {before after : ByteMap} {name : String} {bytes : ByteArray}
    (hbefore : before.get? name = some bytes) (hafter : after.get? name = some bytes) :
    ¬Created before after name ∧ ¬Altered before after name := by
  constructor
  · rintro ⟨hnone, -⟩
    rw [hbefore] at hnone
    cases hnone
  · rintro ⟨old, new, hold, hnew, hne⟩
    rw [hbefore] at hold
    rw [hafter] at hnew
    exact hne ((Option.some.inj hold).symm.trans (Option.some.inj hnew))

/-- There is no lock file, or one whose record has only names of files in the directory itself. -/
def LockedBy (files : ByteMap) : Option LockFile → Prop
  | none => files.get? LockFile.fileName = none
  | some lock => ∃ bytes text, files.get? LockFile.fileName = some bytes ∧ textOf bytes = .ok text ∧
      LockFile.ofText text = .ok lock ∧ ∀ name ∈ lock.files.names, Path.isPlainName name = true

/-- The lock file has its own name among the recorded ones. -/
def RecordsItself (previous : Option LockFile) : Prop :=
  ∃ lock ∈ previous, LockFile.fileName ∈ lock.files.names

/-- The digest tells the bytes of every artifact's file from those of the artifact. -/
def Telling (artifacts : List Artifact) (files : ByteMap) : Prop :=
  ∀ a ∈ artifacts, ∀ bytes, files.get? a.fileName = some bytes →
    Digest.Sha256.hexOfBytes bytes = Digest.Sha256.hexOfBytes a.source.toUTF8 →
      bytes = a.source.toUTF8

theorem lockIn_of_lockedBy {files : ByteMap} {previous : Option LockFile}
    (h : LockedBy files previous) (path : String) :
    bytewise.lockIn path files = .ok previous := by
  cases previous with
  | none =>
    have hnone : files.get? LockFile.fileName = none := h
    rw [Medium.lockIn, hnone]
  | some lock =>
    obtain ⟨bytes, text, hbytes, htext, hlock, hplain⟩ := h
    exact lockIn_of_content hbytes htext hlock hplain path

/-- The files after a run that found a record. -/
def rewritten (files : ByteMap) (previous : Option LockFile) (artifacts : List Artifact)
    (o : Options) : ByteMap :=
  bytewise.renewed files (staleNames previous artifacts o) artifacts o

section

variable {artifacts : List Artifact} (hfiles : Generation.SideBySide artifacts)
  (files : ByteMap) (previous : Option LockFile) (o : Options)
include hfiles

theorem get?_rewritten_artifact {a : Artifact} (ha : a ∈ artifacts) :
    (rewritten files previous artifacts o).get? a.fileName = some a.source.toUTF8 := by
  have hnodup : ((artifacts.map fun a => (a.fileName, a.source.toUTF8)).map Prod.fst).Nodup := by
    rw [List.map_map]
    exact hfiles.nodup
  have hget : Entries.get? (artifacts.map fun a => (a.fileName, bytewise.encode a.source))
      a.fileName = some a.source.toUTF8 := Entries.get?_of_mem hnodup (List.mem_map_of_mem ha)
  rw [rewritten, Medium.get?_renewed hfiles, if_neg (hfiles.ne_lock a ha), hget]
  rfl

theorem get?_rewritten_lock :
    (rewritten files previous artifacts o).get? LockFile.fileName =
      some (LockFile.ofArtifacts artifacts o).text.toUTF8 := by
  rw [rewritten, Medium.get?_renewed hfiles, if_pos rfl]
  rfl

theorem get?_rewritten_other {name : String} (hother : name ∉ artifacts.map (·.fileName))
    (hlock : name ≠ LockFile.fileName) :
    (rewritten files previous artifacts o).get? name =
      if name ∈ staleNames previous artifacts o then none else files.get? name := by
  have hnone : Entries.get? (artifacts.map fun a => (a.fileName, bytewise.encode a.source)) name =
      none := by
    rw [← Option.not_isSome_iff_eq_none, Entries.isSome_get?, Entries.names, List.map_map]
    exact hother
  rw [rewritten, Medium.get?_renewed hfiles, if_neg hlock, hnone]
  rfl

/-! ### What a comparison tells -/

theorem mem_missingNames (name : String) :
    name ∈ Medium.missingNames files artifacts ↔
      name ∈ artifacts.map (·.fileName) ∧
        Created files (rewritten files previous artifacts o) name := by
  rw [Medium.missingNames, List.mem_map, List.mem_map]
  constructor
  · rintro ⟨a, ha, rfl⟩
    obtain ⟨hmem, habsent⟩ := List.mem_filter.1 ha
    have hnone : files.get? a.fileName = none := by
      simpa [Dictionary.contains] using habsent
    refine ⟨⟨a, hmem, rfl⟩, hnone, ?_⟩
    rw [get?_rewritten_artifact hfiles files previous o hmem]
    exact Option.some_ne_none _
  · rintro ⟨⟨a, hmem, rfl⟩, hnone, -⟩
    exact ⟨a, List.mem_filter.2 ⟨hmem, by simp [Dictionary.contains, hnone]⟩, rfl⟩

theorem mem_changedNames (htelling : Telling artifacts files) (name : String) :
    name ∈ bytewise.changedNames files artifacts ↔
      name ∈ artifacts.map (·.fileName) ∧
        Altered files (rewritten files previous artifacts o) name := by
  have hverify (bytes : ByteArray) (source : String) :
      Checksum.verify bytes (Digest.Sha256.hexOfText source) = true ↔
        Digest.Sha256.hexOfBytes bytes = Digest.Sha256.hexOfBytes source.toUTF8 := by
    rw [Checksum.verify, Checksum.digits_hexOfText, beq_iff_eq]
    exact Iff.rfl
  rw [Medium.changedNames, List.mem_map, List.mem_map]
  constructor
  · rintro ⟨a, ha, rfl⟩
    obtain ⟨hmem, hany⟩ := List.mem_filter.1 ha
    obtain ⟨old, hold, hother⟩ := (Option.any_eq_true _ _).1 hany
    refine ⟨⟨a, hmem, rfl⟩, old, a.source.toUTF8, hold,
      get?_rewritten_artifact hfiles files previous o hmem, ?_⟩
    rintro rfl
    have hsame : Checksum.verify a.source.toUTF8 (Digest.Sha256.hexOfText a.source) = true :=
      Checksum.verify_hexOfText a.source
    have hdiffers : (!Checksum.verify a.source.toUTF8 (Digest.Sha256.hexOfText a.source)) = true :=
      hother
    rw [hsame] at hdiffers
    cases hdiffers
  · rintro ⟨⟨a, hmem, rfl⟩, old, new, hold, hnew, hne⟩
    rw [get?_rewritten_artifact hfiles files previous o hmem] at hnew
    cases hnew
    have hother : Checksum.verify old (Digest.Sha256.hexOfText a.source) = false := by
      rw [Bool.eq_false_iff, ne_eq, hverify]
      exact fun hdigest => hne (htelling a hmem old hold hdigest)
    refine ⟨a, List.mem_filter.2 ⟨hmem, ?_⟩, rfl⟩
    have hcontent : bytewise.bytes old = old := rfl
    rw [hold, Option.any_some, hcontent, hother]
    rfl

theorem lock_not_mem : LockFile.fileName ∉ artifacts.map (·.fileName) := by
  rw [List.mem_map]
  rintro ⟨a, ha, hname⟩
  exact hfiles.ne_lock a ha hname

theorem not_deleted_lock :
    ¬Deleted files (rewritten files previous artifacts o) LockFile.fileName := by
  rintro ⟨-, hgone⟩
  rw [get?_rewritten_lock hfiles] at hgone
  cases hgone

theorem lock_mem_presentStale {previous : Option LockFile} (hlock : LockedBy files previous) :
    LockFile.fileName ∈ (staleNames previous artifacts o).filter files.contains ↔
      RecordsItself previous := by
  rw [List.mem_filter, mem_staleNames]
  constructor
  · rintro ⟨⟨hrecorded, -⟩, -⟩
    exact hrecorded
  · intro hrecorded
    refine ⟨⟨hrecorded, lock_not_mem hfiles⟩, ?_⟩
    obtain ⟨lock, hsome, -⟩ := hrecorded
    cases hsome
    obtain ⟨bytes, -, hbytes, -⟩ := hlock
    rw [Dictionary.contains, hbytes]
    rfl

theorem other_mem_presentStale {name : String} (hother : name ≠ LockFile.fileName) :
    name ∈ (staleNames previous artifacts o).filter files.contains ↔
      Deleted files (rewritten files previous artifacts o) name := by
  rw [List.mem_filter, Dictionary.contains, Option.isSome_iff_ne_none]
  constructor
  · rintro ⟨hstale, hthere⟩
    have hfresh := ((mem_staleNames previous artifacts o name).1 hstale).2
    refine ⟨hthere, ?_⟩
    rw [get?_rewritten_other hfiles files previous o hfresh hother, if_pos hstale]
  · rintro ⟨hthere, hgone⟩
    have hfresh : name ∉ artifacts.map (·.fileName) := by
      rw [List.mem_map]
      rintro ⟨a, ha, rfl⟩
      rw [get?_rewritten_artifact hfiles files previous o ha] at hgone
      cases hgone
    rw [get?_rewritten_other hfiles files previous o hfresh hother] at hgone
    split at hgone
    · rename_i hstale
      exact ⟨hstale, hthere⟩
    · exact absurd hgone hthere

theorem mem_presentStale {previous : Option LockFile} (hlock : LockedBy files previous)
    (name : String) :
    name ∈ (staleNames previous artifacts o).filter files.contains ↔
      Deleted files (rewritten files previous artifacts o) name ∨
        name = LockFile.fileName ∧ RecordsItself previous := by
  -- the lock file is the only file that a run may both remove and write
  by_cases hown : name = LockFile.fileName
  · subst hown
    have hkept := not_deleted_lock hfiles files previous o
    rw [lock_mem_presentStale hfiles files o hlock]
    simp [hkept]
  · rw [other_mem_presentStale hfiles files previous o hown]
    simp [hown]

end

/-- What a comparison tells is what a run does: the missing artifacts are those that the run
creates, the changed ones those to which it gives other bytes, and the stale files those that it
deletes, besides a lock file that records itself.  The stale files are also those of the files which
the run tells to have removed that were there. -/
structure Foretells (artifacts : List Artifact) (previous : Option LockFile)
    (before after : ByteMap) (drift : Drift) (summary : Summary) : Prop where
  missing : ∀ name, name ∈ drift.missing ↔
    name ∈ artifacts.map (·.fileName) ∧ Created before after name
  changed : ∀ name, name ∈ drift.changed ↔
    name ∈ artifacts.map (·.fileName) ∧ Altered before after name
  stale : ∀ name, name ∈ drift.stale ↔
    Deleted before after name ∨ name = LockFile.fileName ∧ RecordsItself previous
  removed : drift.stale = summary.removed.filter before.contains
  clean : drift.isClean = true ↔
    (∀ name ∈ artifacts.map (·.fileName),
      ¬Created before after name ∧ ¬Altered before after name) ∧
    (∀ name, ¬Deleted before after name) ∧ ¬RecordsItself previous

theorem isClean_iff (drift : Drift) :
    drift.isClean = true ↔ (∀ name, name ∉ drift.missing) ∧ (∀ name, name ∉ drift.changed) ∧
      ∀ name, name ∉ drift.stale := by
  simp only [Drift.isClean, Bool.and_eq_true, List.isEmpty_iff, and_assoc,
    List.eq_nil_iff_forall_not_mem]

section

variable (outside : String → Except FileError ByteArray) (i : Invocation) {directory : String}
  (hdirectory : i.output = some directory) {files : ByteMap} {result : Generation}
  (hgenerated : generated i (bytesAt outside directory files i.input >>= textOf) = .ok result)
  {previous : Option LockFile} (hlock : LockedBy files previous)
include hdirectory hgenerated hlock

theorem performOn_compare_bytes :
    performOn (compare (byteHost outside directory) i) files =
      (.ok ⟨Medium.missingNames files result.artifacts,
        bytewise.changedNames files result.artifacts,
        (staleNames previous result.artifacts i.options).filter files.contains,
        result.artifacts.length⟩, files) := by
  have hfiles := sideBySide_of_generated i hgenerated
  rw [performOn_compare hdirectory (fun _ => rfl) rfl hgenerated]
  exact performOn_compareOutput (keeps_byteHost outside directory)
    (lockIn_of_lockedBy hlock _) hfiles.plain i.options

theorem performOn_generate_bytes :
    performOn (generate (byteHost outside directory) i) files =
      (.ok ⟨result.artifacts.length, staleNames previous result.artifacts i.options⟩,
        rewritten files previous result.artifacts i.options) := by
  have hread : (byteHost outside directory).readText i.input files =
      (bytesAt outside directory files i.input >>= textOf, files) := rfl
  have hrun := performOn_generate hdirectory (fun _ => rfl) hread
    (keeps_byteHost outside directory) rfl
  rw [hgenerated] at hrun
  simp only [lockIn_of_lockedBy hlock] at hrun
  exact hrun

end

/-- The comparison succeeds and leaves the directory as it is, the run succeeds, and the one tells
what the other does. -/
theorem compare_foretells_generate (outside : String → Except FileError ByteArray) (i : Invocation)
    {directory : String} (hdirectory : i.output = some directory) {files : ByteMap} {g : Graph}
    {result : Generation}
    (hgraph : graphAt i.input (bytesAt outside directory files i.input >>= textOf) = .ok g)
    (hrun : Generation.run g i.options false = .ok result) (hclean : result.hasErrors = false)
    {previous : Option LockFile} (hlock : LockedBy files previous)
    (htelling : Telling result.artifacts files) :
    ∃ drift summary after,
      performOn (compare (byteHost outside directory) i) files = (.ok drift, files) ∧
      performOn (generate (byteHost outside directory) i) files = (.ok summary, after) ∧
      Foretells result.artifacts previous files after drift summary := by
  have hgenerated : generated i (bytesAt outside directory files i.input >>= textOf) =
      .ok result := (generated_eq_ok_iff i _ result).2 ⟨g, hgraph, hrun, hclean⟩
  have hfiles := sideBySide_of_generated i hgenerated
  have hmissing := mem_missingNames hfiles files previous i.options
  have hchanged := mem_changedNames hfiles files previous i.options htelling
  have hstale := mem_presentStale hfiles files i.options hlock
  refine ⟨_, _, _, performOn_compare_bytes outside i hdirectory hgenerated hlock,
    performOn_generate_bytes outside i hdirectory hgenerated hlock, hmissing, hchanged, hstale,
    rfl, ?_⟩
  rw [isClean_iff]
  simp only [hmissing, hchanged, hstale]
  constructor
  · rintro ⟨hcreated, haltered, hdeleted⟩
    refine ⟨fun name hname => ⟨fun h => hcreated name ⟨hname, h⟩, fun h => haltered name ⟨hname, h⟩⟩,
      fun name h => hdeleted name (.inl h), fun h => hdeleted _ (.inr ⟨rfl, h⟩)⟩
  · rintro ⟨hsame, hkept, hrecorded⟩
    refine ⟨fun name h => (hsame name h.1).1 h.2, fun name h => (hsame name h.1).2 h.2, ?_⟩
    rintro name (hdeleted | ⟨-, hown⟩)
    · exact hkept name hdeleted
    · exact hrecorded hown

/-! ### The files of an empty graph -/

/-- A directory with the files of an empty graph, some other files and a lock file. -/
def emptyGraphFiles (others : ByteMap) (lock : LockFile) : ByteMap :=
  ((Generated.allFiles .standard []).foldl (fun files a => files.insert a.fileName a.source.toUTF8)
    others).insert LockFile.fileName lock.text.toUTF8

/-- Every file outside the directory is an empty graph. -/
def emptyOutside : String → Except FileError ByteArray := fun _ => .ok "{}".toUTF8

theorem generated_emptyGraph (files : ByteMap) :
    ∃ result, graphAt emptyInvocation.input
        (bytesAt emptyOutside "out" files emptyInvocation.input >>= textOf) = .ok ⟨[]⟩ ∧
      Generation.run ⟨[]⟩ emptyInvocation.options false = .ok result ∧ result.hasErrors = false ∧
      result.artifacts = Generated.allFiles .standard [] := by
  obtain ⟨result, hresult, hclean, hartifacts⟩ := run_empty
  have hbytes : bytesAt emptyOutside "out" files "graph.json" = .ok "{}".toUTF8 := by
    have hname : nameIn? "out" "graph.json" = none := by decide
    rw [bytesAt, hname]
    rfl
  have hgraph : graphAt "graph.json" (.ok "{}") = .ok ⟨[]⟩ := by rfl
  refine ⟨result, ?_, hresult, hclean, hartifacts⟩
  change graphAt "graph.json" (bytesAt emptyOutside "out" files "graph.json" >>= textOf) = _
  rw [hbytes]
  change graphAt "graph.json" (textOf "{}".toUTF8) = _
  rw [textOf_toUTF8, hgraph]

theorem sideBySide_emptyGraph : Generation.SideBySide (Generated.allFiles .standard []) := by
  obtain ⟨result, hgraph, hresult, hclean, hartifacts⟩ := generated_emptyGraph .empty
  rw [← hartifacts]
  exact Generation.sideBySide_artifacts hresult

theorem get?_emptyGraphFiles {a : Artifact} (ha : a ∈ Generated.allFiles .standard [])
    (others : ByteMap) (lock : LockFile) :
    (emptyGraphFiles others lock).get? a.fileName = some a.source.toUTF8 := by
  have hnodup : (Entries.names ((Generated.allFiles .standard []).map
      fun a => (a.fileName, a.source.toUTF8))).Nodup := by
    rw [Entries.names, List.map_map]
    exact sideBySide_emptyGraph.nodup
  have hfold : (Generated.allFiles .standard []).foldl
      (fun files a => files.insert a.fileName a.source.toUTF8) others =
        ((Generated.allFiles .standard []).map fun a => (a.fileName, a.source.toUTF8)).foldl
          (fun d e => d.insert e.1 e.2) others := by
    rw [List.foldl_map]
  have hget := Entries.get?_of_mem hnodup (List.mem_map_of_mem (f := fun a : Artifact =>
    (a.fileName, a.source.toUTF8)) ha)
  rw [emptyGraphFiles, Dictionary.get?_insert, if_neg (sideBySide_emptyGraph.ne_lock a ha), hfold,
    Dictionary.get?_foldl_insert _ hnodup, hget]
  rfl

theorem telling_emptyGraphFiles (others : ByteMap) (lock : LockFile) :
    Telling (Generated.allFiles .standard []) (emptyGraphFiles others lock) := by
  intro a ha bytes hbytes _
  rw [get?_emptyGraphFiles ha] at hbytes
  exact (Option.some.inj hbytes).symm

theorem lockedBy_emptyGraphFiles (others : ByteMap) {lock : LockFile}
    (hplain : ∀ name ∈ lock.files.names, Path.isPlainName name = true) :
    LockedBy (emptyGraphFiles others lock) (some lock) := by
  refine ⟨lock.text.toUTF8, lock.text, ?_, textOf_toUTF8 _, LockFile.ofText_text lock, hplain⟩
  rw [emptyGraphFiles, Dictionary.get?_insert, if_pos rfl]

/-- A record of one file. -/
def recordOf (name : String) : LockFile :=
  ⟨generatorVersion, "ContentPipeline", Dictionary.empty.insert name ""⟩

theorem staleNames_recordOf {name : String} {artifacts : List Artifact}
    (hfresh : name ∉ artifacts.map (·.fileName)) (o : Options) :
    staleNames (some (recordOf name)) artifacts o = [name] := by
  have hnew : (LockFile.ofArtifacts artifacts o).files.contains name = false := by
    rw [Bool.eq_false_iff, ne_eq, Dictionary.contains_iff, LockFile.mem_names_ofArtifacts]
    exact hfresh
  have hnames : (recordOf name).files.names = [name] := rfl
  simp [staleNames, LockFile.staleFiles, hnames, hnew]

/-- The files of an empty graph with a recorded file of an earlier run, which is no text. -/
def oldFolder : ByteMap :=
  emptyGraphFiles (Dictionary.empty.insert "Old.g.cs" ⟨#[0xff]⟩) (recordOf "Old.g.cs")

theorem compare_foretells_generate_oldFolder :
    ∃ drift summary after,
      performOn (compare (byteHost emptyOutside "out") emptyInvocation) oldFolder =
        (.ok drift, oldFolder) ∧
      performOn (generate (byteHost emptyOutside "out") emptyInvocation) oldFolder =
        (.ok summary, after) ∧
      Foretells (Generated.allFiles .standard []) (some (recordOf "Old.g.cs")) oldFolder after drift
        summary := by
  obtain ⟨result, hgraph, hresult, hclean, hartifacts⟩ := generated_emptyGraph oldFolder
  have hplain : ∀ name ∈ (recordOf "Old.g.cs").files.names, Path.isPlainName name = true := by
    intro name hname
    obtain rfl : name = "Old.g.cs" := List.mem_singleton.1 hname
    decide
  have htelling : Telling result.artifacts oldFolder := by
    rw [hartifacts]
    exact telling_emptyGraphFiles _ _
  rw [← hartifacts]
  exact compare_foretells_generate emptyOutside emptyInvocation rfl hgraph hresult hclean
    (lockedBy_emptyGraphFiles _ hplain) htelling

/-- The files of an empty graph with a lock file that records itself. -/
def selfRecordedFolder : ByteMap := emptyGraphFiles .empty (recordOf LockFile.fileName)

/-- A lock file that records itself is told to be stale, so that the comparison is not clean, though
the run creates no artifact, alters none and deletes no file. -/
theorem compare_of_selfRecorded :
    ∃ result drift summary after,
      graphAt emptyInvocation.input
        (bytesAt emptyOutside "out" selfRecordedFolder emptyInvocation.input >>= textOf) =
          .ok ⟨[]⟩ ∧
      Generation.run ⟨[]⟩ emptyInvocation.options false = .ok result ∧ result.hasErrors = false ∧
      LockedBy selfRecordedFolder (some (recordOf LockFile.fileName)) ∧
      Telling result.artifacts selfRecordedFolder ∧
      performOn (compare (byteHost emptyOutside "out") emptyInvocation) selfRecordedFolder =
        (.ok drift, selfRecordedFolder) ∧
      performOn (generate (byteHost emptyOutside "out") emptyInvocation) selfRecordedFolder =
        (.ok summary, after) ∧
      (∀ name ∈ result.artifacts.map (·.fileName),
        ¬Created selfRecordedFolder after name ∧ ¬Altered selfRecordedFolder after name) ∧
      (∀ name, ¬Deleted selfRecordedFolder after name) ∧
      drift.stale = [LockFile.fileName] ∧ drift.isClean = false := by
  obtain ⟨result, hgraph, hresult, hclean, hartifacts⟩ := generated_emptyGraph selfRecordedFolder
  have hlock : LockedBy selfRecordedFolder (some (recordOf LockFile.fileName)) := by
    refine lockedBy_emptyGraphFiles _ fun name hname => ?_
    obtain rfl : name = LockFile.fileName := List.mem_singleton.1 hname
    exact isPlainName_lock
  have htelling : Telling result.artifacts selfRecordedFolder := by
    rw [hartifacts]
    exact telling_emptyGraphFiles _ _
  have hgenerated := (generated_eq_ok_iff emptyInvocation _ result).2
    ⟨_, hgraph, hresult, hclean⟩
  have hfiles := sideBySide_of_generated emptyInvocation hgenerated
  have hcompared := performOn_compare_bytes emptyOutside emptyInvocation rfl hgenerated hlock
  have hwritten := performOn_generate_bytes emptyOutside emptyInvocation rfl hgenerated hlock
  have hstale : (staleNames (some (recordOf LockFile.fileName)) result.artifacts
      emptyInvocation.options).filter selfRecordedFolder.contains = [LockFile.fileName] := by
    have hthere := (List.mem_filter.1 ((lock_mem_presentStale hfiles selfRecordedFolder
      emptyInvocation.options hlock).2 ⟨_, rfl, List.mem_singleton_self _⟩)).2
    rw [staleNames_recordOf (lock_not_mem hfiles), List.filter_singleton, hthere]
    rfl
  refine ⟨result, _, _, _, hgraph, hresult, hclean, hlock, htelling, hcompared, hwritten, ?_, ?_,
    hstale, ?_⟩
  · intro name hname
    obtain ⟨a, ha, rfl⟩ := List.mem_map.1 hname
    have hbefore : selfRecordedFolder.get? a.fileName = some a.source.toUTF8 := by
      rw [hartifacts] at ha
      exact get?_emptyGraphFiles ha _ _
    exact unchanged_of_get? hbefore (get?_rewritten_artifact hfiles _ _ _ ha)
  · intro name hdeleted
    have hmem := (mem_presentStale hfiles selfRecordedFolder emptyInvocation.options hlock name).2
      (.inl hdeleted)
    rw [hstale] at hmem
    obtain rfl := List.mem_singleton.1 hmem
    exact not_deleted_lock hfiles _ _ _ hdeleted
  · simp [Drift.isClean, hstale]

end Command

end ContentLoom

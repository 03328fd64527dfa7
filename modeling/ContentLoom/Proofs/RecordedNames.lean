import ContentLoom.Proofs.OutputFolder

/-!
# Recorded names

A run that succeeds gives its files names of files in the directory itself, each
of them once.  The record of the files has every file under its own name, and a
later run that finds the record reads it, whatever the run is asked for.
-/

namespace ContentLoom

namespace LockFile

/-! ### The record of some files -/

/-- Every file is recorded under its own name, and every recorded name is one of a file in the
directory itself. -/
structure Records (lock : LockFile) (artifacts : List Artifact) : Prop where
  names : lock.files.names.Perm (artifacts.map (·.fileName))
  checksums : ∀ a ∈ artifacts, lock.files.get? a.fileName = some (Checksum.ofText a.source)
  valid : lock.badName? = none

theorem badName?_eq_none_iff (l : LockFile) :
    l.badName? = none ↔ ∀ name ∈ l.files.names, Files.Path.isPlainName name = true := by
  rw [badName?, List.find?_eq_none]
  simp

theorem names_ofArtifacts_perm {artifacts : List Artifact}
    (hnodup : (artifacts.map (·.fileName)).Nodup) (o : Options) :
    (ofArtifacts artifacts o).files.names.Perm (artifacts.map (·.fileName)) := by
  have hrecorded : (ofArtifacts artifacts o).files.names.Nodup :=
    (ofArtifacts artifacts o).files.increasing.nodup
  rw [List.perm_ext_iff_of_nodup hrecorded hnodup]
  exact mem_names_ofArtifacts artifacts o

theorem get?_ofArtifacts {artifacts : List Artifact}
    (hnodup : (artifacts.map (·.fileName)).Nodup) (o : Options) {a : Artifact}
    (ha : a ∈ artifacts) :
    (ofArtifacts artifacts o).files.get? a.fileName = some (Checksum.ofText a.source) := by
  have hnames : (Entries.names
      (artifacts.map fun a => (a.fileName, Checksum.ofText a.source))).Nodup := by
    rw [Entries.names, List.map_map]
    exact hnodup
  have hentry : (a.fileName, Checksum.ofText a.source) ∈
      artifacts.map fun a => (a.fileName, Checksum.ofText a.source) := List.mem_map_of_mem ha
  rw [ofArtifacts, Dictionary.get?_ofEntries _ hnames]
  exact Entries.get?_of_mem hnames hentry

theorem records_ofArtifacts {artifacts : List Artifact}
    (hfiles : Generation.SideBySide artifacts) (o : Options) :
    Records (ofArtifacts artifacts o) artifacts where
  names := names_ofArtifacts_perm hfiles.nodup o
  checksums _ ha := get?_ofArtifacts hfiles.nodup o ha
  valid := by
    rw [badName?_eq_none_iff]
    exact fun name => isPlainName_of_mem_ofArtifacts hfiles

end LockFile

namespace Command

open Files

variable (s : Surroundings) (directory : String)

/-! ### Later runs -/

/-- The files have a lock file that tells a record. -/
def Holds (files : FileMap) (lock : LockFile) : Prop :=
  files.get? LockFile.fileName = some lock.text

/-- Whatever else is in a directory and whatever a run is asked for, the run reads the record that
the lock file tells. -/
structure Accepted (lock : LockFile) : Prop where
  read : ∀ (s : Surroundings) (directory : String) (files : FileMap), Holds files lock →
    perform (readLock (s.folder directory)) files = (.ok (some lock), files)
  /-- A run that generates removes the files that are recorded and not generated. -/
  generate : ∀ (s : Surroundings) (directory : String) (files : FileMap) (i : Invocation)
    (result : Generation), Holds files lock → i.output = some directory →
    generated i (s.textAt directory files i.input) = .ok result → s.made directory = .ok () →
      ∃ after, perform (generate (s.host directory) i) files =
        (.ok ⟨result.artifacts.length,
          lock.staleFiles (LockFile.ofArtifacts result.artifacts i.options)⟩, after)
  /-- A run that checks counts those of them that are there. -/
  check : ∀ (s : Surroundings) (directory : String) (files : FileMap) (i : Invocation)
    (result : Generation), Holds files lock → i.output = some directory →
    generated i (s.textAt directory files i.input) = .ok result →
      ∃ drift : Drift, drift.checked = result.artifacts.length ∧
        drift.stale = (lock.staleFiles (LockFile.ofArtifacts result.artifacts i.options)).filter
          files.contains ∧
        perform (check (s.host directory) i) files =
          (if drift.isClean then .ok drift
            else .error (.outOfDate drift.missing.length drift.changed.length
              drift.stale.length), files)

theorem lockIn_of_holds (path : String) {lock : LockFile} (hvalid : lock.badName? = none)
    {files : FileMap} (h : Holds files lock) : texts.lockIn path files = .ok (some lock) := by
  have hplain := (LockFile.badName?_eq_none_iff lock).1 hvalid
  exact lockIn_of_content h rfl (LockFile.ofText_text lock) hplain path

theorem perform_readLock_of_holds {lock : LockFile} (hvalid : lock.badName? = none)
    {files : FileMap} (h : Holds files lock) :
    perform (readLock (s.folder directory)) files = (.ok (some lock), files) := by
  rw [perform_readLock, lockIn_of_holds _ hvalid h]

theorem compareOutput_of_holds {lock : LockFile} (hvalid : lock.badName? = none) {files : FileMap}
    (h : Holds files lock) {artifacts : List Artifact}
    (hplain : ∀ a ∈ artifacts, Path.isPlainName a.fileName = true) (o : Options) :
    perform (compareOutput (s.folder directory) o artifacts) files =
      (.ok ⟨Medium.missingNames files artifacts, texts.changedNames files artifacts,
        (lock.staleFiles (LockFile.ofArtifacts artifacts o)).filter files.contains,
        artifacts.length⟩, files) :=
  perform_compareOutput s directory (lockIn_of_holds _ hvalid h) hplain o

theorem perform_check {files : FileMap} {i : Invocation} {drift : Drift}
    (h : perform (compare (s.host directory) i) files = (.ok drift, files)) :
    perform (check (s.host directory) i) files =
      (if drift.isClean then .ok drift
        else .error (.outOfDate drift.missing.length drift.changed.length drift.stale.length),
        files) := by
  rw [check, perform_bind_ok h]
  split
  · rfl
  · rfl

theorem accepted_of_valid {lock : LockFile} (hvalid : lock.badName? = none) : Accepted lock where
  read s directory _ h := perform_readLock_of_holds s directory hvalid h
  generate s directory files i result h hdirectory hgenerated hmade := by
    have hlock := lockIn_of_holds (join directory LockFile.fileName) hvalid h
    rw [perform_generate s i hdirectory, hgenerated]
    simp only [hmade, hlock]
    exact ⟨_, rfl⟩
  check s directory files i result h hdirectory hgenerated := by
    have hplain := (sideBySide_of_generated i hgenerated).plain
    have hcompared := compareOutput_of_holds s directory hvalid h hplain i.options
    rw [← perform_compare_of_generated s i hdirectory hgenerated] at hcompared
    exact ⟨_, rfl, rfl, perform_check s directory hcompared⟩

/-! ### The record of a run -/

theorem run_cancelled (g : Graph) (o : Options) (result : Generation) :
    Generation.run g o true ≠ .ok result := by
  intro h
  unfold Generation.run at h
  cases hclasses : Resolution.resolveClasses g o true with
  | error failure =>
    rw [hclasses] at h
    cases h
  | ok found =>
    rw [hclasses] at h
    cases h

theorem holds_of_generate {i : Invocation} {files after : FileMap} {summary : Summary} {g : Graph}
    {result : Generation}
    (hgraph : graphAt i.input (s.textAt (i.output.getD "") files i.input) = .ok g)
    (hrun : Generation.run g i.options false = .ok result)
    (hdone : perform (generate (s.host (i.output.getD "")) i) files = (.ok summary, after)) :
    Holds after (LockFile.ofArtifacts result.artifacts i.options) := by
  rcases refused_or_succeeds s i files with
    ⟨-, failure, hrefused⟩ | ⟨other, found, previous, written, hsucceeds, hfound⟩
  · rw [hrefused] at hdone
    cases hdone
  · rw [hfound] at hdone
    cases hdone
    obtain rfl : other = g := Except.ok.inj (hsucceeds.graph.symm.trans hgraph)
    obtain rfl : found = result := Except.ok.inj (hsucceeds.run.symm.trans hrun)
    exact hsucceeds.renewed.recorded

/-- The files of a run have names of files in the directory itself.  Their record has each of them
under its own name and is accepted by every later run, and it is what a run on a directory leaves
there. -/
theorem run_recorded {g : Graph} {o : Options} {cancelled : Bool} {result : Generation}
    (hrun : Generation.run g o cancelled = .ok result) :
    (∀ a ∈ result.artifacts, Path.isPlainName a.fileName = true) ∧
      (LockFile.ofArtifacts result.artifacts o).Records result.artifacts ∧
      Accepted (LockFile.ofArtifacts result.artifacts o) ∧
      ∀ (s : Surroundings) (i : Invocation) (files after : FileMap) (summary : Summary),
        i.options = o → graphAt i.input (s.textAt (i.output.getD "") files i.input) = .ok g →
        perform (generate (s.host (i.output.getD "")) i) files = (.ok summary, after) →
          Holds after (LockFile.ofArtifacts result.artifacts o) := by
  cases cancelled with
  | true => exact absurd hrun (run_cancelled g o result)
  | false =>
    have hfiles := Generation.sideBySide_artifacts hrun
    have hrecords := LockFile.records_ofArtifacts hfiles o
    refine ⟨hfiles.plain, hrecords, accepted_of_valid hrecords.valid, ?_⟩
    rintro s i files after summary rfl hgraph hdone
    exact holds_of_generate s hgraph hrun hdone

/-- A graph of one type, whose name and group could be those of other directories. -/
def upwardGraph : Graph := ⟨[Generation.grouped "a/b" "../up"]⟩

theorem run_recorded_upward :
    ∃ result c, Generation.run upwardGraph .standard false = .ok result ∧
      result.classes = [c] ∧ c.group = "../up" ∧ c.name = "a/b" ∧
      (∀ a ∈ result.artifacts, Path.isPlainName a.fileName = true) ∧
      (LockFile.ofArtifacts result.artifacts .standard).Records result.artifacts ∧
      Accepted (LockFile.ofArtifacts result.artifacts .standard) := by
  have hvalid : Options.standard.validate = .ok () := by rfl
  have hclasses : ∃ c, Resolution.runClasses upwardGraph .standard = [c] ∧
      c.group = "../up" ∧ c.name = "a/b" := by
    have hsingle (c : ContentClass) : Resolution.sortClasses [c] = [c] :=
      List.mergeSort_singleton c
    -- the sort does not reduce, so the only class is brought into sight before it
    change ∃ c, Resolution.sortClasses [_] = [c] ∧ c.group = "../up" ∧ c.name = "a/b"
    rw [hsingle]
    exact ⟨_, rfl, rfl, rfl⟩
  obtain ⟨c, hclasses, hgroup, hname⟩ := hclasses
  have hfree : Generated.contested? [c] = none := by
    simp [Generated.contested?, hgroup]
  have hrun := Generation.run_of_valid upwardGraph .standard hvalid
  rw [Generated.artifacts_eq, hclasses, hfree] at hrun
  obtain ⟨hplain, hrecords, haccepted, -⟩ := run_recorded hrun
  exact ⟨_, c, hrun, rfl, hgroup, hname, hplain, hrecords, haccepted⟩

end Command

end ContentLoom

import ContentLoom.Proofs.DiskRuns

/-!
# Removed files

What a run that generates into a directory of a disk deletes, and what it tells
about it.  The run deletes the recorded files that are there and are generated no
more, wherever the directory is and whatever else is on the disk; a lock file
that records itself is written again.  A comparison beforehand tells these files
to be stale.  The run tells to have removed every recorded name that is generated
no more, whether there was a file or not.
-/

namespace ContentLoom.Command

open Files

section

variable {directory : String} {m after : Disk.Machine}

theorem sweeps_and_fills {d : Disk} {lock : LockFile} (hlock : Locked d directory lock)
    {artifacts : List Artifact} {o : Options}
    (hfree : ∀ a ∈ artifacts, d.Free directory a.fileName) :
    ∃ swept : Disk, d.Sweeps directory (staleNames (some lock) artifacts o) swept ∧
      swept.Fills directory (artifacts.map (·.fileName) ++ [LockFile.fileName])
        (renewedDisk d directory (staleNames (some lock) artifacts o) artifacts o) := by
  have hswept := Disk.sweeps_swept directory (hlock.isPlainName artifacts o) d
  have hfilled := Disk.fills_filled fun a ha => hswept.tree.free_iff.2 (hfree a ha)
  have hlast := (hswept.tree.trans hfilled.tree).free_iff.2 hlock.free
  have hrecorded := Disk.fills_put hlast (LockFile.ofArtifacts artifacts o).text
  unfold renewedDisk
  exact ⟨_, hswept, hfilled.trans hrecorded⟩

/-- What a run tells to have removed and a comparison beforehand to be stale, and what the run has
deleted. -/
structure Accounts (directory : String) (lock : LockFile) (artifacts : List Artifact)
    (before after : Disk) (summary : Summary) (drift : Drift) : Prop where
  removed : ∀ name, name ∈ summary.removed ↔
    name ∈ lock.files.names ∧ name ∉ artifacts.map (·.fileName)
  increasing : summary.removed.Pairwise (· < ·)
  stale : drift.stale = summary.removed.filter fun name => before.isFile (join directory name)
  /-- A lock file that is deleted is written again. -/
  deleted : ∀ place, before.HasFile place ∧ ¬after.HasFile place ↔
    ∃ name ∈ drift.stale, name ≠ LockFile.fileName ∧
      placeOf before.here directory ++ [name] = place
  agrees : summary.removed = drift.stale ↔
    ∀ name ∈ lock.files.names, name ∉ artifacts.map (·.fileName) →
      before.isFile (join directory name) = true

theorem deleted_iff {d : Disk} {lock : LockFile} (hlock : Locked d directory lock)
    {artifacts : List Artifact} {o : Options}
    (hfree : ∀ a ∈ artifacts, d.Free directory a.fileName) (place : Place) :
    d.HasFile place ∧ ¬(renewedDisk d directory (staleNames (some lock) artifacts o) artifacts
        o).HasFile place ↔
      ∃ name ∈ (staleNames (some lock) artifacts o).filter
          (fun name => d.isFile (join directory name)),
        name ≠ LockFile.fileName ∧ placeOf d.here directory ++ [name] = place := by
  obtain ⟨swept, hsweeps, hfills⟩ := sweeps_and_fills (o := o) hlock hfree
  have hwritten := hfills.written
  have hkept := hfills.kept
  rw [hsweeps.tree.here] at hwritten hkept
  constructor
  · -- where nothing is written, a file is only lost to the sweep
    rintro ⟨⟨text, htext⟩, hgone⟩
    by_contra hnone
    simp only [List.mem_filter, not_exists, not_and] at hnone
    have hother : ∀ name ∈ artifacts.map (·.fileName) ++ [LockFile.fileName],
        placeOf d.here directory ++ [name] ≠ place := by
      rintro name hname rfl
      exact hgone (hwritten name hname)
    refine hgone ⟨text, ?_⟩
    rw [hkept place hother, hsweeps.kept place fun name hname hfile hsame => ?_, htext]
    refine hnone name ⟨hname, hfile⟩ ?_ hsame
    rintro rfl
    exact hother _ (List.mem_append_right _ (List.mem_singleton_self _)) hsame
  · rintro ⟨name, hname, hne, rfl⟩
    obtain ⟨hstale, hfile⟩ := List.mem_filter.1 hname
    have hplain := hlock.isPlainName artifacts o name hstale
    have hproper := Disk.properName_of_isFile hplain hfile
    refine ⟨((Disk.isFile_join_iff hproper).1 hfile).2, ?_⟩
    rintro ⟨text, htext⟩
    rw [hkept, hsweeps.gone name hstale hfile] at htext
    · cases htext
    · intro other hother hsame
      rw [Disk.child_injective hsame] at hother
      rcases List.mem_append.1 hother with hartifact | hown
      · exact ((mem_staleNames _ _ _ name).1 hstale).2 hartifact
      · exact hne (List.mem_singleton.1 hown)

/-- Wherever the directory of a valid lock file is, and whatever else is on the disk: a run that
succeeds deletes the files that a comparison beforehand tells to be stale, but a lock file among
them, and no others.  It tells to have removed all recorded names that are generated no more, which
are those stale files only if there was a file for each of them. -/
theorem generate_accounts_for_deletions {i : Invocation} (hdirectory : i.output = some directory)
    {lock : LockFile}
    (hlock : performOn (readLock (Disk.host.folder directory)) m = (.ok (some lock), m))
    {summary : Summary} (hrun : performOn (generate Disk.host i) m = (.ok summary, after)) :
    ∃ result drift told, generated i (m.disk.readText i.input) = .ok result ∧
      performOn (compare Disk.host i) m = (.ok drift, told) ∧ told.disk = m.disk ∧
      Accounts directory lock result.artifacts m.disk after.disk summary drift := by
  have hlocked := performOn_readLock_disk_iff.1 hlock
  obtain ⟨result, hresult, hfree, rfl, hafter⟩ :=
    (generate_disk_iff hlocked hdirectory).1 ⟨after, hrun, rfl⟩
  obtain ⟨remarks, hcompare⟩ := performOn_compare_disk (m := m) hdirectory
  have htold : Locked (Disk.Machine.mk m.disk remarks).disk directory lock := hlocked
  obtain ⟨drift, hdrift, hstale⟩ :=
    performOn_compareOutput_disk htold result.artifacts i.options
  rw [hresult] at hcompare
  have hmem := mem_staleNames (some lock) result.artifacts i.options
  simp only [Option.mem_some, exists_eq_left'] at hmem
  refine ⟨result, drift, _, hresult, hcompare.trans hdrift, rfl, hmem, ?_, hstale, ?_, ?_⟩
  · exact lock.files.increasing.filter _
  · intro place
    rw [← hafter, hstale]
    exact deleted_iff hlocked hfree place
  · rw [hstale, eq_comm, List.filter_eq_self]
    exact ⟨fun h name hname hfresh => h name ((hmem name).2 ⟨hname, hfresh⟩),
      fun h name hname => h name ((hmem name).1 hname).1 ((hmem name).1 hname).2⟩

end

/-! ### A directory with a gap -/

/-- A record of two files. -/
def gapRecord : LockFile :=
  ⟨generatorVersion, "ContentPipeline",
    (Dictionary.empty.insert "Gone.g.cs" "").insert "Old.g.cs" ""⟩

/-- A disk with an empty graph, and a directory with one of two recorded files. -/
def gapMachine : Disk.Machine :=
  ⟨⟨[(["work"], .directory), (["work", "graph.json"], .file "{}"),
    (["work", "out"], .directory), (["work", "out", "Old.g.cs"], .file ""),
    (["work", "out", LockFile.fileName], .file gapRecord.text)], ["work"]⟩, []⟩

theorem join_out {name : String} (hname : ProperName name) : join "out" name = "out/" ++ name := by
  have hempty : ¬"out".toList = [] := by decide
  have hlast : ¬"out".toList.getLast? = some '/' := by decide
  rw [join, joinChars, if_neg (not_or.2 ⟨Disk.head_of_proper hname, hempty⟩), if_neg hlast,
    ← String.toList_inj, String.toList_ofList, String.toList_append]
  rfl

theorem free_gap {name : String} (hname : ProperName name) (hnul : '\x00' ∉ name.toList)
    (hshort : name.utf8ByteSize ≤ Disk.nameLimit) : gapMachine.disk.Free "out" name := by
  refine ⟨⟨⟨?_, ?_, ?_⟩, ?_, .inr (.inr ?_)⟩, ?_⟩
  · rw [join_out hname, String.toList_append, List.mem_append, not_or]
    exact ⟨by decide, hnul⟩
  · rw [join_out hname, ne_eq, ← String.toList_inj, String.toList_append]
    simp
  · have hfront : "out/".utf8ByteSize = 4 := by decide
    rw [join_out hname, String.utf8ByteSize_append, hfront]
    unfold Disk.nameLimit at hshort
    unfold Disk.pathLimit
    omega
  · have hpieces : pieces "out".toList = ["out".toList] := by decide
    rw [hpieces]
    refine ⟨by decide, .inr (.inr (by decide)), ?_⟩
    rw [Disk.Opens]
    decide
  · rw [String.ofList_toList]
    exact hshort
  · have hplace : placeOf gapMachine.disk.here "out" = ["work", "out"] := by decide
    rw [hplace, Disk.isDirectoryAt_iff]
    simp only [Disk.node?, gapMachine, Disk.lookup_cons_eq]
    split_ifs <;> simp_all

theorem locked_gap : Locked gapMachine.disk "out" gapRecord := by
  refine ⟨gapRecord.text, (Disk.readText_join_iff properName_lock).2 ⟨?_, rfl⟩,
    LockFile.ofText_text gapRecord, by decide⟩
  exact (free_gap properName_lock (by decide) (by decide)).reaches

theorem removed_gap {artifacts : List Artifact} {o : Options}
    (hfresh : ∀ a ∈ artifacts, a.fileName ∉ gapRecord.files.names) :
    staleNames (some gapRecord) artifacts o = ["Gone.g.cs", "Old.g.cs"] := by
  have hnames : gapRecord.files.names = ["Gone.g.cs", "Old.g.cs"] := rfl
  rw [staleNames, LockFile.staleFiles, hnames, List.filter_eq_self]
  intro name hname
  rw [← hnames] at hname
  rw [Bool.not_eq_true', Bool.eq_false_iff, ne_eq, Dictionary.contains_iff,
    LockFile.mem_names_ofArtifacts, List.mem_map]
  rintro ⟨a, ha, rfl⟩
  exact hfresh a ha hname

/-- Both recorded files are told to have been removed, but only one of them was there. -/
theorem generate_accounts_for_deletions_gap :
    ∃ summary after, performOn (readLock (Disk.host.folder "out")) gapMachine =
        (.ok (some gapRecord), gapMachine) ∧
      performOn (generate Disk.host emptyInvocation) gapMachine = (.ok summary, after) ∧
      summary.removed = ["Gone.g.cs", "Old.g.cs"] ∧
      ∃ result drift told,
        generated emptyInvocation (gapMachine.disk.readText emptyInvocation.input) = .ok result ∧
        performOn (compare Disk.host emptyInvocation) gapMachine = (.ok drift, told) ∧
        told.disk = gapMachine.disk ∧
        Accounts "out" gapRecord result.artifacts gapMachine.disk after.disk summary drift ∧
        drift.stale = ["Old.g.cs"] := by
  obtain ⟨result, hresult, hclean, hartifacts⟩ := run_empty
  have hread : gapMachine.disk.readText "graph.json" = .ok "{}" := by decide
  have hgraph : graphAt "graph.json" (.ok "{}") = .ok ⟨[]⟩ := by rfl
  have hgenerated : generated emptyInvocation
      (gapMachine.disk.readText emptyInvocation.input) = .ok result :=
    (generated_eq_ok_iff _ _ result).2 ⟨_, (congrArg _ hread).trans hgraph, hresult, hclean⟩
  have hnames : ∀ a ∈ Generated.allFiles .standard [],
      a.fileName.utf8ByteSize ≤ Disk.nameLimit ∧ a.fileName ∉ gapRecord.files.names := by
    decide +kernel
  rw [← hartifacts] at hnames
  have hfree : ∀ a ∈ result.artifacts, gapMachine.disk.Free "out" a.fileName := fun a ha =>
    free_gap (properName_artifact hresult a ha)
      (Generation.not_mem_artifacts hresult ha (by decide) (by decide) (by decide)) (hnames a ha).1
  have hlock := performOn_readLock_disk_iff.2 locked_gap
  obtain ⟨after, hrun, -⟩ := (generate_disk_iff locked_gap rfl).2
    ⟨result, hgenerated, hfree, rfl, rfl⟩
  obtain ⟨found, drift, told, hfound, hcompare, htold, haccounts⟩ :=
    generate_accounts_for_deletions rfl hlock hrun
  have hremoved := removed_gap (o := .standard) fun a ha => (hnames a ha).2
  have hthere : (["Gone.g.cs", "Old.g.cs"].filter fun name =>
      gapMachine.disk.isFile (join "out" name)) = ["Old.g.cs"] := by decide
  refine ⟨_, after, hlock, hrun, hremoved, found, drift, told, hfound, hcompare, htold, haccounts,
    ?_⟩
  rw [haccounts.stale]
  exact (congrArg _ hremoved).trans hthere

end ContentLoom.Command

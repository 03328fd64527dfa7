import ContentLoom.Proofs.DiskPlaces

/-!
# Commands on a disk

What the commands do on the directory of a lock file, wherever on a disk it is.
Removing files deletes those that are there, and can do so always; writing
artifacts needs a place for each of them.  No directory is made or lost on the
way, so what can be written is known from the disk as it was before.
-/

namespace ContentLoom

namespace Files.Disk

variable {directory : String}

/-! ### Deleting files -/

/-- The disk without the file that a path in a directory leads to, if there is one. -/
def dropped (d : Disk) (directory name : String) : Disk :=
  if d.isFile (join directory name) then d.without (placeOf d.here directory ++ [name]) else d

/-- The disk without the files that some paths in a directory lead to. -/
def swept (d : Disk) (directory : String) (names : List String) : Disk :=
  names.foldl (fun d name => d.dropped directory name) d

theorem swept_cons (d : Disk) (directory name : String) (names : List String) :
    d.swept directory (name :: names) = (d.dropped directory name).swept directory names := by
  rw [swept, List.foldl_cons, swept]

/-- A file is deleted exactly at the places of those paths where there was one. -/
structure Sweeps (d : Disk) (directory : String) (names : List String) (e : Disk) : Prop where
  tree : d.SameTree e
  gone : ∀ name ∈ names, d.isFile (join directory name) = true →
    e.node? (placeOf d.here directory ++ [name]) = none
  kept : ∀ place, (∀ name ∈ names, d.isFile (join directory name) = true →
    placeOf d.here directory ++ [name] ≠ place) → e.node? place = d.node? place

theorem properName_of_isFile {d : Disk} {name : String} (hplain : Path.isPlainName name = true)
    (hfile : d.isFile (join directory name) = true) : ProperName name := by
  obtain ⟨own, hown, hspells⟩ := (Path.isPlainName_iff name).1 hplain
  rwa [eq_of_isFile_spelled hown hspells hfile]

theorem child_injective {place : Place} {name other : String}
    (h : place ++ [name] = place ++ [other]) : name = other :=
  List.singleton_injective (List.append_cancel_left h)

theorem sweeps_dropped {d : Disk} {name : String} (hplain : Path.isPlainName name = true) :
    d.Sweeps directory [name] (d.dropped directory name) := by
  unfold dropped
  by_cases hfile : d.isFile (join directory name) = true
  · have hproper := properName_of_isFile hplain hfile
    have hthere := ((isFile_join_iff hproper).1 hfile).2
    have hnode := node?_without (d := d) hthere.ne_nil
    rw [if_pos hfile]
    refine ⟨sameTree_without hthere, fun other hother _ => ?_, fun place hplace => ?_⟩
    · rw [List.mem_singleton.1 hother, hnode, if_pos rfl]
    · rw [hnode, if_neg fun hsame => hplace name List.mem_cons_self hfile hsame.symm]
  · rw [if_neg hfile]
    refine ⟨.refl d, fun other hother hfound => ?_, fun _ _ => rfl⟩
    rw [List.mem_singleton.1 hother] at hfound
    exact absurd hfound hfile

/-- What the deletions leave of the files of the directory. -/
theorem Sweeps.isFile_iff {d e : Disk} {names : List String} (h : d.Sweeps directory names e)
    {name : String} (hplain : Path.isPlainName name = true) :
    e.isFile (join directory name) = true ↔
      d.isFile (join directory name) = true ∧ name ∉ names := by
  constructor
  · intro hfile
    have hproper := properName_of_isFile hplain hfile
    obtain ⟨hreaches, text, htext⟩ := (isFile_join_iff hproper).1 hfile
    rw [h.tree.here] at htext
    have hbefore : d.isFile (join directory name) = true := by
      by_contra hnone
      refine hnone ((isFile_join_iff hproper).2 ⟨h.tree.reaches_iff.1 hreaches, text, ?_⟩)
      rw [← h.kept, htext]
      intro other hother hfound hsame
      exact hnone (child_injective hsame ▸ hfound)
    refine ⟨hbefore, fun hname => ?_⟩
    rw [h.gone name hname hbefore] at htext
    cases htext
  · rintro ⟨hfile, hname⟩
    have hproper := properName_of_isFile hplain hfile
    obtain ⟨hreaches, text, htext⟩ := (isFile_join_iff hproper).1 hfile
    refine (isFile_join_iff hproper).2 ⟨h.tree.reaches_iff.2 hreaches, text, ?_⟩
    rw [h.tree.here, h.kept, htext]
    intro other hother _ hsame
    exact hname (child_injective hsame ▸ hother)

theorem Sweeps.trans {d e f : Disk} {names more : List String} (h : d.Sweeps directory names e)
    (hplain : ∀ name ∈ more, Path.isPlainName name = true) (hmore : e.Sweeps directory more f) :
    d.Sweeps directory (names ++ more) f := by
  obtain ⟨htree, hgone, hkept⟩ := hmore
  rw [h.tree.here] at hgone hkept
  refine ⟨h.tree.trans htree, fun name hname hfile => ?_, fun place hplace => ?_⟩
  · by_cases hearlier : name ∈ names
    · rw [hkept, h.gone name hearlier hfile]
      -- a name that comes twice has no file any more when it comes again
      intro other hother hfound hsame
      rw [child_injective hsame] at hother hfound
      exact ((h.isFile_iff (hplain name hother)).1 hfound).2 hearlier
    · have hlater := (List.mem_append.1 hname).resolve_left hearlier
      exact hgone name hlater ((h.isFile_iff (hplain name hlater)).2 ⟨hfile, hearlier⟩)
  · rw [hkept, h.kept place fun name hname => hplace name (List.mem_append_left _ hname)]
    intro name hname hfound
    exact hplace name (List.mem_append_right _ hname)
      ((h.isFile_iff (hplain name hname)).1 hfound).1

theorem sweeps_swept (directory : String) {names : List String}
    (hplain : ∀ name ∈ names, Path.isPlainName name = true) (d : Disk) :
    d.Sweeps directory names (d.swept directory names) := by
  induction names generalizing d with
  | nil => exact ⟨.refl d, nofun, fun _ _ => rfl⟩
  | cons name names ih =>
    obtain ⟨hname, hnames⟩ := List.forall_mem_cons.1 hplain
    rw [swept_cons]
    exact (sweeps_dropped hname).trans hnames (ih hnames _)

/-! ### Writing files -/

/-- The disk after some artifacts have been written into a directory. -/
def filled (d : Disk) (directory : String) (artifacts : List Artifact) : Disk :=
  artifacts.foldl
    (fun d a => d.put (placeOf d.here directory ++ [a.fileName]) (.file a.source)) d

/-- Some names of a directory have files, and nothing else is changed. -/
structure Fills (d : Disk) (directory : String) (names : List String) (e : Disk) : Prop where
  tree : d.SameTree e
  written : ∀ name ∈ names, e.HasFile (placeOf d.here directory ++ [name])
  kept : ∀ place, (∀ name ∈ names, placeOf d.here directory ++ [name] ≠ place) →
    e.node? place = d.node? place

theorem fills_put {d : Disk} {name : String} (h : d.Free directory name) (text : String) :
    d.Fills directory [name] (d.put (placeOf d.here directory ++ [name]) (.file text)) := by
  have hnode := node?_put (d := d) (ne_nil_of_not_directory h.free) (.file text)
  refine ⟨sameTree_put h.free text, fun other hother => ?_, fun place hplace => ?_⟩
  · obtain rfl := List.mem_singleton.1 hother
    exact ⟨text, by rw [hnode, if_pos rfl]⟩
  · rw [hnode, if_neg fun hsame => hplace name List.mem_cons_self hsame.symm]

theorem Fills.trans {d e f : Disk} {names more : List String} (h : d.Fills directory names e)
    (hmore : e.Fills directory more f) : d.Fills directory (names ++ more) f := by
  obtain ⟨htree, hwritten, hkept⟩ := hmore
  rw [h.tree.here] at hwritten hkept
  refine ⟨h.tree.trans htree, fun name hname => ?_, fun place hplace => ?_⟩
  · by_cases hlater : name ∈ more
    · exact hwritten name hlater
    · obtain ⟨text, htext⟩ := h.written name ((List.mem_append.1 hname).resolve_right hlater)
      refine ⟨text, ?_⟩
      rw [hkept, htext]
      intro other hother hsame
      rw [child_injective hsame] at hother
      exact hlater hother
  · rw [hkept place fun name hname => hplace name (List.mem_append_right _ hname),
      h.kept place fun name hname => hplace name (List.mem_append_left _ hname)]

theorem fills_filled {artifacts : List Artifact} {d : Disk}
    (hfree : ∀ a ∈ artifacts, d.Free directory a.fileName) :
    d.Fills directory (artifacts.map (·.fileName)) (d.filled directory artifacts) := by
  induction artifacts generalizing d with
  | nil => exact ⟨.refl d, nofun, fun _ _ => rfl⟩
  | cons a artifacts ih =>
    have hfirst := fills_put (hfree a List.mem_cons_self) a.source
    refine hfirst.trans (ih fun other hother => ?_)
    exact hfirst.tree.free_iff.2 (hfree other (List.mem_cons_of_mem _ hother))

end Files.Disk

namespace Command

open Files

/-! ### Actions that succeed -/

section

variable {σ α β : Type}

theorem performOn_bind_eq_ok_iff {act : Action (StateM σ) α} {next : α → Action (StateM σ) β}
    {state after : σ} {b : β} :
    performOn (act >>= next) state = (.ok b, after) ↔
      ∃ a middle, performOn act state = (.ok a, middle) ∧
        performOn (next a) middle = (.ok b, after) := by
  rw [performOn_bind]
  rcases performOn act state with ⟨_ | a, middle⟩
  · simp
  · simp

theorem performOn_attempt_eq_ok_iff {op : StateM σ (Except FileError α)}
    {failure : FileError → CommandFailure} {state after : σ} {a : α} :
    performOn (attempt op failure) state = (.ok a, after) ↔ op state = (.ok a, after) := by
  rcases hop : op state with ⟨result, there⟩
  rw [performOn_attempt hop]
  cases result with
  | error e => exact ⟨nofun, nofun⟩
  | ok found =>
    constructor
    · rintro ⟨⟩
      rfl
    · rintro ⟨⟩
      rfl

end

/-! ### Actions on a disk -/

section

variable {directory : String} {m after : Disk.Machine}

theorem change_eq_ok_iff {f : Disk → Except FileError Disk} :
    Disk.change f m = (.ok (), after) ↔
      ∃ disk, f m.disk = .ok disk ∧ { m with disk := disk } = after := by
  unfold Disk.change
  cases f m.disk with
  | error e => exact ⟨nofun, nofun⟩
  | ok disk =>
    constructor
    · rintro ⟨⟩
      exact ⟨disk, rfl, rfl⟩
    · rintro ⟨-, ⟨⟩, rfl⟩
      rfl

theorem folder_removeFile (directory name : String) :
    (Disk.host.folder directory).removeFile name =
      Disk.change fun d => d.removeFile (join directory name) := by
  rw [Host.folder, Disk.host]

theorem folder_writeText (directory name text : String) :
    (Disk.host.folder directory).writeText name text =
      Disk.change fun d => d.writeText (join directory name) text := by
  rw [Host.folder, Disk.host]

/-- Files that are there can always be deleted. -/
theorem performOn_removeFiles_disk (directory : String) {names : List String}
    (hplain : ∀ name ∈ names, Path.isPlainName name = true) (m : Disk.Machine) :
    performOn (removeFiles (Disk.host.folder directory) names) m =
      (.ok (), { m with disk := m.disk.swept directory names }) := by
  induction names generalizing m with
  | nil => rfl
  | cons name names ih =>
    have hrest := ih fun other hother => hplain other (List.mem_cons_of_mem _ hother)
    have hthere : (Disk.host.folder directory).isFile name m =
        (m.disk.isFile (join directory name), m) := rfl
    rw [removeFiles, Disk.swept_cons, Disk.dropped, performOn_lift_bind hthere]
    by_cases hfile : m.disk.isFile (join directory name) = true
    · have hproper := Disk.properName_of_isFile (hplain name List.mem_cons_self) hfile
      obtain ⟨hreaches, hhas⟩ := (Disk.isFile_join_iff hproper).1 hfile
      have hremoved := (Disk.removeFile_join_iff hproper).2 ⟨hreaches, hhas, rfl⟩
      have hchanged : (Disk.host.folder directory).removeFile name m = (.ok (),
          { m with disk := m.disk.without (placeOf m.disk.here directory ++ [name]) }) := by
        rw [folder_removeFile, change_eq_ok_iff]
        exact ⟨_, hremoved, rfl⟩
      rw [if_pos hfile, if_pos hfile, performOn_bind_ok (performOn_attempt hchanged _)]
      exact hrest _
    · rw [if_neg hfile, if_neg hfile]
      exact hrest m

theorem performOn_writeText_disk_iff {name text : String} (hname : ProperName name)
    {failure : FileError → CommandFailure} :
    performOn (attempt ((Disk.host.folder directory).writeText name text) failure) m =
        (.ok (), after) ↔
      m.disk.Free directory name ∧
        { m with disk := m.disk.put (placeOf m.disk.here directory ++ [name]) (.file text) } =
          after := by
  rw [performOn_attempt_eq_ok_iff, folder_writeText, change_eq_ok_iff]
  simp only [Disk.writeText_join_iff hname]
  constructor
  · rintro ⟨disk, ⟨hfree, rfl⟩, hafter⟩
    exact ⟨hfree, hafter⟩
  · rintro ⟨hfree, hafter⟩
    exact ⟨_, ⟨hfree, rfl⟩, hafter⟩

theorem performOn_writeArtifacts_disk_iff {artifacts : List Artifact}
    (hnames : ∀ a ∈ artifacts, ProperName a.fileName) :
    performOn (writeArtifacts (Disk.host.folder directory) artifacts) m = (.ok (), after) ↔
      (∀ a ∈ artifacts, m.disk.Free directory a.fileName) ∧
        { m with disk := m.disk.filled directory artifacts } = after := by
  induction artifacts generalizing m with
  | nil =>
    constructor
    · rintro ⟨⟩
      exact ⟨nofun, rfl⟩
    · rintro ⟨-, rfl⟩
      rfl
  | cons a artifacts ih =>
    have hrest (m : Disk.Machine) :=
      ih (m := m) fun other hother => hnames other (List.mem_cons_of_mem _ hother)
    rw [writeArtifacts, performOn_bind_eq_ok_iff]
    simp only [performOn_writeText_disk_iff (hnames a List.mem_cons_self), hrest,
      List.forall_mem_cons]
    constructor
    · rintro ⟨-, middle, ⟨hfree, rfl⟩, hall, hafter⟩
      have htree := Disk.sameTree_put hfree.free a.source
      exact ⟨⟨hfree, fun other hother => htree.free_iff.1 (hall other hother)⟩, hafter⟩
    · rintro ⟨⟨hfree, hall⟩, hafter⟩
      have htree := Disk.sameTree_put hfree.free a.source
      exact ⟨(), _, ⟨hfree, rfl⟩, fun other hother => htree.free_iff.2 (hall other hother), hafter⟩

/-- Files that are there can be read, so comparing them never fails. -/
theorem performOn_compareArtifacts_disk (directory : String) (artifacts : List Artifact)
    (m : Disk.Machine) :
    ∃ found, performOn (compareArtifacts (Disk.host.folder directory) artifacts) m =
      (.ok found, m) := by
  induction artifacts with
  | nil => exact ⟨_, rfl⟩
  | cons a artifacts ih =>
    obtain ⟨⟨missing, changed⟩, hrest⟩ := ih
    have hthere : (Disk.host.folder directory).isFile a.fileName m =
        (m.disk.isFile (join directory a.fileName), m) := rfl
    rw [compareArtifacts, performOn_lift_bind hthere]
    by_cases hfile : m.disk.isFile (join directory a.fileName) = true
    · obtain ⟨text, htext⟩ := Disk.isFile_iff.1 hfile
      have hbytes : (Disk.host.folder directory).readBytes a.fileName m = (.ok text.toUTF8, m) := by
        change ((m.disk.readText (join directory a.fileName)).map String.toUTF8, m) = _
        rw [htext]
        rfl
      rw [if_pos hfile, performOn_bind_ok (performOn_attempt hbytes _), performOn_bind_ok hrest]
      simp only
      split
      · exact ⟨_, rfl⟩
      · exact ⟨_, rfl⟩
    · rw [if_neg hfile, performOn_bind_ok hrest]
      exact ⟨_, rfl⟩

theorem performOn_presentFiles_disk (directory : String) (names : List String)
    (m : Disk.Machine) :
    performOn (presentFiles (Disk.host.folder directory) names) m =
      (.ok (names.filter fun name => m.disk.isFile (join directory name)), m) := by
  induction names with
  | nil => rfl
  | cons name names ih =>
    have hthere : (Disk.host.folder directory).isFile name m =
        (m.disk.isFile (join directory name), m) := rfl
    rw [presentFiles, performOn_lift_bind hthere, performOn_bind_ok ih, List.filter_cons]
    rfl

/-! ### The lock file -/

/-- The directory has a lock file with a record of names of files in the directory itself. -/
def Locked (d : Disk) (directory : String) (lock : LockFile) : Prop :=
  ∃ text, d.readText (join directory LockFile.fileName) = .ok text ∧
    LockFile.ofText text = .ok lock ∧ lock.badName? = none

theorem performOn_readLock_disk_iff {lock : LockFile} :
    performOn (readLock (Disk.host.folder directory)) m = (.ok (some lock), m) ↔
      Locked m.disk directory lock := by
  have hpresent : (Disk.host.folder directory).isPresent LockFile.fileName m =
      (m.disk.isPresent (join directory LockFile.fileName), m) := rfl
  have hread : (Disk.host.folder directory).readText LockFile.fileName m =
      (m.disk.readText (join directory LockFile.fileName), m) := rfl
  unfold readLock Locked
  simp only
  rw [performOn_lift_bind hpresent]
  by_cases hthere : m.disk.isPresent (join directory LockFile.fileName) = true
  · rw [if_pos hthere, performOn_bind_eq_ok_iff]
    simp only [performOn_attempt_eq_ok_iff, hread]
    constructor
    · rintro ⟨text, middle, hsame, hrest⟩
      obtain ⟨htext, rfl⟩ := Prod.mk.inj hsame
      refine ⟨text, htext, ?_⟩
      cases hfound : LockFile.ofText text with
      | error fault =>
        rw [hfound] at hrest
        cases hrest
      | ok found =>
        rw [hfound] at hrest
        cases hbad : found.badName? with
        | some name =>
          simp only [hbad] at hrest
          cases hrest
        | none =>
          simp only [hbad] at hrest
          cases hrest
          exact ⟨rfl, hbad⟩
    · rintro ⟨text, htext, hfound, hbad⟩
      refine ⟨text, m, by rw [htext], ?_⟩
      simp only [hfound, hbad]
      rfl
  · rw [if_neg hthere]
    constructor
    · intro h
      cases h
    · rintro ⟨text, htext, -⟩
      obtain ⟨place, hlocate, -⟩ := Disk.readText_eq_ok_iff.1 htext
      refine absurd ?_ hthere
      rw [Disk.isPresent, hlocate]
      rfl

theorem properName_lock : ProperName LockFile.fileName :=
  ⟨by decide, by decide, by decide, by decide⟩

theorem Locked.reaches {d : Disk} {lock : LockFile} (h : Locked d directory lock) :
    d.Reaches directory LockFile.fileName := by
  obtain ⟨text, htext, -⟩ := h
  exact ((Disk.readText_join_iff properName_lock).1 htext).1

theorem Locked.free {d : Disk} {lock : LockFile} (h : Locked d directory lock) :
    d.Free directory LockFile.fileName := by
  obtain ⟨text, htext, -⟩ := h
  obtain ⟨hreaches, hnode⟩ := (Disk.readText_join_iff properName_lock).1 htext
  exact ⟨hreaches, Disk.HasFile.not_directory ⟨text, hnode⟩⟩

theorem Locked.isPlainName {d : Disk} {lock : LockFile} (h : Locked d directory lock)
    (artifacts : List Artifact) (o : Options) :
    ∀ name ∈ staleNames (some lock) artifacts o, Path.isPlainName name = true := by
  obtain ⟨text, -, -, hvalid⟩ := h
  intro name hname
  exact (LockFile.badName?_eq_none_iff lock).1 hvalid name (List.mem_of_mem_filter hname)

/-- The directory of a lock file is there, so that nothing has to be made. -/
theorem Locked.createDirectories {d : Disk} {lock : LockFile} (h : Locked d directory lock) :
    d.createDirectories directory = (.ok (), d) := by
  by_cases hempty : directory = ""
  · rw [hempty]
    unfold Disk.createDirectories Disk.createWithin
    rfl
  · have hhead := Disk.head_of_proper properName_lock
    exact Disk.createDirectories_of_opens (h.reaches.admissible.directory hhead hempty)
      h.reaches.opens

/-! ### Generating in memory -/

/-- What is generated is decided by the file of the graph alone, and the disk stays as it is. -/
theorem performOn_generateInMemory_disk (i : Invocation) (m : Disk.Machine) :
    ∃ remarks, performOn (generateInMemory Disk.host i) m =
      (generated i (m.disk.readText i.input), ⟨m.disk, remarks⟩) := by
  have hread : Disk.host.readText i.input m = (m.disk.readText i.input, m) := rfl
  have htold (words : String) (told : Disk.Machine) (h : told.disk = m.disk) :
      (Disk.host.remark words told).2.disk = m.disk := h
  obtain ⟨⟨disk, remarks⟩, hrun, rfl⟩ := performOn_generateInMemory_keeps htold hread rfl
  exact ⟨remarks, hrun⟩

/-! ### Whole commands -/

/-- The disk after files of a directory have been deleted, and artifacts written with a record. -/
def renewedDisk (d : Disk) (directory : String) (removed : List String)
    (artifacts : List Artifact) (o : Options) : Disk :=
  let written := (d.swept directory removed).filled directory artifacts
  written.put (placeOf written.here directory ++ [LockFile.fileName])
    (.file (LockFile.ofArtifacts artifacts o).text)

section

variable {lock : LockFile} (hlock : Locked m.disk directory lock)
include hlock

theorem performOn_compareOutput_disk (artifacts : List Artifact) (o : Options) :
    ∃ drift, performOn (compareOutput (Disk.host.folder directory) o artifacts) m =
        (.ok drift, m) ∧
      drift.stale = (staleNames (some lock) artifacts o).filter
        fun name => m.disk.isFile (join directory name) := by
  obtain ⟨found, hfound⟩ := performOn_compareArtifacts_disk directory artifacts m
  have hstale := performOn_presentFiles_disk directory
    (lock.staleFiles (LockFile.ofArtifacts artifacts o)) m
  rw [compareOutput, performOn_bind_ok hfound]
  simp only
  rw [performOn_bind_ok (performOn_readLock_disk_iff.2 hlock)]
  simp only
  rw [performOn_bind_ok hstale]
  exact ⟨_, rfl, rfl⟩

theorem performOn_removeStale_disk (artifacts : List Artifact) (o : Options) :
    performOn (removeStale (Disk.host.folder directory) (LockFile.ofArtifacts artifacts o)) m =
      (.ok (staleNames (some lock) artifacts o),
        ⟨m.disk.swept directory (staleNames (some lock) artifacts o), m.remarks⟩) := by
  have hremoved := performOn_removeFiles_disk directory (hlock.isPlainName artifacts o) m
  rw [removeStale, performOn_bind_ok (performOn_readLock_disk_iff.2 hlock)]
  simp only
  rw [staleNames] at hremoved
  rw [performOn_bind_ok hremoved]
  rfl

theorem performOn_writeOutput_disk_iff {artifacts : List Artifact}
    (hnames : ∀ a ∈ artifacts, ProperName a.fileName) (o : Options) {summary : Summary} :
    performOn (writeOutput (Disk.host.folder directory) o artifacts) m = (.ok summary, after) ↔
      (∀ a ∈ artifacts, m.disk.Free directory a.fileName) ∧
        ⟨artifacts.length, staleNames (some lock) artifacts o⟩ = summary ∧
        ⟨renewedDisk m.disk directory (staleNames (some lock) artifacts o) artifacts o,
          m.remarks⟩ = after := by
  have hswept := (Disk.sweeps_swept directory (hlock.isPlainName artifacts o) m.disk).tree
  -- the sweep takes no directory away, so it does not matter on which disk the places are asked for
  have hfree : (∀ a ∈ artifacts, (m.disk.swept directory
      (staleNames (some lock) artifacts o)).Free directory a.fileName) ↔
        ∀ a ∈ artifacts, m.disk.Free directory a.fileName :=
    forall₂_congr fun a _ => hswept.free_iff
  rw [writeOutput, performOn_bind_ok (performOn_removeStale_disk hlock artifacts o)]
  simp only [performOn_bind_eq_ok_iff, performOn_writeArtifacts_disk_iff hnames,
    performOn_writeText_disk_iff properName_lock, hfree]
  constructor
  · rintro ⟨-, middle, ⟨hall, rfl⟩, -, recorded, ⟨-, rfl⟩, ⟨⟩⟩
    exact ⟨hall, rfl, rfl⟩
  · rintro ⟨hall, rfl, rfl⟩
    have hfilled := Disk.fills_filled (hfree.2 hall)
    have hlockFree := (hswept.trans hfilled.tree).free_iff.2 hlock.free
    exact ⟨(), _, ⟨hall, rfl⟩, (), _, ⟨hlockFree, rfl⟩, rfl⟩

variable {i : Invocation} (hdirectory : i.output = some directory)
include hdirectory

omit hlock in
theorem performOn_compare_disk : ∃ remarks, performOn (compare Disk.host i) m =
    match generated i (m.disk.readText i.input) with
    | .error failure => (.error failure, ⟨m.disk, remarks⟩)
    | .ok result => performOn (compareOutput (Disk.host.folder directory) i.options
        result.artifacts) ⟨m.disk, remarks⟩ := by
  obtain ⟨remarks, hmemory⟩ := performOn_generateInMemory_disk i m
  refine ⟨remarks, ?_⟩
  rw [compare, performOn_bind_ok (performOn_outputDirectory hdirectory m)]
  cases hresult : generated i (m.disk.readText i.input) with
  | error failure =>
    rw [hresult] at hmemory
    rw [performOn_bind_error hmemory]
  | ok result =>
    rw [hresult] at hmemory
    rw [performOn_bind_ok hmemory]

theorem performOn_generate_disk : ∃ remarks, performOn (generate Disk.host i) m =
    match generated i (m.disk.readText i.input) with
    | .error failure => (.error failure, ⟨m.disk, remarks⟩)
    | .ok result => performOn (writeOutput (Disk.host.folder directory) i.options
        result.artifacts) ⟨m.disk, remarks⟩ := by
  obtain ⟨remarks, hmemory⟩ := performOn_generateInMemory_disk i m
  refine ⟨remarks, ?_⟩
  have hmade : Disk.host.createDirectories directory ⟨m.disk, remarks⟩ =
      (.ok (), ⟨m.disk, remarks⟩) := by
    change ((m.disk.createDirectories directory).1,
      (⟨(m.disk.createDirectories directory).2, remarks⟩ : Disk.Machine)) = _
    rw [hlock.createDirectories]
  rw [generate, performOn_bind_ok (performOn_outputDirectory hdirectory m)]
  cases hresult : generated i (m.disk.readText i.input) with
  | error failure =>
    rw [hresult] at hmemory
    rw [performOn_bind_error hmemory]
  | ok result =>
    rw [hresult] at hmemory
    rw [performOn_bind_ok hmemory]
    simp only
    rw [performOn_bind_ok (performOn_attempt hmade _)]

end

theorem properName_artifact {g : Graph} {o : Options} {result : Generation}
    (hrun : Generation.run g o false = .ok result) :
    ∀ a ∈ result.artifacts, ProperName a.fileName := fun a ha =>
  .of_isPlainName ((Generation.sideBySide_artifacts hrun).plain a ha)
    (Generation.not_mem_artifacts hrun ha (by decide) (by decide) (by decide))

/-- A run on a directory with a lock file succeeds exactly if there is something to write and a
place for each file. -/
theorem generate_disk_iff {lock : LockFile} (hlock : Locked m.disk directory lock)
    {i : Invocation} (hdirectory : i.output = some directory) {summary : Summary} {e : Disk} :
    (∃ after, performOn (generate Disk.host i) m = (.ok summary, after) ∧ after.disk = e) ↔
      ∃ result, generated i (m.disk.readText i.input) = .ok result ∧
        (∀ a ∈ result.artifacts, m.disk.Free directory a.fileName) ∧
        ⟨result.artifacts.length, staleNames (some lock) result.artifacts i.options⟩ = summary ∧
        renewedDisk m.disk directory (staleNames (some lock) result.artifacts i.options)
          result.artifacts i.options = e := by
  obtain ⟨remarks, hgenerate⟩ := performOn_generate_disk hlock hdirectory
  rw [hgenerate]
  cases hresult : generated i (m.disk.readText i.input) with
  | error failure => exact ⟨nofun, nofun⟩
  | ok result =>
    obtain ⟨g, -, hrun, -⟩ := (generated_eq_ok_iff i _ result).1 hresult
    have hlocked : Locked (Disk.Machine.mk m.disk remarks).disk directory lock := hlock
    simp only [performOn_writeOutput_disk_iff hlocked (properName_artifact hrun)]
    constructor
    · rintro ⟨after, ⟨hfree, hsummary, rfl⟩, rfl⟩
      exact ⟨result, rfl, hfree, hsummary, rfl⟩
    · rintro ⟨found, hfound, hfree, hsummary, rfl⟩
      cases hfound
      exact ⟨_, ⟨hfree, hsummary, rfl⟩, rfl⟩

end

end Command

end ContentLoom

import ContentLoom.Command.Actions
import ContentLoom.Proofs.LockText

/-!
# Actions on a folder

What the commands do on any folder whose files are a dictionary, whether a file
holds a text or any bytes.  Each action is run once and for all, so that a whole
command is run by putting the runs of its parts together.
-/

namespace ContentLoom.Command

open Files

variable {σ α β : Type}

/-! ### Runs -/

/-- The outcome of an action on a state, and the state afterwards. -/
def performOn (act : Action (StateM σ) α) (state : σ) : Except CommandFailure α × σ :=
  act.run state

theorem performOn_bind (act : Action (StateM σ) α) (next : α → Action (StateM σ) β) (state : σ) :
    performOn (act >>= next) state =
      match performOn act state with
      | (.ok a, after) => performOn (next a) after
      | (.error failure, after) => (.error failure, after) := by
  change (ExceptT.bindCont next (act.run state).1) (act.run state).2 = _
  unfold performOn
  rcases act.run state with ⟨_ | a, after⟩ <;> rfl

theorem performOn_bind_ok {act : Action (StateM σ) α} {state after : σ} {a : α}
    (h : performOn act state = (.ok a, after)) (next : α → Action (StateM σ) β) :
    performOn (act >>= next) state = performOn (next a) after := by
  rw [performOn_bind, h]

theorem performOn_bind_error {act : Action (StateM σ) α} {state after : σ}
    {failure : CommandFailure} (h : performOn act state = (.error failure, after))
    (next : α → Action (StateM σ) β) :
    performOn (act >>= next) state = (.error failure, after) := by
  rw [performOn_bind, h]

theorem performOn_lift_bind {op : StateM σ α} {state after : σ} {a : α}
    (h : op state = (a, after)) (next : α → Action (StateM σ) β) :
    performOn ((liftM op : Action (StateM σ) α) >>= next) state = performOn (next a) after := by
  have hlift : performOn (liftM op : Action (StateM σ) α) state =
      (.ok (op state).1, (op state).2) := rfl
  rw [h] at hlift
  exact performOn_bind_ok hlift next

theorem performOn_mk_pure (result : Except CommandFailure α) (state : σ) :
    performOn (ExceptT.mk (pure result)) state = (result, state) := rfl

theorem performOn_attempt {op : StateM σ (Except FileError α)} {state after : σ}
    {result : Except FileError α} (h : op state = (result, after))
    (failure : FileError → CommandFailure) :
    performOn (attempt op failure) state = (result.mapError failure, after) := by
  unfold attempt
  rw [performOn_lift_bind h]
  cases result <;> rfl

/-! ### Generating in memory -/

/-- The graph in a text, in the format that the extension of its path tells. -/
def graphAt (path : String) (text : Except FileError String) : Except CommandFailure Graph :=
  match text with
  | .error e => .error (.graphUnreadable path e)
  | .ok text =>
    match (Path.ofText path).extension?.bind Graph.Format.ofExtension? with
    | none => .error (.graphUnsupported path)
    | some format => (Graph.ofFormat format text).mapError (.graphMalformed path format)

/-- What generating in memory gives, without the remarks. -/
def generated (i : Invocation) (text : Except FileError String) :
    Except CommandFailure Generation :=
  match graphAt i.input text with
  | .error failure => .error failure
  | .ok g =>
    match Generation.run g i.options false with
    | .error failure => .error (.generation i.input failure)
    | .ok result =>
      let errors := (result.reports.filter Diagnostic.isError).length
      if 0 < errors then .error (.reported errors) else .ok result

section

variable (i : Invocation)

theorem hasErrors_iff (result : Generation) :
    result.hasErrors = true ↔ 0 < (result.reports.filter Diagnostic.isError).length := by
  rw [Generation.hasErrors, Diagnostic.anyError, List.length_pos_iff, ne_eq,
    List.filter_eq_nil_iff, List.any_eq_true]
  simp

theorem generated_eq_ok_iff (text : Except FileError String) (result : Generation) :
    generated i text = .ok result ↔
      ∃ g, graphAt i.input text = .ok g ∧ Generation.run g i.options false = .ok result ∧
        result.hasErrors = false := by
  unfold generated
  cases graphAt i.input text with
  | error failure => simp
  | ok g =>
    simp only [Except.ok.injEq, exists_eq_left']
    cases Generation.run g i.options false with
    | error failure => simp
    | ok found =>
      simp only [Except.ok.injEq]
      by_cases herrors : found.hasErrors = true
      · rw [if_pos ((hasErrors_iff found).1 herrors)]
        constructor
        · intro h
          cases h
        · rintro ⟨rfl, hclean⟩
          rw [herrors] at hclean
          cases hclean
      · rw [if_neg fun h => herrors ((hasErrors_iff found).2 h), Except.ok.injEq]
        constructor
        · rintro rfl
          exact ⟨rfl, by simpa using herrors⟩
        · exact fun h => h.1

theorem sideBySide_of_generated {text : Except FileError String} {result : Generation}
    (h : generated i text = .ok result) : Generation.SideBySide result.artifacts := by
  obtain ⟨g, -, hrun, -⟩ := (generated_eq_ok_iff i text result).1 h
  exact Generation.sideBySide_artifacts hrun

end

section

variable {h : Host (StateM σ)} {i : Invocation} {state : σ} {text : Except FileError String}

theorem performOn_loadGraph (hread : h.readText i.input state = (text, state)) :
    performOn (i.loadGraph h) state = (graphAt i.input text, state) := by
  have hload := performOn_attempt hread (.graphUnreadable i.input)
  unfold Invocation.loadGraph graphAt
  cases text with
  | error e => rw [performOn_bind_error hload]
  | ok text =>
    rw [performOn_bind_ok hload]
    simp only
    cases (Path.ofText i.input).extension?.bind Graph.Format.ofExtension? with
    | none => rfl
    | some format =>
      simp only
      cases Graph.ofFormat format text <;> rfl

section

variable {P : σ → Prop} (htold : ∀ words s, P s → P (h.remark words s).2)
include htold

theorem remarkAll_keeps (reports : List Diagnostic) {s : σ} (hs : P s) :
    ∃ told, remarkAll h reports s = ((), told) ∧ P told := by
  induction reports generalizing s with
  | nil => exact ⟨s, rfl, hs⟩
  | cons d reports ih => exact ih (htold _ _ hs)

theorem performOn_settle (reports : List Diagnostic) (hstate : P state) :
    ∃ told, performOn (settle h reports) state =
      (if 0 < (reports.filter Diagnostic.isError).length then
        .error (.reported (reports.filter Diagnostic.isError).length) else .ok (), told) ∧
      P told := by
  obtain ⟨told, hremarks, hkept⟩ := remarkAll_keeps htold reports hstate
  refine ⟨told, ?_, hkept⟩
  unfold settle
  refine (performOn_lift_bind hremarks _).trans ?_
  simp only
  split <;> rfl

/-- Generating in memory reads the graph, and else only makes remarks. -/
theorem performOn_generateInMemory_keeps (hread : h.readText i.input state = (text, state))
    (hstate : P state) :
    ∃ told, performOn (generateInMemory h i) state = (generated i text, told) ∧ P told := by
  have hload := performOn_loadGraph hread
  unfold generateInMemory generated
  cases hgraph : graphAt i.input text with
  | error failure =>
    rw [hgraph] at hload
    exact ⟨state, performOn_bind_error hload _, hstate⟩
  | ok g =>
    rw [hgraph] at hload
    rw [performOn_bind_ok hload]
    simp only
    cases Generation.run g i.options false with
    | error failure => exact ⟨state, rfl, hstate⟩
    | ok result =>
      obtain ⟨told, hsettle, hkept⟩ := performOn_settle htold result.reports hstate
      refine ⟨told, ?_, hkept⟩
      simp only
      split
      · rename_i herrors
        rw [if_pos herrors] at hsettle
        rw [performOn_bind_error hsettle]
      · rename_i herrors
        rw [if_neg herrors] at hsettle
        rw [performOn_bind_ok hsettle]
        rfl

end

theorem performOn_generateInMemory (hsilent : ∀ words, h.remark words state = ((), state))
    (hread : h.readText i.input state = (text, state)) :
    performOn (generateInMemory h i) state = (generated i text, state) := by
  have htold (words : String) (s : σ) (hs : s = state) : (h.remark words s).2 = state := by
    rw [hs, hsilent]
  obtain ⟨told, hrun, rfl⟩ := performOn_generateInMemory_keeps htold hread rfl
  exact hrun

end

theorem performOn_outputDirectory {i : Invocation} {directory : String}
    (hdirectory : i.output = some directory) (state : σ) :
    performOn (ExceptT.mk (pure i.outputDirectory)) state = (.ok directory, state) := by
  rw [performOn_mk_pure, Invocation.outputDirectory, hdirectory]

/-! ### Folders of files -/

/-- How a file holds a text, and which bytes it has. -/
structure Medium (γ : Type) where
  encode : String → γ
  decode : γ → Except FileError String
  bytes : γ → ByteArray

namespace Medium

variable {γ : Type}

/-- What a file holds. -/
def contentIn (files : Dictionary γ) (name : String) : Except FileError γ :=
  match files.get? name with
  | some content => .ok content
  | none => .error .notFound

theorem isOk_contentIn (files : Dictionary γ) (name : String) :
    (contentIn files name).isOk = files.contains name := by
  unfold contentIn Dictionary.contains
  cases files.get? name <;> rfl

/-- The files of the folder are the dictionary. -/
structure Keeps (μ : Medium γ) (f : Folder (StateM (Dictionary γ))) : Prop where
  readText : ∀ {name}, Path.isPlainName name = true → ∀ files,
    f.readText name files = (contentIn files name >>= μ.decode, files)
  readBytes : ∀ {name}, Path.isPlainName name = true → ∀ files,
    f.readBytes name files = ((contentIn files name).map μ.bytes, files)
  isFile : ∀ {name}, Path.isPlainName name = true → ∀ files,
    f.isFile name files = (files.contains name, files)
  isPresent : ∀ {name}, Path.isPlainName name = true → ∀ files,
    f.isPresent name files = (files.contains name, files)
  writeText : ∀ {name}, Path.isPlainName name = true → ∀ files text,
    f.writeText name text files = (.ok (), files.insert name (μ.encode text))
  removeFile : ∀ {name}, Path.isPlainName name = true → ∀ files, files.contains name = true →
    f.removeFile name files = (.ok (), files.erase name)

/-- The record in the lock file of the files, if there is one, or what is wrong with it. -/
def lockIn (μ : Medium γ) (path : String) (files : Dictionary γ) :
    Except CommandFailure (Option LockFile) :=
  match files.get? LockFile.fileName with
  | none => .ok none
  | some content =>
    match μ.decode content with
    | .error e => .error (.lockUnreadable path e)
    | .ok text =>
      match LockFile.ofText text with
      | .error fault => .error (.lockMalformed path fault)
      | .ok lock =>
        match lock.badName? with
        | some name => .error (.lockInvalid path name)
        | none => .ok (some lock)

/-- The files after those of one record have been removed and the artifacts written with their
record. -/
def renewed (μ : Medium γ) (files : Dictionary γ) (removed : List String)
    (artifacts : List Artifact) (o : Options) : Dictionary γ :=
  let written := artifacts.foldl (fun files a => files.insert a.fileName (μ.encode a.source))
    (removed.foldl Dictionary.erase files)
  written.insert LockFile.fileName (μ.encode (LockFile.ofArtifacts artifacts o).text)

/-- The artifacts that are not there. -/
def missingNames (files : Dictionary γ) (artifacts : List Artifact) : List String :=
  (artifacts.filter fun a => !files.contains a.fileName).map (·.fileName)

/-- The artifacts whose files have another checksum. -/
def changedNames (μ : Medium γ) (files : Dictionary γ) (artifacts : List Artifact) : List String :=
  (artifacts.filter fun a => (files.get? a.fileName).any fun content =>
    !Checksum.verify (μ.bytes content) (Digest.Sha256.hexOfText a.source)).map (·.fileName)

end Medium

/-- The names that a record has and the record of the artifacts has not. -/
def staleNames (previous : Option LockFile) (artifacts : List Artifact) (o : Options) :
    List String :=
  match previous with
  | none => []
  | some lock => lock.staleFiles (LockFile.ofArtifacts artifacts o)

theorem isPlainName_lock : Path.isPlainName LockFile.fileName = true := by decide

section

variable {γ : Type} {μ : Medium γ}

theorem isPlainName_of_lockIn {path : String} {files : Dictionary γ} {lock : LockFile}
    (h : μ.lockIn path files = .ok (some lock)) {name : String} (hname : name ∈ lock.files.names) :
    Path.isPlainName name = true := by
  unfold Medium.lockIn at h
  split at h
  · cases h
  · split at h
    · cases h
    · split at h
      · cases h
      · split at h
        · cases h
        · rename_i hbad
          cases h
          have hgood := List.find?_eq_none.1 hbad name hname
          simpa using hgood

theorem lockIn_of_content {files : Dictionary γ} {content : γ} {text : String} {lock : LockFile}
    (hcontent : files.get? LockFile.fileName = some content) (htext : μ.decode content = .ok text)
    (hlock : LockFile.ofText text = .ok lock)
    (hplain : ∀ name ∈ lock.files.names, Path.isPlainName name = true) (path : String) :
    μ.lockIn path files = .ok (some lock) := by
  have hbad : lock.badName? = none := by
    rw [LockFile.badName?, List.find?_eq_none]
    intro name hname
    simp [hplain name hname]
  unfold Medium.lockIn
  simp only [hcontent, htext, hlock, hbad]

theorem erase_of_not_contains {files : Dictionary γ} {name : String}
    (h : ¬files.contains name = true) : files.erase name = files := by
  apply Dictionary.ext_get?
  intro other
  rw [Dictionary.get?_erase]
  split
  · rename_i hother
    rw [hother]
    exact (Option.not_isSome_iff_eq_none.1 h).symm
  · rfl

theorem get?_foldl_erase (names : List String) (files : Dictionary γ) (name : String) :
    (names.foldl Dictionary.erase files).get? name =
      if name ∈ names then none else files.get? name := by
  induction names generalizing files with
  | nil => rfl
  | cons first names ih =>
    rw [List.foldl_cons, ih, Dictionary.get?_erase]
    by_cases hfirst : name = first
    · simp [hfirst]
    · simp [hfirst]

theorem Medium.get?_renewed {artifacts : List Artifact} (hfiles : Generation.SideBySide artifacts)
    (files : Dictionary γ) (removed : List String) (o : Options) (name : String) :
    (μ.renewed files removed artifacts o).get? name =
      if name = LockFile.fileName then some (μ.encode (LockFile.ofArtifacts artifacts o).text)
      else (Entries.get? (artifacts.map fun a => (a.fileName, μ.encode a.source)) name).or
        (if name ∈ removed then none else files.get? name) := by
  have hnodup : (Entries.names (artifacts.map fun a => (a.fileName, μ.encode a.source))).Nodup := by
    rw [Entries.names, List.map_map]
    exact hfiles.nodup
  have hfold : artifacts.foldl (fun files a => files.insert a.fileName (μ.encode a.source))
      (removed.foldl Dictionary.erase files) =
        (artifacts.map fun a => (a.fileName, μ.encode a.source)).foldl
          (fun d e => d.insert e.1 e.2) (removed.foldl Dictionary.erase files) := by
    rw [List.foldl_map]
  unfold Medium.renewed
  simp only
  rw [Dictionary.get?_insert, hfold, Dictionary.get?_foldl_insert _ hnodup, get?_foldl_erase]

theorem mem_staleNames (previous : Option LockFile) (artifacts : List Artifact) (o : Options)
    (name : String) :
    name ∈ staleNames previous artifacts o ↔
      (∃ lock ∈ previous, name ∈ lock.files.names) ∧ name ∉ artifacts.map (·.fileName) := by
  cases previous with
  | none => simp [staleNames]
  | some lock =>
    have hnew : (LockFile.ofArtifacts artifacts o).files.contains name = true ↔
        name ∈ artifacts.map (·.fileName) := by
      rw [Dictionary.contains_iff, LockFile.mem_names_ofArtifacts]
    simp only [staleNames, LockFile.staleFiles, List.mem_filter, Bool.not_eq_true',
      Option.mem_some, exists_eq_left', ← hnew, Bool.not_eq_true]

/-- No artifact is missing where all are as they were written, and none differs. -/
theorem differing_of_written (hbytes : ∀ text, μ.bytes (μ.encode text) = text.toUTF8)
    {files : Dictionary γ} {artifacts : List Artifact}
    (h : ∀ a ∈ artifacts, files.get? a.fileName = some (μ.encode a.source)) :
    Medium.missingNames files artifacts = [] ∧ μ.changedNames files artifacts = [] := by
  have hmissing : (artifacts.filter fun a => !files.contains a.fileName) = [] := by
    rw [List.filter_eq_nil_iff]
    intro a ha
    rw [Dictionary.contains, h a ha]
    simp
  have hchanged : (artifacts.filter fun a => (files.get? a.fileName).any fun content =>
      !Checksum.verify (μ.bytes content) (Digest.Sha256.hexOfText a.source)) = [] := by
    rw [List.filter_eq_nil_iff]
    intro a ha
    rw [h a ha, Option.any_some, hbytes, Checksum.verify_hexOfText]
    simp
  exact ⟨congrArg (List.map _) hmissing, congrArg (List.map _) hchanged⟩

variable {f : Folder (StateM (Dictionary γ))} (hkeeps : μ.Keeps f)
include hkeeps

/-! ### Writing -/

theorem performOn_removeFiles {names : List String}
    (hplain : ∀ name ∈ names, Path.isPlainName name = true) (files : Dictionary γ) :
    performOn (removeFiles f names) files = (.ok (), names.foldl Dictionary.erase files) := by
  induction names generalizing files with
  | nil => rfl
  | cons name names ih =>
    have hname := hplain name (List.mem_cons_self ..)
    have hrest := ih fun other hother => hplain other (List.mem_cons_of_mem _ hother)
    rw [removeFiles, List.foldl_cons, performOn_lift_bind (hkeeps.isFile hname files)]
    by_cases hfile : files.contains name = true
    · have hremoved := performOn_attempt (hkeeps.removeFile hname files hfile)
        (.removal (f.pathOf name))
      rw [if_pos hfile, performOn_bind_ok hremoved, hrest]
    · rw [if_neg hfile, erase_of_not_contains hfile]
      exact hrest files

theorem performOn_writeArtifacts {artifacts : List Artifact}
    (hplain : ∀ a ∈ artifacts, Path.isPlainName a.fileName = true) (files : Dictionary γ) :
    performOn (writeArtifacts f artifacts) files =
      (.ok (), artifacts.foldl (fun files a => files.insert a.fileName (μ.encode a.source))
        files) := by
  induction artifacts generalizing files with
  | nil => rfl
  | cons a artifacts ih =>
    have hname := hplain a (List.mem_cons_self ..)
    have hrest := ih fun other hother => hplain other (List.mem_cons_of_mem _ hother)
    have hwritten := performOn_attempt (hkeeps.writeText hname files a.source)
      (.writing (f.pathOf a.fileName))
    rw [writeArtifacts, List.foldl_cons, performOn_bind_ok hwritten, hrest]

/-! ### The lock file -/

theorem performOn_readLock (files : Dictionary γ) :
    performOn (readLock f) files = (μ.lockIn (f.pathOf LockFile.fileName) files, files) := by
  have hread := performOn_attempt (hkeeps.readText isPlainName_lock files)
    (.lockUnreadable (f.pathOf LockFile.fileName))
  unfold readLock Medium.lockIn
  simp only
  rw [performOn_lift_bind (hkeeps.isPresent isPlainName_lock files)]
  unfold Dictionary.contains Medium.contentIn at *
  cases hget : files.get? LockFile.fileName with
  | none => rfl
  | some content =>
    rw [hget] at hread
    have hdecode : (Except.ok content >>= μ.decode) = μ.decode content := rfl
    simp only [hdecode] at hread
    rw [Option.isSome_some, if_pos rfl]
    simp only
    cases hcontent : μ.decode content with
    | error e =>
      rw [hcontent] at hread
      rw [performOn_bind_error hread]
    | ok text =>
      rw [hcontent] at hread
      rw [performOn_bind_ok hread]
      simp only
      cases LockFile.ofText text with
      | error fault => rfl
      | ok lock =>
        simp only
        cases lock.badName? <;> rfl

/-! ### Whole folders -/

theorem performOn_removeStale {files : Dictionary γ} {previous : Option LockFile}
    (hlock : μ.lockIn (f.pathOf LockFile.fileName) files = .ok previous)
    (artifacts : List Artifact) (o : Options) :
    performOn (removeStale f (LockFile.ofArtifacts artifacts o)) files =
      (.ok (staleNames previous artifacts o),
        (staleNames previous artifacts o).foldl Dictionary.erase files) := by
  have hread := performOn_readLock hkeeps files
  rw [hlock] at hread
  rw [removeStale, performOn_bind_ok hread]
  cases previous with
  | none => rfl
  | some lock =>
    have hplain : ∀ name ∈ lock.staleFiles (LockFile.ofArtifacts artifacts o),
        Path.isPlainName name = true :=
      fun name hname => isPlainName_of_lockIn hlock (List.mem_of_mem_filter hname)
    simp only
    rw [performOn_bind_ok (performOn_removeFiles hkeeps hplain files)]
    rfl

theorem performOn_writeOutput {files : Dictionary γ} {previous : Option LockFile}
    (hlock : μ.lockIn (f.pathOf LockFile.fileName) files = .ok previous)
    {artifacts : List Artifact} (hfiles : Generation.SideBySide artifacts) (o : Options) :
    performOn (writeOutput f o artifacts) files =
      (.ok ⟨artifacts.length, staleNames previous artifacts o⟩,
        μ.renewed files (staleNames previous artifacts o) artifacts o) := by
  have hremoved := performOn_removeStale hkeeps hlock artifacts o
  have hwritten := performOn_writeArtifacts hkeeps hfiles.plain
    ((staleNames previous artifacts o).foldl Dictionary.erase files)
  have hrecorded := hkeeps.writeText isPlainName_lock
    (artifacts.foldl (fun files a => files.insert a.fileName (μ.encode a.source))
      ((staleNames previous artifacts o).foldl Dictionary.erase files))
    (LockFile.ofArtifacts artifacts o).text
  rw [writeOutput, performOn_bind_ok hremoved, performOn_bind_ok hwritten,
    performOn_bind_ok (performOn_attempt hrecorded _)]
  rfl

theorem performOn_writeOutput_error {files : Dictionary γ} {failure : CommandFailure}
    (hlock : μ.lockIn (f.pathOf LockFile.fileName) files = .error failure)
    (artifacts : List Artifact) (o : Options) :
    performOn (writeOutput f o artifacts) files = (.error failure, files) := by
  have hread := performOn_readLock hkeeps files
  rw [hlock] at hread
  have hstale : performOn (removeStale f (LockFile.ofArtifacts artifacts o)) files =
      (.error failure, files) := by
    rw [removeStale, performOn_bind_error hread]
  rw [writeOutput, performOn_bind_error hstale]

/-! ### Comparing -/

/-- Files that are there can be read, so comparing them never fails. -/
theorem performOn_compareArtifacts {artifacts : List Artifact}
    (hplain : ∀ a ∈ artifacts, Path.isPlainName a.fileName = true) (files : Dictionary γ) :
    performOn (compareArtifacts f artifacts) files =
      (.ok (Medium.missingNames files artifacts, μ.changedNames files artifacts), files) := by
  induction artifacts with
  | nil => rfl
  | cons a artifacts ih =>
    have hname := hplain a (List.mem_cons_self ..)
    have hrest := ih fun other hother => hplain other (List.mem_cons_of_mem _ hother)
    have hbytes := performOn_attempt (hkeeps.readBytes hname files)
      (.reading (f.pathOf a.fileName))
    rw [compareArtifacts, performOn_lift_bind (hkeeps.isFile hname files)]
    -- an artifact is missing, or it is read and then either differs or not
    unfold Medium.missingNames Medium.changedNames at *
    unfold Dictionary.contains Medium.contentIn at *
    cases hget : files.get? a.fileName with
    | none =>
      simp only [Option.isSome_none, Bool.false_eq_true, if_false]
      rw [performOn_bind_ok hrest, List.filter_cons_of_pos (by simp [hget]),
        List.filter_cons_of_neg (by simp [hget])]
      rfl
    | some content =>
      rw [hget] at hbytes
      simp only [Option.isSome_some, if_true]
      rw [performOn_bind_ok hbytes, performOn_bind_ok hrest,
        List.filter_cons_of_neg (by simp [hget])]
      simp only
      split
      · rename_i hsame
        rw [List.filter_cons_of_neg (by simp [hget, hsame])]
        rfl
      · rename_i hother
        rw [List.filter_cons_of_pos (by simp [hget, hother])]
        rfl

theorem performOn_presentFiles {names : List String}
    (hplain : ∀ name ∈ names, Path.isPlainName name = true) (files : Dictionary γ) :
    performOn (presentFiles f names) files = (.ok (names.filter files.contains), files) := by
  induction names with
  | nil => rfl
  | cons name names ih =>
    have hname := hplain name (List.mem_cons_self ..)
    have hrest := ih fun other hother => hplain other (List.mem_cons_of_mem _ hother)
    rw [presentFiles, performOn_lift_bind (hkeeps.isFile hname files), performOn_bind_ok hrest,
      List.filter_cons]
    rfl

theorem performOn_compareOutput {files : Dictionary γ} {previous : Option LockFile}
    (hlock : μ.lockIn (f.pathOf LockFile.fileName) files = .ok previous)
    {artifacts : List Artifact} (hplain : ∀ a ∈ artifacts, Path.isPlainName a.fileName = true)
    (o : Options) :
    performOn (compareOutput f o artifacts) files =
      (.ok ⟨Medium.missingNames files artifacts, μ.changedNames files artifacts,
        (staleNames previous artifacts o).filter files.contains, artifacts.length⟩, files) := by
  have hread := performOn_readLock hkeeps files
  rw [hlock] at hread
  rw [compareOutput, performOn_bind_ok (performOn_compareArtifacts hkeeps hplain files)]
  simp only
  rw [performOn_bind_ok hread]
  cases previous with
  | none => rfl
  | some lock =>
    have hstale : ∀ name ∈ lock.staleFiles (LockFile.ofArtifacts artifacts o),
        Path.isPlainName name = true :=
      fun name hname => isPlainName_of_lockIn hlock (List.mem_of_mem_filter hname)
    simp only
    rw [performOn_bind_ok (performOn_presentFiles hkeeps hstale files)]
    rfl

omit hkeeps

/-! ### Whole commands -/

variable {h : Host (StateM (Dictionary γ))} {i : Invocation} {directory : String}
  (hdirectory : i.output = some directory) {files : Dictionary γ}
  (hsilent : ∀ words, h.remark words files = ((), files)) {text : Except FileError String}
  (hread : h.readText i.input files = (text, files))
include hdirectory hsilent hread

theorem performOn_compare {result : Generation} (hgenerated : generated i text = .ok result) :
    performOn (compare h i) files =
      performOn (compareOutput (h.folder directory) i.options result.artifacts) files := by
  have hmemory := performOn_generateInMemory hsilent hread
  rw [hgenerated] at hmemory
  rw [compare, performOn_bind_ok (performOn_outputDirectory hdirectory files),
    performOn_bind_ok hmemory]

/-- A whole run: nothing is changed before all that can refuse it has been asked. -/
theorem performOn_generate (hkeeps : μ.Keeps (h.folder directory))
    {made : Except FileError Unit} : h.createDirectories directory files = (made, files) →
    performOn (generate h i) files =
      match generated i text with
      | .error failure => (.error failure, files)
      | .ok result =>
        match made with
        | .error e => (.error (.outputDirectory directory e), files)
        | .ok () =>
          match μ.lockIn (join directory LockFile.fileName) files with
          | .error failure => (.error failure, files)
          | .ok previous =>
            (.ok ⟨result.artifacts.length, staleNames previous result.artifacts i.options⟩,
              μ.renewed files (staleNames previous result.artifacts i.options) result.artifacts
                i.options) := by
  intro hmade
  have hmemory := performOn_generateInMemory hsilent hread
  have hcreated := performOn_attempt hmade (.outputDirectory directory)
  unfold generate
  rw [performOn_bind_ok (performOn_outputDirectory hdirectory files)]
  cases hresult : generated i text with
  | error failure =>
    rw [hresult] at hmemory
    rw [performOn_bind_error hmemory]
  | ok result =>
    rw [hresult] at hmemory
    rw [performOn_bind_ok hmemory]
    simp only
    cases made with
    | error e => rw [performOn_bind_error hcreated]
    | ok =>
      rw [performOn_bind_ok hcreated]
      simp only
      cases hlock : μ.lockIn (join directory LockFile.fileName) files with
      | error failure => exact performOn_writeOutput_error hkeeps hlock _ _
      | ok previous =>
        exact performOn_writeOutput hkeeps hlock (sideBySide_of_generated i hresult) _

end

end ContentLoom.Command

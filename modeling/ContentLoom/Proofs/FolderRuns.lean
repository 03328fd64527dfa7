import ContentLoom.Proofs.FolderActions

/-!
# Runs on one directory

A machine on which only the files of one directory can be changed: these files
are a dictionary of texts, and what is outside the directory can be read.
-/

namespace ContentLoom

namespace Files

/-! ### The machine -/

/-- What a machine has beside the files of one directory. -/
structure Surroundings where
  /-- What reading gives at a path outside the directory. -/
  outside : String → Except FileError String
  /-- How making a directory ends. -/
  made : String → Except FileError Unit

/-- The name that a path has inside a directory. -/
def nameIn? (directory path : String) : Option String :=
  match Text.afterPrefix? (joinChars directory.toList []) path.toList with
  | some ('/' :: _) => none
  | some name => some (String.ofList name)
  | none => none

theorem joinChars_eq {path : List Char} (h : path.head? ≠ some '/') (directory : List Char) :
    joinChars directory path = joinChars directory [] ++ path := by
  unfold joinChars
  by_cases hempty : directory = []
  · rw [if_pos (Or.inr hempty), if_pos (Or.inr hempty), List.nil_append]
  · have hfront : ¬(path.head? = some '/' ∨ directory = []) := by simp [h, hempty]
    have hnone : ¬(([] : List Char).head? = some '/' ∨ directory = []) := by simp [hempty]
    rw [if_neg hfront, if_neg hnone]
    split
    · rw [List.append_nil]
    · rw [List.append_assoc, List.singleton_append]

theorem nameIn?_join {name : String} (h : name.toList.head? ≠ some '/') (directory : String) :
    nameIn? directory (join directory name) = some name := by
  unfold nameIn?
  rw [join, String.toList_ofList, joinChars_eq h, Text.afterPrefix?_append]
  split
  · rename_i hchars
    rw [Option.some.inj hchars] at h
    exact absurd rfl h
  · rename_i hchars
    rw [← Option.some.inj hchars, String.ofList_toList]
  · rename_i hchars
    cases hchars

namespace Surroundings

variable (s : Surroundings) (directory : String)

/-- The text at a path, in the directory or outside. -/
def textAt (files : FileMap) (path : String) : Except FileError String :=
  match nameIn? directory path with
  | some name => files.read name
  | none => s.outside path

/-- The operations of the machine. -/
def host : Host (StateM FileMap) where
  readText path := do return s.textAt directory (← get) path
  readBytes path := do return (s.textAt directory (← get) path).map String.toUTF8
  isFile path := do return (s.textAt directory (← get) path).isOk
  isPresent path := do return (s.textAt directory (← get) path).isOk
  writeText path text :=
    match nameIn? directory path with
    | some name => FileMap.folder.writeText name text
    | none => pure (.error .permissionDenied)
  removeFile path :=
    match nameIn? directory path with
    | some name => FileMap.folder.removeFile name
    | none => pure (.error .permissionDenied)
  createDirectories path := pure (s.made path)
  remark _ := pure ()

/-- The directory of the machine. -/
def folder : Folder (StateM FileMap) := (s.host directory).folder directory

end Surroundings

end Files

namespace Command

open Files

variable {α β : Type}

/-! ### Runs -/

/-- The outcome of an action on the files of the directory, and the files afterwards. -/
def perform (act : Action (StateM FileMap) α) (files : FileMap) :
    Except CommandFailure α × FileMap := act.run files

theorem perform_bind_ok {act : Action (StateM FileMap) α} {files after : FileMap} {a : α}
    (h : perform act files = (.ok a, after)) (next : α → Action (StateM FileMap) β) :
    perform (act >>= next) files = perform (next a) after := performOn_bind_ok h next

theorem perform_bind_error {act : Action (StateM FileMap) α} {files after : FileMap}
    {failure : CommandFailure} (h : perform act files = (.error failure, after))
    (next : α → Action (StateM FileMap) β) :
    perform (act >>= next) files = (.error failure, after) := performOn_bind_error h next

/-! ### Operations on the directory -/

variable (s : Surroundings) (directory : String)

theorem textAt_of_outside {directory path : String} (h : nameIn? directory path = none)
    (files : FileMap) : s.textAt directory files path = s.outside path := by
  rw [Surroundings.textAt, h]

theorem textAt_join {name : String} (hplain : Path.isPlainName name = true) (files : FileMap) :
    s.textAt directory files (join directory name) = files.read name := by
  rw [Surroundings.textAt, nameIn?_join (Path.head_of_isPlainName hplain)]

/-- Files that are texts. -/
def texts : Medium String := ⟨id, .ok, String.toUTF8⟩

theorem contentIn_eq_read (files : FileMap) (name : String) :
    Medium.contentIn files name = files.read name := by
  unfold Medium.contentIn FileMap.read
  cases files.get? name <;> rfl

theorem keeps_folder : texts.Keeps (s.folder directory) where
  readText {name} hplain files := by
    change (s.textAt directory files (join directory name), files) = _
    rw [textAt_join s directory hplain, contentIn_eq_read]
    cases FileMap.read files name <;> rfl
  readBytes {name} hplain files := by
    change ((s.textAt directory files (join directory name)).map String.toUTF8, files) = _
    rw [textAt_join s directory hplain, contentIn_eq_read]
    rfl
  isFile {name} hplain files := by
    change ((s.textAt directory files (join directory name)).isOk, files) = _
    rw [textAt_join s directory hplain, ← contentIn_eq_read, Medium.isOk_contentIn]
  isPresent {name} hplain files := by
    change ((s.textAt directory files (join directory name)).isOk, files) = _
    rw [textAt_join s directory hplain, ← contentIn_eq_read, Medium.isOk_contentIn]
  writeText {name} hplain files text := by
    have hname := nameIn?_join (Path.head_of_isPlainName hplain) directory
    change (match nameIn? directory (join directory name) with
      | some name => FileMap.folder.writeText name text
      | none => pure (.error .permissionDenied)) files = _
    rw [hname]
    rfl
  removeFile {name} hplain files hfile := by
    have hname := nameIn?_join (Path.head_of_isPlainName hplain) directory
    change (match nameIn? directory (join directory name) with
      | some name => FileMap.folder.removeFile name
      | none => pure (.error .permissionDenied)) files = _
    rw [hname]
    change (if files.contains name = true then
      (do modify fun files : FileMap => files.erase name; return .ok ())
      else return .error .notFound : StateM FileMap (Except FileError Unit)) files = _
    rw [if_pos hfile]
    rfl

/-! ### The lock file -/

theorem perform_readLock (files : FileMap) :
    perform (readLock (s.folder directory)) files =
      (texts.lockIn (join directory LockFile.fileName) files, files) :=
  performOn_readLock (keeps_folder s directory) files

/-- Comparing the directory with artifacts, which only a lock file that is not valid refuses. -/
theorem perform_compareOutput {files : FileMap} {previous : Option LockFile}
    (hlock : texts.lockIn (join directory LockFile.fileName) files = .ok previous)
    {artifacts : List Artifact}
    (hplain : ∀ a ∈ artifacts, Path.isPlainName a.fileName = true) (o : Options) :
    perform (compareOutput (s.folder directory) o artifacts) files =
      (.ok ⟨Medium.missingNames files artifacts, texts.changedNames files artifacts,
        (staleNames previous artifacts o).filter files.contains, artifacts.length⟩, files) :=
  performOn_compareOutput (keeps_folder s directory) hlock hplain o

end Command

end ContentLoom

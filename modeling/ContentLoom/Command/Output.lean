import ContentLoom.Command.Failure
import ContentLoom.Files.Folder

/-!
# The output folder

Writing generated files into a folder together with their lock file, and
comparing the folder with what would be written.  Files that an earlier lock
file records and that are generated no more are removed first; all other files
of the folder are left alone.
-/

namespace ContentLoom.Command

open Files (Folder)

variable {m : Type → Type} [Monad m]

/-- The lock file of a folder, if it has one. -/
def readLock (f : Folder m) : Action m (Option LockFile) := do
  let path := f.pathOf LockFile.fileName
  if ← f.isPresent LockFile.fileName then
    let text ← attempt (f.readText LockFile.fileName) (.lockUnreadable path)
    match LockFile.ofText text with
    | .error fault => throw (.lockMalformed path fault)
    | .ok lock =>
      match lock.badName? with
      | some name => throw (.lockInvalid path name)
      | none => pure (some lock)
  else pure none

/-! ### Writing -/

/-- What a run of the generator did. -/
structure Summary where
  written : Nat
  /-- The files that are generated no more. -/
  removed : List String
deriving DecidableEq

/-- Removes files, those that are there. -/
def removeFiles (f : Folder m) : List String → Action m Unit
  | [] => pure ()
  | name :: names => do
    if ← f.isFile name then attempt (f.removeFile name) (.removal (f.pathOf name))
    removeFiles f names

/-- Removes the files that the lock file of a folder records and a newer one does not. -/
def removeStale (f : Folder m) (newer : LockFile) : Action m (List String) := do
  match ← readLock f with
  | none => pure []
  | some lock =>
    let stale := lock.staleFiles newer
    removeFiles f stale
    pure stale

/-- Writes generated files. -/
def writeArtifacts (f : Folder m) : List Artifact → Action m Unit
  | [] => pure ()
  | a :: artifacts => do
    attempt (f.writeText a.fileName a.source) (.writing (f.pathOf a.fileName))
    writeArtifacts f artifacts

/-- Brings a folder up to date with generated files, and records them. -/
def writeOutput (f : Folder m) (o : Options) (artifacts : List Artifact) : Action m Summary := do
  let lock := LockFile.ofArtifacts artifacts o
  let removed ← removeStale f lock
  writeArtifacts f artifacts
  attempt (f.writeText LockFile.fileName lock.text) (.lockWriting (f.pathOf LockFile.fileName))
  pure ⟨artifacts.length, removed⟩

/-! ### Comparing -/

/-- How a folder differs from what would be generated. -/
structure Drift where
  /-- Files that would be generated and are not there. -/
  missing : List String
  /-- Files whose content would be another. -/
  changed : List String
  /-- Recorded files that would not be generated. -/
  stale : List String
  checked : Nat
deriving DecidableEq

namespace Drift

/-- Whether there is no difference. -/
def isClean (d : Drift) : Bool := d.missing.isEmpty && d.changed.isEmpty && d.stale.isEmpty

/-- The differences, one in a line. -/
def text (d : Drift) : String :=
  String.join (d.missing.map (fun name => "missing: " ++ name ++ "\n") ++
    d.changed.map (fun name => "changed: " ++ name ++ "\n") ++
    d.stale.map (fun name => "stale:   " ++ name ++ "\n"))

end Drift

/-- The generated files that are missing from a folder, and those that differ. -/
def compareArtifacts (f : Folder m) : List Artifact → Action m (List String × List String)
  | [] => pure ([], [])
  | a :: artifacts => do
    if ← f.isFile a.fileName then
      let bytes ← attempt (f.readBytes a.fileName) (.reading (f.pathOf a.fileName))
      let (missing, changed) ← compareArtifacts f artifacts
      if Checksum.verify bytes (Digest.Sha256.hexOfText a.source) then pure (missing, changed)
      else pure (missing, a.fileName :: changed)
    else
      let (missing, changed) ← compareArtifacts f artifacts
      pure (a.fileName :: missing, changed)

/-- Those of some files that are there. -/
def presentFiles (f : Folder m) : List String → Action m (List String)
  | [] => pure []
  | name :: names => do
    let there ← f.isFile name
    let rest ← presentFiles f names
    pure (if there then name :: rest else rest)

/-- Compares a folder with generated files. -/
def compareOutput (f : Folder m) (o : Options) (artifacts : List Artifact) : Action m Drift := do
  let (missing, changed) ← compareArtifacts f artifacts
  let stale ← match ← readLock f with
    | none => pure []
    | some lock => presentFiles f (lock.staleFiles (LockFile.ofArtifacts artifacts o))
  pure ⟨missing, changed, stale, artifacts.length⟩

end ContentLoom.Command

import ContentLoom.Dictionary
import ContentLoom.Files.Host
import ContentLoom.Files.Path

/-!
# Folders

A directory of a machine as a folder, and a folder in memory whose files are a
dictionary of texts.  A folder in memory has no directories in it, and nothing
in it can fail but the reading and the removal of what is not there.
-/

namespace ContentLoom.Files

/-- A directory of a machine. -/
def Host.folder {m : Type → Type} (h : Host m) (directory : String) : Folder m where
  pathOf name := join directory name
  readText name := h.readText (join directory name)
  readBytes name := h.readBytes (join directory name)
  isFile name := h.isFile (join directory name)
  isPresent name := h.isPresent (join directory name)
  writeText name text := h.writeText (join directory name) text
  removeFile name := h.removeFile (join directory name)

/-- Files by name. -/
abbrev FileMap := Dictionary String

namespace FileMap

/-- The text of a file. -/
def read (files : FileMap) (name : String) : Except FileError String :=
  match files.get? name with
  | some text => .ok text
  | none => .error .notFound

/-- The folder of the files. -/
def folder : Folder (StateM FileMap) where
  pathOf name := name
  readText name := do return (← get).read name
  readBytes name := do return ((← get).read name).map String.toUTF8
  isFile name := do return (← get).contains name
  isPresent name := do return (← get).contains name
  writeText name text := do
    modify fun files => files.insert name text
    return .ok ()
  removeFile name := do
    if (← get).contains name then
      modify fun files => files.erase name
      return .ok ()
    else return .error .notFound

end FileMap

end ContentLoom.Files

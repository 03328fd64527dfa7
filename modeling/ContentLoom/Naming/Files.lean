import ContentLoom.Artifact
import ContentLoom.ContentClass
import ContentLoom.Failure
import ContentLoom.Naming.Claim
import ContentLoom.Naming.Words

/-!
# Names of generated files

Files that belong to no class have fixed names, and it is a failure when two of
them meet.  The files of a class are named by its group, its name, their kind
and the beginning of its identifier, and by more where that is taken.
-/

namespace ContentLoom.Naming

/-- The file names given so far, all with one extension. -/
structure FileNames where
  extension : String
  taken : List String
deriving DecidableEq

namespace FileNames

/-- No name given yet. -/
def start (extension : String) : FileNames := ⟨extension, []⟩

/-- The name of a generated file with a stem. -/
def fileName (extension stem : String) : String := stem ++ ".g." ++ extension

/-- Gives a fixed name, unless it is taken. -/
def shared (names : FileNames) (stem : String) : Except Failure (String × FileNames) :=
  let name := fileName names.extension stem
  if names.taken.contains name then .error (.duplicateArtifact name)
  else .ok (name, { names with taken := name :: names.taken })

/-- The stem of a file of a class, ending with a form of its identifier. -/
def classStem (c : ContentClass) (kind : ArtifactKind) (id : String) : String :=
  sanitize c.group ++ "_" ++ sanitize c.name ++ "_" ++ kind.fileSegment ++ "_" ++ id

/-- Gives a name for a file of a class. -/
def perClass (names : FileNames) (c : ContentClass) (kind : ArtifactKind) : String × FileNames :=
  let name := claim names.taken (classStem c kind c.stableId.short)
    (classStem c kind c.stableId.hex) (fileName names.extension)
  (name, { names with taken := name :: names.taken })

end FileNames

end ContentLoom.Naming

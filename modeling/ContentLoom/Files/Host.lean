/-!
# Files of a machine

What the commands do with files, and what they may be told about them.  The
operations are given as a record, so that the same commands run on the files of
a machine and on files held in memory.
-/

namespace ContentLoom.Files

/-- Why an operation on a file fails. -/
inductive FileError where
  | notFound
  | notADirectory
  | isADirectory
  | alreadyExists
  /-- A name that is too long. -/
  | invalidName
  /-- A path that no file can have. -/
  | invalidPath
  /-- The bytes of a file are no text. -/
  | notText
  | permissionDenied
  | other (reason : String)
deriving DecidableEq

/-- The name of the kind of an error. -/
def FileError.kind : FileError → String
  | notFound => "NotFound"
  | notADirectory => "NotADirectory"
  | isADirectory => "IsADirectory"
  | alreadyExists => "AlreadyExists"
  | invalidName => "InvalidFilename"
  | invalidPath => "InvalidInput"
  | notText => "InvalidData"
  | permissionDenied => "PermissionDenied"
  | other _ => "Other"

/-- The words of an error. -/
def FileError.text : FileError → String
  | notFound => "no such file or directory"
  | notADirectory => "not a directory"
  | isADirectory => "is a directory"
  | alreadyExists => "file exists"
  | invalidName => "file name too long"
  | invalidPath => "file name contains a null character"
  | notText => "stream did not contain valid UTF-8"
  | permissionDenied => "permission denied"
  | other reason => reason

/-- The operations on files by path, and a place for remarks. -/
structure Host (m : Type → Type) where
  readText : String → m (Except FileError String)
  readBytes : String → m (Except FileError ByteArray)
  /-- Whether there is a file, and no directory, at a path. -/
  isFile : String → m Bool
  /-- Whether there is anything at a path. -/
  isPresent : String → m Bool
  /-- Writes a file in place of an earlier one. -/
  writeText : String → String → m (Except FileError Unit)
  removeFile : String → m (Except FileError Unit)
  /-- Makes a directory and those around it, where they are missing. -/
  createDirectories : String → m (Except FileError Unit)
  /-- Tells the user something beside the result. -/
  remark : String → m Unit

/-- The operations on the files of one directory, by name. -/
structure Folder (m : Type → Type) where
  /-- The path under which a file is reported. -/
  pathOf : String → String
  readText : String → m (Except FileError String)
  readBytes : String → m (Except FileError ByteArray)
  isFile : String → m Bool
  isPresent : String → m Bool
  writeText : String → String → m (Except FileError Unit)
  removeFile : String → m (Except FileError Unit)

end ContentLoom.Files

import ContentLoom.Command.Program

/-!
# The executable

The operations on the files of the machine, and the entry point.
-/

open ContentLoom Files

namespace ContentLoom.Executable

/-- The error of an operation in the terms of the library. -/
def fileError : IO.Error → FileError
  | .noFileOrDirectory _ _ _ => .notFound
  | .alreadyExists _ _ _ => .alreadyExists
  | .permissionDenied _ _ _ => .permissionDenied
  | .inappropriateType _ code _ => if code = 21 then .isADirectory else .notADirectory
  | e => .other (toString e)

/-- Performs an operation and keeps its error as a value. -/
def attempted {α : Type} (operation : IO α) : IO (Except FileError α) := do
  try return .ok (← operation)
  catch e => return .error (fileError e)

/-- The bytes of a file as text. -/
def textOf (bytes : ByteArray) : Except FileError String :=
  match String.fromUTF8? bytes with
  | some text => .ok text
  | none => .error .notText

/-- Whether a file can be read. -/
def canRead (path : String) : IO Bool := do
  match ← attempted (IO.FS.readBinFile path) with
  | .ok _ => return true
  | .error _ => return false

/-- Whether there is a file or a directory. -/
def isThere (path : String) : IO Bool := do
  match ← attempted (IO.FS.readBinFile path) with
  | .ok _ => return true
  | .error e => return e != .notFound && e != .notADirectory

/-- The files of the machine. -/
def machine : Host IO where
  readText path := do
    match ← attempted (IO.FS.readBinFile path) with
    | .ok bytes => return textOf bytes
    | .error e => return .error e
  readBytes path := attempted (IO.FS.readBinFile path)
  isFile path := canRead path
  isPresent path := isThere path
  writeText path text := attempted (IO.FS.writeFile path text)
  removeFile path := attempted (IO.FS.removeFile path)
  createDirectories path :=
    if path.isEmpty then pure (.ok ()) else attempted (IO.FS.createDirAll path)
  remark text := IO.eprint text

end ContentLoom.Executable

/-- Runs the program on its arguments. -/
def main (arguments : List String) : IO UInt32 := do
  let ending ← Command.Program.run Executable.machine arguments
  IO.print ending.output
  IO.eprint ending.errors
  return ending.exitCode

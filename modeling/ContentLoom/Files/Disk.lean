import ContentLoom.Entries
import ContentLoom.Files.Host
import ContentLoom.Files.Path

/-!
# Files in memory

Files and directories by the names that lead to them from the root, and a
working directory.  A path is followed name by name, and every name but the
last has to be that of a directory; a slash at the end asks for a directory
also there.
-/

namespace ContentLoom.Files

/-- What a place on a disk holds. -/
inductive Node where
  | file (text : String)
  | directory
deriving DecidableEq

/-- The names that lead from the root to a place. -/
abbrev Place := List String

/-- Files and directories, and a working directory. -/
structure Disk where
  nodes : List (Place × Node)
  here : Place

namespace Disk

/-- An empty working directory below the root. -/
def fresh : Disk := ⟨[(["work"], .directory)], ["work"]⟩

/-- The greatest number of bytes in a name. -/
def nameLimit : Nat := 255

/-- The greatest number of bytes in a path. -/
def pathLimit : Nat := 4095

/-! ### Places -/

/-- What is at a place; the root is always a directory. -/
def node? (d : Disk) (place : Place) : Option Node :=
  if place = [] then some .directory else d.nodes.lookup place

/-- Puts something at a place. -/
def put (d : Disk) (place : Place) (node : Node) : Disk :=
  { d with nodes := (place, node) :: d.nodes.filter (·.1 ≠ place) }

/-- Whether a place is a directory. -/
def isDirectoryAt (d : Disk) (place : Place) : Bool := d.node? place == some .directory

/-- The place that a segment leads to from a directory, whether something is there or not. -/
def towards (place : Place) (segment : List Char) : Except FileError Place :=
  if isIdle segment then .ok place
  else if segment = upward then .ok place.dropLast
  else
    let name := String.ofList segment
    if nameLimit < name.utf8ByteSize then .error .invalidName else .ok (place ++ [name])

/-- Follows a segment to something that exists. -/
def enter (d : Disk) (place : Place) (segment : List Char) : Except FileError Place := do
  if !d.isDirectoryAt place then throw .notADirectory
  let next ← towards place segment
  if (d.node? next).isNone then throw .notFound
  pure next

/-- Where a path begins and the segments that are followed from there. -/
def route (d : Disk) (path : String) : Except FileError (Place × List (List Char)) :=
  let cs := path.toList
  if cs.contains '\x00' then .error .invalidPath
  else if cs = [] then .error .notFound
  else if pathLimit < path.utf8ByteSize then .error .invalidName
  else
    .ok (if cs.head? = some '/' then [] else d.here,
      (Text.segments '/' cs).filter fun s => s ≠ [])

/-- Whether a path ends with a slash. -/
def asksDirectory (path : String) : Bool := path.toList.getLast? == some '/'

/-- The place of something that exists. -/
def locate (d : Disk) (path : String) : Except FileError Place := do
  let (start, segments) ← d.route path
  let place ← segments.foldlM d.enter start
  if asksDirectory path && !d.isDirectoryAt place then throw .notADirectory
  pure place

/-- The directory in which the last segment of a path is, and that segment. -/
def locateLast (d : Disk) (path : String) : Except FileError (Place × List Char) := do
  let (start, segments) ← d.route path
  let place ← segments.dropLast.foldlM d.enter start
  if !d.isDirectoryAt place then throw .notADirectory
  pure (place, segments.getLast?.getD ['.'])

/-- Whether a segment is a name of its own and no way to another directory. -/
def isOwnName (segment : List Char) : Bool := !isIdle segment && segment != upward

/-! ### Operations -/

/-- The text of a file. -/
def readText (d : Disk) (path : String) : Except FileError String := do
  match d.node? (← d.locate path) with
  | some (.file text) => pure text
  | some .directory => throw .isADirectory
  | none => throw .notFound

/-- Whether there is a file at a path. -/
def isFile (d : Disk) (path : String) : Bool :=
  match d.readText path with
  | .ok _ => true
  | .error _ => false

/-- Whether there is a directory at a path. -/
def isDirectory (d : Disk) (path : String) : Bool :=
  match d.locate path with
  | .ok place => d.isDirectoryAt place
  | .error _ => false

/-- Whether there is anything at a path. -/
def isPresent (d : Disk) (path : String) : Bool := (d.locate path).isOk

/-- Writes a file. -/
def writeText (d : Disk) (path text : String) : Except FileError Disk := do
  let (place, segment) ← d.locateLast path
  if asksDirectory path || !isOwnName segment then throw .isADirectory
  let target ← towards place segment
  if d.isDirectoryAt target then throw .isADirectory
  pure (d.put target (.file text))

/-- Removes a file. -/
def removeFile (d : Disk) (path : String) : Except FileError Disk := do
  let (place, segment) ← d.locateLast path
  if !isOwnName segment then throw .isADirectory
  let target ← towards place segment
  match d.node? target with
  | none => throw .notFound
  | some .directory => throw .isADirectory
  | some (.file _) =>
    if asksDirectory path then throw .notADirectory
    pure { d with nodes := d.nodes.filter (·.1 ≠ target) }

/-- Makes one directory. -/
def createDirectory (d : Disk) (path : String) : Except FileError Disk := do
  let (place, segment) ← d.locateLast path
  if !isOwnName segment then throw .alreadyExists
  let target ← towards place segment
  if (d.node? target).isSome then throw .alreadyExists
  pure (d.put target .directory)

/-- Makes a directory that is in some others, the innermost first, and those of them that are
missing.  What was made before a failure stays. -/
def createWithin (path : String) : List String → Disk → Except FileError Unit × Disk
  | others, d =>
    if path.isEmpty then (.ok (), d)
    else
      match d.createDirectory path with
      | .ok d => (.ok (), d)
      | .error .notFound =>
        match others with
        | [] => (.error .notFound, d)
        | outer :: more =>
          match createWithin outer more d with
          | (.error e, d) => (.error e, d)
          | (.ok (), d) =>
            match d.createDirectory path with
            | .ok d => (.ok (), d)
            | .error e => (if d.isDirectory path then .ok () else .error e, d)
      | .error e => (if d.isDirectory path then .ok () else .error e, d)

/-- Makes a directory and those around it, where they are missing. -/
def createDirectories (d : Disk) (path : String) : Except FileError Unit × Disk :=
  createWithin path ((Path.ofText path).ancestors.map Path.text) d

/-- The paths of all that is below a place, in increasing order; a directory ends with a slash. -/
def below (d : Disk) (top : Place) : List String :=
  let paths := d.nodes.filterMap fun (place, node) =>
    if top.isPrefixOf place && place.length != top.length then
      let path := "/".intercalate (place.drop top.length)
      some (if node = .directory then path ++ "/" else path, ())
    else none
  (Entries.sorted paths).names

/-- The paths of all that is below a directory; below anything else is nothing. -/
def list (d : Disk) (path : String) : List String :=
  match d.locate path with
  | .ok top => d.below top
  | .error _ => []

/-! ### The disk as a machine -/

/-- A disk, and the remarks made so far. -/
structure Machine where
  disk : Disk
  remarks : List String

/-- Performs an operation that changes the disk unless it fails. -/
def change (operation : Disk → Except FileError Disk) : StateM Machine (Except FileError Unit) :=
  fun m =>
    match operation m.disk with
    | .ok disk => (.ok (), { m with disk := disk })
    | .error e => (.error e, m)

/-- The operations on the files of a disk. -/
def host : Host (StateM Machine) where
  readText path := do return (← get).disk.readText path
  readBytes path := do return ((← get).disk.readText path).map String.toUTF8
  isFile path := do return (← get).disk.isFile path
  isPresent path := do return (← get).disk.isPresent path
  writeText path text := change fun d => d.writeText path text
  removeFile path := change fun d => d.removeFile path
  createDirectories path := fun m =>
    let (result, disk) := m.disk.createDirectories path
    (result, { m with disk := disk })
  remark text := modify fun m => { m with remarks := m.remarks ++ [text] }

end Disk

end ContentLoom.Files

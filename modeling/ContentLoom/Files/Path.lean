import ContentLoom.Text.Segments

/-!
# Paths

A path is where it begins and the segments between its slashes.  Empty
segments and single dots name nothing; the other segments are the names of the
path, among them `..` for the directory above.  The text of a path is kept
exactly, so what is left of a path after taking parts away is written as it was.
-/

namespace ContentLoom.Files

/-- Where a path begins. -/
inductive Start where
  /-- At the root of all directories. -/
  | root
  /-- In the working directory, by a dot at the front. -/
  | here
  /-- In the working directory, with the first name. -/
  | plain
deriving DecidableEq

/-- A path in its parts. -/
structure Path where
  start : Start
  segments : List (List Char)
deriving DecidableEq

/-- A segment that names nothing. -/
def isIdle (segment : List Char) : Bool := segment == [] || segment == ['.']

/-- The segment that leads to the directory above. -/
def upward : List Char := ['.', '.']

namespace Path

/-- The parts of a written path. -/
def ofChars : List Char → Path
  | '/' :: rest => ⟨.root, Text.segments '/' rest⟩
  | ['.'] => ⟨.here, []⟩
  | '.' :: '/' :: rest => ⟨.here, [] :: Text.segments '/' rest⟩
  | cs => ⟨.plain, Text.segments '/' cs⟩

/-- The parts of a path. -/
def ofText (path : String) : Path := ofChars path.toList

/-- How a path begins. -/
def startChars : Start → List Char
  | .root => ['/']
  | .here => ['.']
  | .plain => []

/-- A path as it is written. -/
def text (p : Path) : String :=
  String.ofList (startChars p.start ++ List.intercalate ['/'] p.segments)

/-- The names of a path in order. -/
def names (p : Path) : List (List Char) := p.segments.filter fun s => !isIdle s

/-! ### Names and directories -/

/-- Whether a path is one name in the working directory, and so in any directory it is joined
to. -/
def isPlainName (path : String) : Bool :=
  let p := ofText path
  match p.start, p.names with
  | .plain, [name] => name != upward
  | _, _ => false

/-- The segments, from the last to the first, that stand before the last name. -/
def behind (reversed : List (List Char)) : Option (List (List Char)) :=
  match reversed.dropWhile isIdle with
  | [] => none
  | _ :: rest => some (rest.dropWhile isIdle)

theorem behind_length {reversed rest : List (List Char)} (h : behind reversed = some rest) :
    rest.length < reversed.length := by
  unfold behind at h
  split at h
  · simp at h
  · rename_i s front heq
    obtain rfl : front.dropWhile isIdle = rest := by simpa using h
    have outer := (List.dropWhile_sublist isIdle (l := reversed)).length_le
    have inner := (List.dropWhile_sublist isIdle (l := front)).length_le
    rw [heq] at outer
    simp at outer
    omega

/-- The directory that a path is in; a root has none. -/
def parent? (p : Path) : Option Path :=
  match behind p.segments.reverse with
  | some rest => some { p with segments := rest.reverse }
  | none => if p.start = .here then some ⟨.plain, []⟩ else none

/-- The directories around a path, the innermost first. -/
def around (start : Start) (reversed : List (List Char)) : List Path :=
  match _h : behind reversed with
  | some rest => ⟨start, rest.reverse⟩ :: around start rest
  | none => if start = .here then [⟨.plain, []⟩] else []
termination_by reversed.length
decreasing_by exact behind_length (by assumption)

/-- The directories that a path is in, the innermost first. -/
def ancestors (p : Path) : List Path := around p.start p.segments.reverse

/-- The last name of a path, unless it leads upward. -/
def fileName? (p : Path) : Option (List Char) :=
  match p.segments.reverse.dropWhile isIdle with
  | name :: _ => if name = upward then none else some name
  | [] => none

/-- What stands after the last dot of the last name; a dot at its front does not count. -/
def extension? (p : Path) : Option (List Char) :=
  p.fileName?.bind fun name =>
    match Text.beforeLast? '.' name with
    | some (_ :: _) => some (Text.afterLast '.' name)
    | _ => none

end Path

/-- The characters of a path inside a directory. -/
def joinChars (directory path : List Char) : List Char :=
  if path.head? = some '/' ∨ directory = [] then path
  else if directory.getLast? = some '/' then directory ++ path
  else directory ++ '/' :: path

/-- A path inside a directory; one that begins at the root stays as it is. -/
def join (directory path : String) : String :=
  String.ofList (joinChars directory.toList path.toList)

end ContentLoom.Files

import ContentLoom.Entries
import ContentLoom.Json.Document

/-!
# TOML tables under construction

While a text is read its tables grow.  A table knows how it came to be, for
that decides what may be added to it: one that a header names may be named only
once, one that only lies on the way to another may still be named, and one that
is written in braces is complete.
-/

namespace ContentLoom.Toml

/-- How a table came to be. -/
inductive Origin where
  /-- On the way to a table that a header names. -/
  | passage
  /-- Named by a header. -/
  | header
  /-- On the way to a key with dots. -/
  | dotted
deriving DecidableEq

/-- A value, a table that may still grow, or an array of such tables, the last one first. -/
inductive Node where
  | value (d : Json.Document)
  | table (origin : Origin) (entries : List (String × Node))
  | tables (items : List (List (String × Node)))

namespace Node

/-- The entries of a table under a name replaced by what a function makes of its node. -/
def update (entries : List (String × Node)) (name : String)
    (f : Option Node → Option Node) : Option (List (String × Node)) :=
  (f (Entries.get? entries name)).map (Entries.set entries name)

/-- Goes along a path of headers and changes the entries at its end. -/
def along (f : List (String × Node) → Option (List (String × Node))) :
    List String → List (String × Node) → Option (List (String × Node))
  | [], entries => f entries
  | name :: path, entries =>
    update entries name fun
      | none => (along f path []).map (.table .passage)
      | some (.table origin inner) => (along f path inner).map (.table origin)
      | some (.tables (last :: before)) =>
        (along f path last).map fun last => .tables (last :: before)
      | some (.tables []) => none
      | some (.value _) => none

/-- Opens the table that a header names. -/
def openTable (path : List String) (name : String) (root : List (String × Node)) :
    Option (List (String × Node)) :=
  along (fun entries => update entries name fun
    | none => some (.table .header [])
    | some (.table .passage inner) => some (.table .header inner)
    | some _ => none) path root

/-- Opens one more table of the array that a header names. -/
def openItem (path : List String) (name : String) (root : List (String × Node)) :
    Option (List (String × Node)) :=
  along (fun entries => update entries name fun
    | none => some (.tables [[]])
    | some (.tables items) => some (.tables ([] :: items))
    | some _ => none) path root

/-- Stores a value under a key, which may have dots.  The table that takes the value is open to it
if `fits`: the table that the key starts from is, and so is every table that keys with dots made.
On the way to it lie such tables, tables on the way to one that a header names, and last items of
arrays of tables. -/
def store (d : Json.Document) (fits : Bool) :
    List String → List (String × Node) → Option (List (String × Node))
  | [], _ => none
  | [name], entries =>
    if fits then
      update entries name fun
        | none => some (.value d)
        | some _ => none
    else none
  | name :: key, entries =>
    update entries name fun
      | none => (store d true key []).map (.table .dotted)
      | some (.table .dotted inner) => (store d true key inner).map (.table .dotted)
      | some (.table .passage inner) => (store d false key inner).map (.table .passage)
      | some (.table .header _) => none
      | some (.tables (last :: before)) =>
        (store d false key last).map fun last => .tables (last :: before)
      | some (.tables []) => none
      | some (.value _) => none

/-! ### Finished tables -/

mutual

/-- The document of a node; the members of a table come in the order of their names. -/
def document : Node → Json.Document
  | .value d => d
  | .table _ entries => .obj (Entries.sorted (members entries)) (.closed .lenient)
  | .tables items => .arr (itemDocuments items).reverse (.closed .lenient)

/-- The members of a table. -/
def members : List (String × Node) → List (String × Json.Document)
  | [] => []
  | (name, node) :: rest => (name, document node) :: members rest

/-- The documents of the tables of an array. -/
def itemDocuments : List (List (String × Node)) → List Json.Document
  | [] => []
  | entries :: rest => .obj (Entries.sorted (members entries)) (.closed .lenient) :: itemDocuments rest

end

end Node

end ContentLoom.Toml

import ContentLoom.Json.Basic

/-!
# JSON documents

A document is a JSON text as it was read: repeated members are kept, and a
fault of the text stands where it occurs.  A decoder that walks the document in
order therefore meets the faults of the text and its own in the order of the
text.  A fault that a decoder may pass over together with the value it ignores
is marked as skippable.  A container also tells how it comes to a decoder, for
a value that was put aside, or one from another notation, may take forms that a
text may not.
-/

namespace ContentLoom.Json

/-- How a container comes to a decoder, which decides how far it may differ from what is
expected. -/
inductive Manner where
  /-- From a text, item after item. -/
  | streamed
  /-- From a value that is known as a whole. -/
  | held
  /-- Put aside until the variant that it belongs to is known. -/
  | deferred
  /-- From a notation whose decoders leave items alone that they do not expect. -/
  | lenient
  /-- An object that stands for a date or a time. -/
  | moment
deriving DecidableEq

/-- How the items of a container end: with its bracket, or with a fault of the text. -/
inductive Stop where
  | closed (manner : Manner)
  | cut (skippable : Bool)
deriving DecidableEq

/-- A JSON text as read. -/
inductive Document where
  | null
  | bool (value : Bool)
  | int (value : Int)
  | float (value : Binary64)
  | str (text : String)
  | arr (items : List Document) (stop : Stop)
  | obj (members : List (String × Document)) (stop : Stop)
  /-- A number that JSON writes as null and that is nowhere taken for null. -/
  | notFinite
  /-- A value that the text does not give. -/
  | fault (skippable : Bool)
deriving Inhabited

namespace Stop

/-- Whether the container has its bracket. -/
def isClosed : Stop → Bool
  | closed _ => true
  | cut _ => false

/-- Whether a decoder that ignores the container may go on after it. -/
def skippable : Stop → Bool
  | closed _ => true
  | cut s => s

/-- Whether an array may end with these items unread. -/
def leaves (rest : List Document) : Stop → Bool
  | closed .lenient => true
  | closed _ => rest.isEmpty
  | cut _ => false

end Stop

namespace Document

mutual

/-- Whether a decoder that ignores the value may go on after it. -/
def skippable : Document → Bool
  | .arr items stop => itemsSkippable items && stop.skippable
  | .obj members stop => membersSkippable members && stop.skippable
  | .fault s => s
  | _ => true

/-- Whether all items may be ignored. -/
def itemsSkippable : List Document → Bool
  | [] => true
  | d :: ds => skippable d && itemsSkippable ds

/-- Whether the values of all members may be ignored. -/
def membersSkippable : List (String × Document) → Bool
  | [] => true
  | (_, d) :: ds => skippable d && membersSkippable ds

end

mutual

/-- The value of a document, if the text has no fault. -/
def toJson? : Document → Option Json
  | .null => some .null
  | .bool b => some (.bool b)
  | .int n => some (.int n)
  | .float x => some (.float x)
  | .str s => some (.str s)
  | .notFinite => some .null
  | .arr items (.closed _) => (itemsToJson? items).map .arr
  | .obj members (.closed _) => (membersToJson? members).map Json.object
  | .arr _ (.cut _) => none
  | .obj _ (.cut _) => none
  | .fault _ => none

/-- The values of the items. -/
def itemsToJson? : List Document → Option (List Json)
  | [] => some []
  | d :: ds => do
    let j ← toJson? d
    let js ← itemsToJson? ds
    some (j :: js)

/-- The values of the members. -/
def membersToJson? : List (String × Document) → Option (List (String × Json))
  | [] => some []
  | (k, d) :: ds => do
    let j ← toJson? d
    let js ← membersToJson? ds
    some ((k, j) :: js)

end

mutual

/-- The document of a value. -/
def ofJson : Json → Document
  | .null => .null
  | .bool b => .bool b
  | .int n => .int n
  | .float x => .float x
  | .str s => .str s
  | .arr items => .arr (itemsOfJson items) (.closed .held)
  | .obj members => .obj (membersOfJson members) (.closed .held)

/-- The documents of items. -/
def itemsOfJson : List Json → List Document
  | [] => []
  | j :: js => ofJson j :: itemsOfJson js

/-- The documents of members. -/
def membersOfJson : List (String × Json) → List (String × Document)
  | [] => []
  | (k, j) :: js => (k, ofJson j) :: membersOfJson js

end

mutual

/-- The document put aside with all that it holds, if the text has no fault. -/
def putAside? : Document → Option Document
  | .arr items (.closed _) => (itemsPutAside? items).map fun ds => .arr ds (.closed .deferred)
  | .obj members (.closed _) => (membersPutAside? members).map fun ds => .obj ds (.closed .deferred)
  | .arr _ (.cut _) => none
  | .obj _ (.cut _) => none
  | .fault _ => none
  | d => some d

/-- The items, each of them put aside. -/
def itemsPutAside? : List Document → Option (List Document)
  | [] => some []
  | d :: ds => do
    let d ← putAside? d
    let ds ← itemsPutAside? ds
    some (d :: ds)

/-- The members with their values put aside. -/
def membersPutAside? : List (String × Document) → Option (List (String × Document))
  | [] => some []
  | (k, d) :: ds => do
    let d ← putAside? d
    let ds ← membersPutAside? ds
    some ((k, d) :: ds)

end

mutual

/-- The number of containers and values on the longest way into the document. -/
def height : Document → Nat
  | .arr items _ => itemsHeight items + 1
  | .obj members _ => membersHeight members + 1
  | _ => 1

/-- The greatest height of the items. -/
def itemsHeight : List Document → Nat
  | [] => 0
  | d :: ds => max (height d) (itemsHeight ds)

/-- The greatest height of the members. -/
def membersHeight : List (String × Document) → Nat
  | [] => 0
  | (_, d) :: ds => max (height d) (membersHeight ds)

end

end Document

end ContentLoom.Json

import ContentLoom.Entries
import ContentLoom.Number.Binary64

/-!
# JSON values

A value holds its numbers exactly, integers apart from floating-point numbers,
and its object members in order.  An object built by `Json.object` has every
name once.
-/

namespace ContentLoom

/-- A JSON value. -/
inductive Json where
  | null
  | bool (value : Bool)
  | int (value : Int)
  | float (value : Binary64)
  | str (text : String)
  | arr (items : List Json)
  | obj (members : List (String × Json))
deriving Inhabited

namespace Json

/-- An object in which a repeated name keeps its first place and its last value. -/
def object (members : Entries Json) : Json := .obj members.collapsed

mutual

/-- The value in which every object, at every depth, has each name once. -/
def collapsed : Json → Json
  | .arr items => .arr (collapsedItems items)
  | .obj members => object (collapsedMembers members)
  | j => j

/-- The items, each of them collapsed. -/
def collapsedItems : List Json → List Json
  | [] => []
  | j :: js => collapsed j :: collapsedItems js

/-- The members with their values collapsed. -/
def collapsedMembers : List (String × Json) → List (String × Json)
  | [] => []
  | (k, j) :: js => (k, collapsed j) :: collapsedMembers js

end

/-- The text of a string value. -/
def asStr? : Json → Option String
  | .str s => some s
  | _ => none

/-- The value of an integer. -/
def asInt? : Json → Option Int
  | .int n => some n
  | _ => none

/-- The member of an object with a name. -/
def get? : Json → String → Option Json
  | .obj members, name => Entries.get? members name
  | _, _ => none

/-- Whether the value is null. -/
def isNull : Json → Bool
  | .null => true
  | _ => false

/-- A text, or null. -/
def ofText? : Option String → Json
  | some s => .str s
  | none => .null

/-- An array of texts. -/
def texts (ts : List String) : Json := .arr (ts.map .str)

end Json

end ContentLoom

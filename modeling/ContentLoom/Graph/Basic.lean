import ContentLoom.Graph.NameIndex

/-!
# Declaration graphs

A graph is a list of declarations in which names are looked up: by the name
with its namespace, where the first declaration counts, or else by the simple
name, where it must be the only one.  A name used inside a namespace is looked
for in that namespace and in those around it, the innermost first.
-/

namespace ContentLoom

/-- Declared types in the order of their declaration. -/
structure Graph where
  types : List Declaration
deriving Inhabited

namespace Graph

/-! ### Names -/

/-- A name without one root mark. -/
def unrooted (name : String) : String := String.ofList (TypeRef.withoutRootMark name.toList)

/-- A namespace and those around it, the innermost first. -/
def scopes (ns : List Char) : List (List Char) :=
  if ns.isEmpty then []
  else
    match _h : Text.beforeLast? '.' ns with
    | some outer => ns :: scopes outer
    | none => [ns]
termination_by ns.length
decreasing_by exact Text.beforeLast?_length '.' ns outer (by assumption)

/-- The name of a member of a scope. -/
def qualified (scope : List Char) (name : String) : String := String.ofList scope ++ "." ++ name

/-! ### Looking up -/

/-- The place of the first declaration with a name and its namespace, or else of the only one with a
simple name. -/
def place? (g : Graph) (name : String) : Option Nat :=
  (NameIndex.ofTypes g.types).place? (unrooted name)

/-- The declaration that a name denotes. -/
def resolve? (g : Graph) (name : String) : Option Declaration :=
  (g.place? name).bind (g.types[·]?)

/-- The declaration that a name denotes inside a namespace. -/
def resolveIn? (g : Graph) (name ns : String) : Option Declaration :=
  let n := unrooted name
  match (scopes ns.toList).findSome? fun scope =>
      (g.resolve? (qualified scope n)).filter (·.fullName == qualified scope n) with
  | some d => some d
  | none => g.resolve? n

/-- The declaration of the base of a declared type. -/
def baseOf? (g : Graph) (d : Declaration) : Option Declaration :=
  d.base.bind fun base => g.resolveIn? base.name d.ns

/-! ### Places inside a namespace

The same look-ups, giving the place in the list instead of the declaration. -/

/-- The place of the declaration that `resolveIn?` finds. -/
def placeIn? (g : Graph) (name ns : String) : Option Nat :=
  let n := unrooted name
  match (scopes ns.toList).findSome? fun scope =>
      if (g.resolve? (qualified scope n)).any (·.fullName == qualified scope n) then
        g.place? (qualified scope n)
      else none with
  | some i => some i
  | none => g.place? n

/-- The place of the declaration that `baseOf?` finds. -/
def basePlace? (g : Graph) (d : Declaration) : Option Nat :=
  d.base.bind fun base => g.placeIn? base.name d.ns

/-! ### Documents -/

/-- The graph as JSON. -/
def toJson (g : Graph) : Json := .obj [("types", .arr (g.types.map Declaration.toJson))]

open Json.Document in
/-- The graph of a document. -/
def ofDocument : Json.Document → Except Json.Fault Graph :=
  readRecord ["types"] (none : Option (List Declaration))
    (fun types field d => once types field (d.readList Declaration.ofDocument))
    (fun _ types => .ok ⟨types.getD []⟩)

/-- The graph of a JSON text. -/
def ofText (text : String) : Except Json.Fault Graph := Json.Document.decodeText ofDocument text

end Graph

end ContentLoom

import ContentLoom.Declaration.Document

/-!
# Index of names

Where in a list the declarations with a name are.  The index is made in one pass
over the list.  A full name keeps the place of its first declaration; a simple
name has a place only as long as one declaration has it.
-/

namespace ContentLoom

/-- The places of declarations by name. -/
structure NameIndex where
  /-- The place of the first declaration with a full name. -/
  byFullName : Entries Nat
  /-- The place of the declaration with a simple name; no place where there are several. -/
  bySimpleName : Entries (Option Nat)

namespace NameIndex

/-- The index of no declarations. -/
def empty : NameIndex := ⟨[], []⟩

/-- Enters a declaration at a place. -/
def enter (ix : NameIndex) (d : Declaration) (place : Nat) : NameIndex where
  byFullName :=
    match ix.byFullName.get? d.fullName with
    | some _ => ix.byFullName
    | none => ix.byFullName.set d.fullName place
  bySimpleName :=
    match ix.bySimpleName.get? d.name with
    | some _ => ix.bySimpleName.set d.name none
    | none => ix.bySimpleName.set d.name (some place)

/-- The index of a list of declarations. -/
def ofTypes (types : List Declaration) : NameIndex :=
  types.zipIdx.foldl (fun ix e => ix.enter e.1 e.2) empty

/-- The place under a full name, or else under the simple name. -/
def place? (ix : NameIndex) (name : String) : Option Nat :=
  match ix.byFullName.get? name with
  | some place => some place
  | none => (ix.bySimpleName.get? (TypeRef.simpleOf name)).join

end NameIndex

end ContentLoom

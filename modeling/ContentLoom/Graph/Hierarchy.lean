import ContentLoom.Graph.Basic

/-!
# Hierarchies of types

The chain of bases of a declared type, and the search for an interface among
the types it can be reached from.  Both walks are bounded: a chain has at most
64 types, and a search looks at no more than 64 names.
-/

namespace ContentLoom

/-- The bases of a type, beginning with the type itself. -/
structure BaseChain where
  types : List Declaration
  /-- The chain comes back to one of its types, or is too long, and ends there. -/
  cyclic : Bool
  /-- The base of the last type, where it is not declared. -/
  undeclaredRoot : Option TypeRef
deriving Inhabited

namespace BaseChain

/-- The types from the root of the hierarchy on. -/
def rootFirst (c : BaseChain) : List Declaration := c.types.reverse

end BaseChain

namespace Graph

/-- The greatest number of types on a chain, and of names in a search. -/
def hierarchyLimit : Nat := 64

/-! ### Bases -/

/-- Follows the bases of a type while there is room for more and no name comes again. -/
def follow (g : Graph) : Nat → List String → Declaration → BaseChain
  | room, visited, current =>
    match current.base with
    | none => ⟨[current], false, none⟩
    | some written =>
      match g.resolveIn? written.name current.ns with
      | none => ⟨[current], false, some written⟩
      | some base =>
        match room with
        | 0 => ⟨[current], true, none⟩
        | room + 1 =>
          if visited.contains base.fullName then ⟨[current], true, none⟩
          else
            let above := follow g room (base.fullName :: visited) base
            ⟨current :: above.types, above.cyclic, above.undeclaredRoot⟩

/-- The chain of bases of a type. -/
def baseChain (g : Graph) (d : Declaration) : BaseChain :=
  g.follow (hierarchyLimit - 1) [d.fullName] d

/-! ### Interfaces -/

/-- The types of the framework that are known without a declaration, with their interfaces. -/
def frameworkTypes : List (String × List String) := [
  ("ContentData", ["IContentData"]), ("BlockData", ["IContentData"]),
  ("PageData", ["IContentData", "IContent"]), ("MediaData", ["IContentData", "IContent"]),
  ("ImageData", ["IContentData", "IContent"]), ("VideoData", ["IContentData", "IContent"])]

/-- Whether a type of the framework is known to have an interface. -/
def frameworkHas (simple interface : String) : Bool :=
  ((frameworkTypes.lookup simple).getD []).contains interface

/-- The name under which a type used by a declaration is searched further. -/
def onward (g : Graph) (d : Declaration) (written : TypeRef) : String :=
  match g.resolveIn? written.name d.ns with
  | some found => found.fullName
  | none => written.name

/-- The names that are searched after a declaration: its base, then its interfaces from the last
to the first. -/
def successors (g : Graph) (d : Declaration) : List String :=
  (d.base.map (g.onward d)).toList ++ (d.interfaces.map (g.onward d)).reverse

/-- Searches the pending names for an interface, the first one first, and what they lead to. -/
def searchInterface (g : Graph) (interface : String) :
    Nat → List String → List String → Option TypeRef
  | 0, _, _ => none
  | _ + 1, _, [] => none
  | room + 1, visited, name :: pending =>
    if visited.contains name then searchInterface g interface (room + 1) visited pending
    else if frameworkHas (TypeRef.simpleOf name) interface then some (.named interface)
    else
      match g.resolve? name with
      | none => searchInterface g interface room (name :: visited) pending
      | some d =>
        match d.interfaces.find? (·.simpleName == interface) with
        | some written => some written
        | none => searchInterface g interface room (name :: visited) (g.successors d ++ pending)
termination_by room _ pending => (room, pending.length)

/-- The interface with a simple name as a type has it, directly or through what it is made of. -/
def findInterface? (g : Graph) (type interface : String) : Option TypeRef :=
  g.searchInterface interface hierarchyLimit [] [type]

/-- Whether a type has an interface. -/
def implements (g : Graph) (type interface : String) : Bool :=
  (g.findInterface? type interface).isSome

end Graph

end ContentLoom

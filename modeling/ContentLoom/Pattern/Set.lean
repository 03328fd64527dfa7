import ContentLoom.Pattern.Escape
import ContentLoom.Text.Segments

/-!
# Sets of characters in patterns

A set stands in brackets and has characters, ranges of them, named kinds and
other sets as items; pairs of signs between items combine what stands on their
two sides.  Outside Unicode a set is one of bytes, and one that has bytes
beyond ASCII is refused; as such bytes only come in by a complement, a set has
either all of them or none.
-/

namespace ContentLoom.Pattern

/-- The height of what holds several parts: a single part stands for itself. -/
def joinedHeight : List Nat → Nat
  | [] => 0
  | [h] => h
  | hs => hs.foldl max 0 + 1

/-- How two sets are combined. -/
inductive SetOperation where
  | intersection
  | difference
  | symmetricDifference
deriving DecidableEq

/-- Whether a combined set has what its sides have or do not have. -/
def SetOperation.has : SetOperation → Bool → Bool → Bool
  | intersection, l, r => l && r
  | difference, l, r => l && !r
  | symmetricDifference, l, r => l != r

/-- What counts of a set: how deep it nests, and whether it has the bytes beyond ASCII. -/
structure SetExtent where
  height : Nat
  beyond : Bool
deriving DecidableEq

/-- A set whose bracket is open. -/
structure OpenSet where
  negated : Bool
  /-- What stands on the left of the operation that is being read. -/
  left : Option (SetOperation × SetExtent)
  /-- The heights of the items, the last one first. -/
  items : List Nat
  beyond : Bool
  /-- Whether only hyphens have been read, which stand for themselves there. -/
  fresh : Bool

namespace OpenSet

/-- A set with nothing in it yet. -/
def empty (negated : Bool) : OpenSet := ⟨negated, none, [], false, true⟩

/-- One more item. -/
def add (s : OpenSet) (item : SetExtent) : OpenSet :=
  { s with items := item.height :: s.items, beyond := s.beyond || item.beyond, fresh := false }

/-- What has been read up to here. -/
def extent (s : OpenSet) : SetExtent :=
  let right : SetExtent := ⟨joinedHeight s.items, s.beyond⟩
  match s.left with
  | none => right
  | some (op, left) => ⟨max left.height right.height + 1, op.has left.beyond right.beyond⟩

/-- The set up to here as the left side of an operation. -/
def combine (s : OpenSet) (op : SetOperation) : OpenSet :=
  { s with left := some (op, s.extent), items := [], beyond := false, fresh := false }

/-- The finished set, unless it has bytes beyond ASCII. -/
def close? (m : Mode) (s : OpenSet) : Option SetExtent :=
  let beyond := s.extent.beyond != s.negated
  if beyond && !m.unicode then none else some ⟨s.extent.height + 1, beyond⟩

end OpenSet

/-! ### Items -/

/-- The kinds of characters that have names. -/
def kindNames : List String :=
  ["alnum", "alpha", "ascii", "blank", "cntrl", "digit", "graph", "lower", "print", "punct",
    "space", "upper", "word", "xdigit"]

/-- A named kind after its bracket, whether it is the complement, and what follows it. -/
def namedKind? (cs : List Char) : Option (Bool × List Char) := do
  let cs ← Text.afterPrefix? [':'] cs
  let (negated, cs) := match cs with
    | '^' :: rest => (true, rest)
    | _ => (false, cs)
  let (name, rest) ← Text.cutFirst? ':' cs
  let rest ← Text.afterPrefix? [']'] rest
  if kindNames.contains (String.ofList name) then some (negated, rest) else none

/-- A character of a set, or none for a kind of characters. -/
def setItem? (m : Mode) : List Char → Option (Option Char × List Char)
  | [] => none
  | '\\' :: rest => do
    match ← escape? m rest with
    | (.char c, rest) => if m.hasItem c then some (some c, rest) else none
    | (.kind, rest) => some (none, rest)
    | (.place, _) => none
  | c :: rest => if m.hasItem c then some (some c, rest) else none

/-- Whether a hyphen stands for itself before these characters. -/
def endsRange : List Char → Bool
  | ']' :: _ => true
  | '-' :: _ => true
  | _ => false

/-- What is left after an item or a range of characters. -/
def setRange? (m : Mode) (cs : List Char) : Option (List Char) := do
  let (first, rest) ← setItem? m cs
  match m.skip rest with
  | '-' :: rest =>
    if endsRange (m.skip rest) then some ('-' :: rest)
    else
      match first, ← setItem? m (m.skip rest) with
      | some low, (some high, rest) => if low ≤ high then some rest else none
      | _, _ => none
  | rest => some rest

/-! ### Sets -/

/-- A set after its bracket, with nothing read but the sign of a complement. -/
def openSet (m : Mode) (cs : List Char) : OpenSet × List Char :=
  match m.skip cs with
  | '^' :: rest => (.empty true, rest)
  | rest => (.empty false, rest)

/-- The set that is read, and the sets around it. -/
structure SetProgress where
  current : OpenSet
  outer : List OpenSet
  rest : List Char

namespace SetProgress

/-- One more item of the current set. -/
def add (p : SetProgress) (item : SetExtent) (rest : List Char) : SetProgress :=
  { p with current := p.current.add item, rest := rest }

/-- Combines what has been read with what follows. -/
def combine (p : SetProgress) (op : SetOperation) (rest : List Char) : SetProgress :=
  { p with current := p.current.combine op, rest := rest }

/-- Reads what begins with a character. -/
def step? (m : Mode) (p : SetProgress) : List Char → Option SetProgress
  | [] => none
  | '[' :: rest =>
    match namedKind? rest with
    | some (negated, rest) =>
      if m.comparesChars then some (p.add ⟨0, negated⟩ rest) else none
    | none =>
      let (inner, rest) := openSet m rest
      some ⟨inner, p.current :: p.outer, rest⟩
  | '&' :: '&' :: rest => some (p.combine .intersection rest)
  | '-' :: '-' :: rest => some (p.combine .difference rest)
  | '~' :: '~' :: rest => some (p.combine .symmetricDifference rest)
  | cs => (setRange? m cs).map (p.add ⟨0, false⟩)

/-- Reads up to the bracket that ends the outermost set; gives its height and what follows it. -/
def finish? (m : Mode) : Nat → SetProgress → Option (Nat × List Char)
  | 0, _ => none
  | fuel + 1, p =>
    match m.skip p.rest with
    | [] => none
    | c :: rest =>
      if p.current.fresh ∧ (c = '-' ∨ (c = ']' ∧ p.current.items = [])) then
        if m.comparesChars then
          let read := p.current.add ⟨0, false⟩
          finish? m fuel { p with current := { read with fresh := c = '-' }, rest := rest }
        else none
      else if c = ']' then do
        let extent ← p.current.close? m
        match p.outer with
        | [] => some (extent.height, rest)
        | around :: outer => finish? m fuel ⟨around.add extent, outer, rest⟩
      else do
        let p ← step? m { p with current := { p.current with fresh := false } } (c :: rest)
        finish? m fuel p

end SetProgress

/-- The height of the set at the beginning of a text after its bracket, and what follows the
set. -/
def set? (m : Mode) (cs : List Char) : Option (Nat × List Char) :=
  let (opened, rest) := openSet m cs
  SetProgress.finish? m (cs.length + 1) ⟨opened, [], rest⟩

end ContentLoom.Pattern

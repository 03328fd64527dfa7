import ContentLoom.Content.Value

/-!
# Content store

Items and their addresses in memory, each under its reference, in increasing
order of references.  Languages do not count, and an item has at most one
address.
-/

namespace ContentLoom

/-- Values by reference. -/
abbrev ByReference (α : Type) := List (ContentReference × α)

namespace ByReference

variable {α : Type}

/-- Stores a value under a reference so that the references stay increasing. -/
def insert : ByReference α → ContentReference → α → ByReference α
  | [], r, value => [(r, value)]
  | (k, v) :: rest, r, value =>
    if k = r then (r, value) :: rest
    else if r.id < k.id then (r, value) :: (k, v) :: rest
    else (k, v) :: insert rest r value

/-- The value stored under a reference. -/
def get? (values : ByReference α) (r : ContentReference) : Option α := values.lookup r

end ByReference

/-- A store of content. -/
structure ContentStore where
  items : ByReference ContentItem
  addresses : ByReference String

namespace ContentStore

/-- The store without content. -/
def empty : ContentStore := ⟨[], []⟩

/-- Stores an item under its own reference. -/
def insert (s : ContentStore) (item : ContentItem) : ContentStore :=
  { s with items := s.items.insert item.reference item }

/-- Stores an item and gives it an address. -/
def publish (s : ContentStore) (item : ContentItem) (address : String) : ContentStore :=
  { s.insert item with addresses := s.addresses.insert item.reference address }

/-- The item under a reference; the empty reference never has one. -/
def load? (s : ContentStore) (r : ContentReference) : Option ContentItem :=
  if r.isEmpty then none else s.items.get? r

/-- The address of the item under a reference. -/
def addressOf? (s : ContentStore) (r : ContentReference) : Option String := s.addresses.get? r

/-- An address without query and fragment. -/
def path (address : String) : String :=
  String.ofList (address.toList.takeWhile fun c => c ≠ '?' ∧ c ≠ '#')

/-- The least reference that is published at an address. -/
def route? (s : ContentStore) (address : String) : Option ContentReference :=
  (s.addresses.find? (·.2 == path address)).map Prod.fst

/-- The number of items. -/
def size (s : ContentStore) : Nat := s.items.length

end ContentStore

end ContentLoom

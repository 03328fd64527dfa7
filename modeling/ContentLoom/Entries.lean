/-!
# Association lists by name

Named entries in one of two orders.  `set` keeps the order of first insertion
and replaces the value of a known name in place; `insert` keeps the names
increasing by code point.  Both leave every name at most once.
-/

namespace ContentLoom

/-- Entries by name. -/
abbrev Entries (α : Type) := List (String × α)

namespace Entries

variable {α : Type}

/-- The value stored under a name. -/
def get? : Entries α → String → Option α
  | [], _ => none
  | (k, v) :: rest, name => if k = name then some v else get? rest name

/-- The names in order. -/
def names (es : Entries α) : List String := es.map Prod.fst

/-- Stores a value under a name: in place of the old one, or at the end. -/
def set : Entries α → String → α → Entries α
  | [], name, value => [(name, value)]
  | (k, v) :: rest, name, value =>
    if k = name then (k, value) :: rest else (k, v) :: set rest name value

/-- Stores a value under a name so that the names stay increasing. -/
def insert : Entries α → String → α → Entries α
  | [], name, value => [(name, value)]
  | (k, v) :: rest, name, value =>
    if k = name then (name, value) :: rest
    else if name < k then (name, value) :: (k, v) :: rest
    else (k, v) :: insert rest name value

/-- The entries without those under a name. -/
def erase (es : Entries α) (name : String) : Entries α := es.filter fun e => e.1 != name

/-- The entries in increasing order of names; of two with one name the later stays. -/
def sorted (es : Entries α) : Entries α := es.foldl (fun acc e => acc.insert e.1 e.2) []

/-- The entries with each name once, at its first place and with its last value. -/
def collapsed (es : Entries α) : Entries α := es.foldl (fun acc e => acc.set e.1 e.2) []

/-! ### Look-up after a change -/

theorem get?_set_self (es : Entries α) (name : String) (value : α) :
    (es.set name value).get? name = some value := by
  induction es with
  | nil => simp [set, get?]
  | cons e rest ih =>
    obtain ⟨k, v⟩ := e
    by_cases h : k = name <;> simp [set, get?, h, ih]

theorem get?_set_of_ne (es : Entries α) (name other : String) (value : α) (h : other ≠ name) :
    (es.set name value).get? other = es.get? other := by
  induction es with
  | nil => simp [set, get?, Ne.symm h]
  | cons e rest ih =>
    obtain ⟨k, v⟩ := e
    by_cases hk : k = name
    · subst hk
      simp [set, get?, Ne.symm h]
    · by_cases ho : k = other
      · subst ho
        simp [set, get?, hk]
      · simp [set, get?, hk, ho, ih]

theorem names_set_of_mem (es : Entries α) (name : String) (value : α) (h : name ∈ es.names) :
    (es.set name value).names = es.names := by
  induction es with
  | nil => simp [names] at h
  | cons e rest ih =>
    obtain ⟨k, v⟩ := e
    by_cases hk : k = name
    · simp [set, names, hk]
    · have hr : name ∈ names rest := by
        simpa [names, Ne.symm hk] using h
      simpa [set, names, hk] using ih hr

theorem names_set_of_not_mem (es : Entries α) (name : String) (value : α)
    (h : name ∉ es.names) : (es.set name value).names = es.names ++ [name] := by
  induction es with
  | nil => simp [set, names]
  | cons e rest ih =>
    obtain ⟨k, v⟩ := e
    simp only [names, List.map_cons, List.mem_cons, not_or] at h
    obtain ⟨hk, hr⟩ := h
    have := ih hr
    simp [set, names, Ne.symm hk] at this ⊢
    exact this

end Entries

end ContentLoom

import ContentLoom.Entries

/-!
# Dictionaries

Named entries whose names increase by code point.  The order is part of the
type, so two dictionaries with the same entries are equal.
-/

namespace ContentLoom

namespace Entries

variable {α : Type}

/-- The names increase strictly. -/
def Increasing (es : Entries α) : Prop := es.names.Pairwise (· < ·)

theorem mem_names_insert {es : Entries α} {name n : String} {value : α}
    (h : n ∈ (es.insert name value).names) : n = name ∨ n ∈ es.names := by
  induction es with
  | nil => simpa [insert, names] using h
  | cons e rest ih =>
    obtain ⟨k, v⟩ := e
    unfold insert at h
    split at h
    · rename_i hk
      subst hk
      simpa [names] using h
    · split at h
      · simpa [names] using h
      · simp only [names, List.map_cons, List.mem_cons] at h ⊢
        rcases h with h | h
        · exact Or.inr (Or.inl h)
        · rcases ih h with h | h
          · exact Or.inl h
          · exact Or.inr (Or.inr h)

theorem Increasing.insert {es : Entries α} (h : es.Increasing) (name : String) (value : α) :
    (es.insert name value).Increasing := by
  induction es with
  | nil => simp [Entries.insert, Increasing, names]
  | cons e rest ih =>
    obtain ⟨k, v⟩ := e
    have hrest : Increasing rest := (List.pairwise_cons.1 h).2
    have hk : ∀ n ∈ names rest, k < n := (List.pairwise_cons.1 h).1
    unfold Entries.insert
    split
    · rename_i heq
      subst heq
      exact h
    · split
      · rename_i hlt
        refine List.pairwise_cons.2 ⟨?_, h⟩
        intro n hn
        simp only [List.map_cons, List.mem_cons] at hn
        rcases hn with rfl | hn
        · exact hlt
        · exact String.lt_trans hlt (hk n hn)
      · rename_i hne hnlt
        refine List.pairwise_cons.2 ⟨?_, ih hrest⟩
        intro n hn
        rcases mem_names_insert hn with rfl | hn
        · grind
        · exact hk n hn

end Entries

/-- Entries whose names increase. -/
structure Dictionary (α : Type) where
  entries : Entries α
  increasing : entries.Increasing

namespace Dictionary

variable {α : Type}

/-- The dictionary without entries. -/
def empty : Dictionary α := ⟨[], by simp [Entries.Increasing, Entries.names]⟩

instance : Inhabited (Dictionary α) := ⟨empty⟩

instance [DecidableEq α] : DecidableEq (Dictionary α) := fun a b =>
  if h : a.entries = b.entries then
    isTrue (by cases a; cases b; simp_all)
  else isFalse fun hab => h (by rw [hab])

/-- Stores a value under a name. -/
def insert (d : Dictionary α) (name : String) (value : α) : Dictionary α :=
  ⟨d.entries.insert name value, d.increasing.insert name value⟩

/-- The value stored under a name. -/
def get? (d : Dictionary α) (name : String) : Option α := d.entries.get? name

/-- The names in increasing order. -/
def names (d : Dictionary α) : List String := d.entries.names

/-- The dictionary of some entries; of two with one name the later stays. -/
def ofEntries (es : Entries α) : Dictionary α :=
  es.foldl (fun d e => d.insert e.1 e.2) empty

/-- The dictionary without a name. -/
def erase (d : Dictionary α) (name : String) : Dictionary α :=
  ⟨d.entries.erase name, d.increasing.sublist (List.filter_sublist.map Prod.fst)⟩

/-- The dictionary with every value changed. -/
def map {β : Type} (f : α → β) (d : Dictionary α) : Dictionary β :=
  ⟨d.entries.map fun e => (e.1, f e.2), by
    have h : Entries.names (d.entries.map fun e => (e.1, f e.2)) = d.entries.names := by
      simp [Entries.names, Function.comp_def]
    simpa [Entries.Increasing, h] using d.increasing⟩

/-- Whether a name has a value. -/
def contains (d : Dictionary α) (name : String) : Bool := (d.get? name).isSome

end Dictionary

end ContentLoom

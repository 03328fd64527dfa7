import ContentLoom.Dictionary
import Mathlib.Data.List.Nodup

/-!
# Look-up in dictionaries

Storing or removing a value changes what is found under its own name only, and
a dictionary is known by what is found in it.
-/

namespace ContentLoom

namespace Entries

variable {α : Type}

/-! ### Look-up -/

theorem get?_insert (es : Entries α) (name other : String) (value : α) :
    (es.insert name value).get? other = if other = name then some value else es.get? other := by
  induction es with
  | nil =>
    by_cases hother : other = name
    · simp [Entries.insert, get?, hother]
    · simp [Entries.insert, get?, hother, Ne.symm hother]
  | cons e rest ih =>
    obtain ⟨k, v⟩ := e
    unfold Entries.insert
    by_cases hk : k = name
    · subst hk
      by_cases hother : other = k
      · simp [get?, hother]
      · simp [get?, hother, Ne.symm hother]
    · rw [if_neg hk]
      by_cases hother : other = name
      · subst hother
        split
        · simp [get?]
        · simp [get?, hk, ih]
      · split
        · simp [get?, Ne.symm hother]
        · simp [get?, hother, ih]

theorem get?_map {β : Type} (f : α → β) (es : Entries α) (name : String) :
    get? (es.map fun e => (e.1, f e.2)) name = (es.get? name).map f := by
  induction es with
  | nil => rfl
  | cons e rest ih =>
    obtain ⟨k, v⟩ := e
    by_cases hk : k = name
    · simp [get?, hk]
    · simpa [get?, hk] using ih

theorem get?_erase (es : Entries α) (name other : String) :
    (es.erase name).get? other = if other = name then none else es.get? other := by
  induction es with
  | nil => simp [erase, get?]
  | cons e rest ih =>
    obtain ⟨k, v⟩ := e
    by_cases hk : k = name
    · have hdropped : erase ((k, v) :: rest) name = erase rest name := by simp [erase, hk]
      rw [hdropped, ih]
      by_cases hother : other = name
      · rw [if_pos hother, if_pos hother]
      · have hne : k ≠ other := fun h => hother (h.symm.trans hk)
        rw [if_neg hother, if_neg hother, get?, if_neg hne]
    · have hkept : erase ((k, v) :: rest) name = (k, v) :: erase rest name := by simp [erase, hk]
      rw [hkept, get?, get?, ih]
      by_cases hother : k = other
      · rw [if_pos hother, if_pos hother, if_neg (hother ▸ hk)]
      · rw [if_neg hother, if_neg hother]

theorem isSome_get? (es : Entries α) (name : String) :
    (es.get? name).isSome = true ↔ name ∈ es.names := by
  induction es with
  | nil => simp [get?, names]
  | cons e rest ih =>
    obtain ⟨k, v⟩ := e
    have hnames : name ∈ names ((k, v) :: rest) ↔ name = k ∨ name ∈ names rest := by simp [names]
    rw [hnames, ← ih]
    by_cases hk : k = name
    · simp [get?, hk]
    · simp [get?, hk, Ne.symm hk]

theorem get?_of_mem {es : Entries α} (hnodup : es.names.Nodup) {name : String} {value : α}
    (h : (name, value) ∈ es) : es.get? name = some value := by
  induction es with
  | nil => cases h
  | cons e rest ih =>
    obtain ⟨k, v⟩ := e
    obtain ⟨hfresh, hrest⟩ := List.nodup_cons.1 hnodup
    rcases List.mem_cons.1 h with h | h
    · cases h
      rw [get?, if_pos rfl]
    · have hname : name ∈ names rest := List.mem_map_of_mem h
      have hne : k ≠ name := by
        rintro rfl
        exact hfresh hname
      rw [get?, if_neg hne, ih hrest h]

theorem mem_of_get? {es : Entries α} {name : String} {value : α}
    (h : es.get? name = some value) : (name, value) ∈ es := by
  induction es with
  | nil => cases h
  | cons e rest ih =>
    obtain ⟨k, v⟩ := e
    by_cases hk : k = name
    · rw [get?, if_pos hk, Option.some.injEq] at h
      rw [hk, h]
      exact List.mem_cons_self ..
    · rw [get?, if_neg hk] at h
      exact List.mem_cons_of_mem _ (ih h)

/-- The order of entries with distinct names does not matter. -/
theorem get?_of_perm {es es' : Entries α} (hnodup : es.names.Nodup) (h : es.Perm es')
    (name : String) : es'.get? name = es.get? name := by
  have hnodup' : es'.names.Nodup := (h.map Prod.fst).nodup_iff.1 hnodup
  refine Option.ext fun value => ⟨fun hfound => ?_, fun hfound => ?_⟩
  · exact get?_of_mem hnodup (h.mem_iff.2 (mem_of_get? hfound))
  · exact get?_of_mem hnodup' (h.mem_iff.1 (mem_of_get? hfound))

/-! ### Collapsed entries -/

theorem set_of_not_mem {es : Entries α} {name : String} (h : name ∉ es.names) (value : α) :
    es.set name value = es ++ [(name, value)] := by
  induction es with
  | nil => rfl
  | cons e rest ih =>
    obtain ⟨k, v⟩ := e
    obtain ⟨hk, hrest⟩ : name ≠ k ∧ name ∉ names rest := by simpa [names] using h
    rw [set, if_neg (Ne.symm hk), ih hrest, List.cons_append]

theorem foldl_set_of_nodup (es acc : Entries α) (h : (names (acc ++ es)).Nodup) :
    es.foldl (fun acc e => acc.set e.1 e.2) acc = acc ++ es := by
  induction es generalizing acc with
  | nil => rw [List.foldl_nil, List.append_nil]
  | cons e rest ih =>
    obtain ⟨k, v⟩ := e
    have hfresh : k ∉ names acc := by
      intro hmem
      rw [names, List.map_append, List.nodup_append] at h
      exact h.2.2 k hmem k (List.mem_cons_self ..) rfl
    have hshift : acc ++ (k, v) :: rest = (acc ++ [(k, v)]) ++ rest := by simp
    rw [hshift] at h ⊢
    rw [List.foldl_cons, set_of_not_mem hfresh, ih _ h]

/-- Entries without a repeated name are left as they are. -/
theorem collapsed_of_nodup {es : Entries α} (h : es.names.Nodup) : es.collapsed = es :=
  foldl_set_of_nodup es [] h

theorem names_set (es : Entries α) (name : String) (value : α) :
    (es.set name value).names = if name ∈ es.names then es.names else es.names ++ [name] := by
  split
  · exact names_set_of_mem es name value ‹_›
  · exact names_set_of_not_mem es name value ‹_›

theorem nodup_set {es : Entries α} (h : es.names.Nodup) (name : String) (value : α) :
    (es.set name value).names.Nodup := by
  rw [names_set]
  split
  · exact h
  · rename_i hfresh
    refine List.nodup_append.2 ⟨h, List.nodup_singleton _, ?_⟩
    rintro a ha b hb rfl
    exact hfresh (List.mem_singleton.1 hb ▸ ha)

theorem nodup_foldl_set (es acc : Entries α) (h : acc.names.Nodup) :
    (names (es.foldl (fun acc e => acc.set e.1 e.2) acc)).Nodup := by
  induction es generalizing acc with
  | nil => exact h
  | cons e rest ih => exact ih _ (nodup_set h e.1 e.2)

theorem nodup_collapsed (es : Entries α) : es.collapsed.names.Nodup :=
  nodup_foldl_set es [] List.nodup_nil

theorem mem_set {es : Entries α} {name : String} {value : α} {e : String × α}
    (h : e ∈ es.set name value) : e ∈ es ∨ e = (name, value) := by
  induction es with
  | nil => exact Or.inr (List.mem_singleton.1 h)
  | cons first rest ih =>
    obtain ⟨k, v⟩ := first
    unfold set at h
    split at h
    · rename_i hname
      rcases List.mem_cons.1 h with rfl | h
      · exact Or.inr (by rw [hname])
      · exact Or.inl (List.mem_cons_of_mem _ h)
    · rcases List.mem_cons.1 h with rfl | h
      · exact Or.inl (List.mem_cons_self ..)
      · exact (ih h).imp_left (List.mem_cons_of_mem _)

theorem mem_foldl_set {es acc : Entries α} {e : String × α}
    (h : e ∈ es.foldl (fun acc e => acc.set e.1 e.2) acc) : e ∈ acc ∨ e ∈ es := by
  induction es generalizing acc with
  | nil => exact Or.inl h
  | cons first rest ih =>
    rcases ih h with h | h
    · rcases mem_set h with h | rfl
      · exact Or.inl h
      · exact Or.inr (List.mem_cons_self ..)
    · exact Or.inr (List.mem_cons_of_mem _ h)

theorem mem_of_mem_collapsed {es : Entries α} {e : String × α} (h : e ∈ es.collapsed) : e ∈ es :=
  (mem_foldl_set h).resolve_left nofun

/-! ### Sorted entries -/

theorem mem_names_insert_iff (es : Entries α) (name other : String) (value : α) :
    other ∈ (es.insert name value).names ↔ other = name ∨ other ∈ es.names := by
  rw [← isSome_get?, ← isSome_get?, get?_insert]
  by_cases hother : other = name <;> simp [hother]

theorem foldl_insert (es acc : Entries α) (h : acc.Increasing) :
    (es.foldl (fun acc e => acc.insert e.1 e.2) acc).Increasing ∧
      ∀ name, name ∈ (es.foldl (fun acc e => acc.insert e.1 e.2) acc).names ↔
        name ∈ acc.names ∨ name ∈ es.names := by
  induction es generalizing acc with
  | nil => exact ⟨h, fun name => by simp [names]⟩
  | cons e rest ih =>
    obtain ⟨hincreasing, hmem⟩ := ih (acc.insert e.1 e.2) (h.insert e.1 e.2)
    refine ⟨hincreasing, fun name => ?_⟩
    have hall : name ∈ names (e :: rest) ↔ name = e.1 ∨ name ∈ names rest := by simp [names]
    rw [List.foldl_cons, hmem name, mem_names_insert_iff, hall, or_assoc, or_left_comm]

theorem sorted_increasing (es : Entries α) : es.sorted.Increasing :=
  (foldl_insert es [] List.Pairwise.nil).1

theorem mem_names_sorted (es : Entries α) (name : String) :
    name ∈ es.sorted.names ↔ name ∈ es.names := by
  have hmem := (foldl_insert es [] List.Pairwise.nil).2 name
  unfold sorted
  rw [hmem]
  simp [names]

namespace Increasing

variable {es other : Entries α}

theorem nodup (h : es.Increasing) : es.names.Nodup := List.Pairwise.imp String.ne_of_lt h

theorem mem_iff (h : es.Increasing) (name : String) (value : α) :
    (name, value) ∈ es ↔ es.get? name = some value :=
  ⟨get?_of_mem h.nodup, mem_of_get?⟩

/-- Entries with increasing names are known by what is found in them. -/
theorem ext (h : es.Increasing) (hother : other.Increasing)
    (hget : ∀ name, es.get? name = other.get? name) : es = other := by
  have hmem : ∀ e, e ∈ es ↔ e ∈ other := by
    intro ⟨name, value⟩
    rw [h.mem_iff, hother.mem_iff, hget]
  have hperm : es.Perm other :=
    (List.perm_ext_iff_of_nodup (List.Nodup.of_map Prod.fst h.nodup)
      (List.Nodup.of_map Prod.fst hother.nodup)).2 hmem
  have hanti (a b : String × α) : a ∈ es → b ∈ other → a.1 < b.1 → b.1 < a.1 → a = b :=
    fun _ _ hab hba => absurd hba (String.lt_asymm hab)
  exact hperm.eq_of_pairwise hanti (List.pairwise_map.1 h) (List.pairwise_map.1 hother)

end Increasing

end Entries

namespace Dictionary

variable {α : Type}

theorem ext_get? {d other : Dictionary α} (h : ∀ name, d.get? name = other.get? name) :
    d = other := by
  obtain ⟨es, hes⟩ := d
  obtain ⟨others, hothers⟩ := other
  obtain rfl : es = others := hes.ext hothers h
  rfl

theorem get?_insert (d : Dictionary α) (name other : String) (value : α) :
    (d.insert name value).get? other = if other = name then some value else d.get? other :=
  Entries.get?_insert d.entries name other value

theorem get?_erase (d : Dictionary α) (name other : String) :
    (d.erase name).get? other = if other = name then none else d.get? other :=
  Entries.get?_erase d.entries name other

theorem contains_iff (d : Dictionary α) (name : String) :
    d.contains name = true ↔ name ∈ d.names := Entries.isSome_get? d.entries name

/-- Where no name comes twice, each is found with its value. -/
theorem get?_foldl_insert (es : Entries α) (hnodup : es.names.Nodup) (d : Dictionary α)
    (name : String) :
    (es.foldl (fun d e => d.insert e.1 e.2) d).get? name = (es.get? name).or (d.get? name) := by
  induction es generalizing d with
  | nil => rfl
  | cons e rest ih =>
    obtain ⟨k, v⟩ := e
    obtain ⟨hfresh, hrest⟩ := List.nodup_cons.1 hnodup
    rw [List.foldl_cons, ih hrest, get?_insert]
    by_cases hk : k = name
    · subst hk
      have hnone : Entries.get? rest k = none := by
        rw [← Option.not_isSome_iff_eq_none, Entries.isSome_get?]
        exact hfresh
      simp [Entries.get?, hnone]
    · simp [Entries.get?, hk, Ne.symm hk]

theorem get?_ofEntries (es : Entries α) (hnodup : es.names.Nodup) (name : String) :
    (ofEntries es).get? name = es.get? name := by
  rw [ofEntries, get?_foldl_insert es hnodup, show (empty : Dictionary α).get? name = none from rfl,
    Option.or_none]

theorem ofEntries_entries (d : Dictionary α) : ofEntries d.entries = d :=
  ext_get? fun name => get?_ofEntries d.entries d.increasing.nodup name

theorem entries_ofEntries (es : Entries α) : (ofEntries es).entries = es.sorted := by
  have hentries (d : Dictionary α) : (es.foldl (fun d e => d.insert e.1 e.2) d).entries =
      es.foldl (fun acc e => acc.insert e.1 e.2) d.entries := by
    induction es generalizing d with
    | nil => rfl
    | cons e rest ih => exact ih (d.insert e.1 e.2)
  exact hentries empty

/-- The names are those of the entries, each of them once. -/
theorem mem_names_ofEntries (es : Entries α) (name : String) :
    name ∈ (ofEntries es).names ↔ name ∈ es.names := by
  rw [names, entries_ofEntries]
  exact Entries.mem_names_sorted es name

end Dictionary

theorem Entries.Increasing.sorted {α : Type} {es : Entries α} (h : es.Increasing) :
    es.sorted = es := by
  rw [← Dictionary.entries_ofEntries]
  exact congrArg Dictionary.entries (Dictionary.ofEntries_entries ⟨es, h⟩)

end ContentLoom

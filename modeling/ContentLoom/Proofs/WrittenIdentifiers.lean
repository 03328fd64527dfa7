import ContentLoom.Proofs.ClassOrder
import ContentLoom.Proofs.ReportCodes
import Mathlib.Data.List.Count

/-!
# Identifiers that are written twice

A class whose written identifier an earlier class has written too is reported
with the first such class.  How often an identifier is reported depends only on
how many classes have written it; which of them comes first depends on the order
of declarations.
-/

namespace ContentLoom.Resolution

open Watched

/-! ### Pairs of classes -/

/-- The first of some classes that has the written identifier of a class. -/
def sharedWith? (known : List ContentClass) (r : Resolved) : Option ContentClass :=
  if r.explicit then known.find? (·.stableId == r.contentClass.stableId) else none

/-- The classes with their written identifiers after one more class. -/
def remember (known : List ContentClass) (r : Resolved) : List ContentClass :=
  if r.explicit ∧ sharedWith? known r = none then r.contentClass :: known else known

/-- The classes that have a written identifier of an earlier class, each with the first one. -/
def sharedIds : List ContentClass → List Resolved → List (ContentClass × ContentClass)
  | _, [] => []
  | known, r :: rest =>
    ((sharedWith? known r).map (r.contentClass, ·)).toList ++ sharedIds (remember known r) rest

/-- Identifiers with the names of their classes. -/
def entriesOf (known : List ContentClass) : List (Identifier × String) :=
  known.map fun c => (c.stableId, c.fullName)

theorem lookup_entriesOf (known : List ContentClass) (id : Identifier) :
    (entriesOf known).lookup id = (known.find? (·.stableId == id)).map (·.fullName) := by
  induction known with
  | nil => rfl
  | cons c known ih =>
    simp only [entriesOf, List.map_cons, List.lookup_cons, List.find?_cons]
    by_cases hid : id = c.stableId
    · simp [hid]
    · have hne : (id == c.stableId) = false := by simpa using hid
      have hne' : (c.stableId == id) = false := by simpa using Ne.symm hid
      rw [hne, hne']
      exact ih

theorem idReport_entriesOf (known : List ContentClass) (r : Resolved) :
    idReport (entriesOf known) r =
      (sharedWith? known r).map fun first => duplicateId r.contentClass first.fullName := by
  unfold idReport sharedWith?
  split
  · rw [lookup_entriesOf, Option.map_map]
    rfl
  · rfl

theorem learn_entriesOf (known : List ContentClass) (r : Resolved) :
    learn (entriesOf known) r = entriesOf (remember known r) := by
  unfold learn remember sharedWith?
  rw [lookup_entriesOf]
  by_cases hexplicit : r.explicit = true
  · cases hfind : known.find? (·.stableId == r.contentClass.stableId) with
    | none => simp [hexplicit, entriesOf]
    | some first => simp [hexplicit]
  · simp [hexplicit]

/-! ### Reports of a graph -/

/-- The reports that do not concern doubled identifiers. -/
def others (ds : List Diagnostic) : List Diagnostic := ds.filter (·.code != .duplicateStableId)

/-- The reports of doubled identifiers. -/
def doubled (ds : List Diagnostic) : List Diagnostic :=
  Diagnostic.withCode ds .duplicateStableId

theorem others_append (ds es : List Diagnostic) : others (ds ++ es) = others ds ++ others es :=
  List.filter_append ..

theorem doubled_append (ds es : List Diagnostic) : doubled (ds ++ es) = doubled ds ++ doubled es :=
  List.filter_append ..

theorem told_eachActs_of_none {g : Graph} {d : Declaration} (h : origin? g d = none)
    (known : List ContentClass) (ds : List Declaration) :
    told (eachActs g (entriesOf known) (d :: ds)) =
      told (originActs g d) ++ told (eachActs g (entriesOf known) ds) := by
  rw [eachActs, told_look, told_append, h]

theorem told_eachActs_of_some {g : Graph} {d : Declaration} {r : Resolved}
    (h : origin? g d = some r) (known : List ContentClass) (ds : List Declaration) :
    told (eachActs g (entriesOf known) (d :: ds)) =
      told (originActs g d) ++
        (((sharedWith? known r).map fun first =>
            duplicateId r.contentClass first.fullName).toList ++
          told (eachActs g (entriesOf (remember known r)) ds)) := by
  rw [eachActs, told_look, told_append, h]
  simp only
  rw [told_append, told_map_tell, idReport_entriesOf, learn_entriesOf]

theorem others_told_eachActs (g : Graph) (known : List ContentClass) (ds : List Declaration) :
    others (told (eachActs g (entriesOf known) ds)) =
      ds.flatMap fun d => told (originActs g d) := by
  induction ds generalizing known with
  | nil => rfl
  | cons d ds ih =>
    have hown : others (told (originActs g d)) = told (originActs g d) := by
      apply List.filter_eq_self.2
      intro r hr
      have hcode : r.code ≠ .duplicateStableId := fun h => originActs_code hr (Or.inl h)
      simpa using hcode
    cases horigin : origin? g d with
    | none =>
      rw [told_eachActs_of_none horigin, others_append, hown, ih, List.flatMap_cons]
    | some r =>
      have hid : others ((sharedWith? known r).map fun first =>
          duplicateId r.contentClass first.fullName).toList = [] := by
        cases sharedWith? known r <;> rfl
      rw [told_eachActs_of_some horigin, others_append, others_append, hown, hid, ih,
        List.nil_append, List.flatMap_cons]

theorem doubled_told_eachActs (g : Graph) (known : List ContentClass) (ds : List Declaration) :
    doubled (told (eachActs g (entriesOf known) ds)) =
      (sharedIds known (ds.filterMap (origin? g))).map fun p =>
        duplicateId p.1 p.2.fullName := by
  induction ds generalizing known with
  | nil => rfl
  | cons d ds ih =>
    have hown : doubled (told (originActs g d)) = [] := by
      apply List.filter_eq_nil_iff.2
      intro r hr
      have hcode : r.code ≠ .duplicateStableId := fun h => originActs_code hr (Or.inl h)
      simpa using hcode
    rw [List.filterMap_cons]
    cases horigin : origin? g d with
    | none => rw [told_eachActs_of_none horigin, doubled_append, hown, ih, List.nil_append]
    | some r =>
      have hid : doubled ((sharedWith? known r).map fun first =>
          duplicateId r.contentClass first.fullName).toList =
          ((sharedWith? known r).map (r.contentClass, ·)).toList.map fun p =>
            duplicateId p.1 p.2.fullName := by
        cases sharedWith? known r <;> rfl
      rw [told_eachActs_of_some horigin, doubled_append, doubled_append, hown, hid, ih,
        List.nil_append, sharedIds, List.map_append]

/-! ### What the pairs share -/

theorem stableId_mem_of_find? {known : List ContentClass} {id : Identifier} {first : ContentClass}
    (h : known.find? (·.stableId == id) = some first) :
    first ∈ known ∧ first.stableId = id :=
  ⟨List.mem_of_find?_eq_some h, by simpa using List.find?_some h⟩

/-- An identifier is reported once for each class that has written it but the first. -/
theorem count_sharedIds (known : List ContentClass) (rs : List Resolved) (id : Identifier) :
    ((sharedIds known rs).map (·.1.stableId)).count id =
      ((rs.filter (·.explicit)).map (·.contentClass.stableId)).count id -
        if id ∈ known.map (·.stableId) then 0 else 1 := by
  induction rs generalizing known with
  | nil => simp [sharedIds]
  | cons r rs ih =>
    rw [sharedIds, List.map_append, List.count_append, ih, List.filter_cons]
    by_cases hexplicit : r.explicit = true
    · cases hfind : known.find? (·.stableId == r.contentClass.stableId) with
      | none =>
        have hnew : r.contentClass.stableId ∉ known.map (·.stableId) := by
          simpa using hfind
        by_cases hid : r.contentClass.stableId = id
        · subst hid
          simp [sharedWith?, remember, hexplicit, hfind, hnew]
        · simp [sharedWith?, remember, hexplicit, hfind, hid, Ne.symm hid]
      | some first =>
        have hold := stableId_mem_of_find? hfind
        have hmem : r.contentClass.stableId ∈ known.map (·.stableId) := by
          rw [← hold.2]
          exact List.mem_map_of_mem hold.1
        by_cases hid : r.contentClass.stableId = id
        · subst hid
          simp [sharedWith?, remember, hexplicit, hfind, hmem]
          omega
        · simp [sharedWith?, remember, hexplicit, hfind, hid]
    · simp [sharedWith?, remember, hexplicit]

theorem sharedWith?_eq_some {known : List ContentClass} {r : Resolved} {first : ContentClass}
    (h : sharedWith? known r = some first) :
    r.explicit = true ∧ first ∈ known ∧ r.contentClass.stableId = first.stableId := by
  unfold sharedWith? at h
  split at h
  · rename_i hexplicit
    have hfirst := stableId_mem_of_find? h
    exact ⟨hexplicit, hfirst.1, hfirst.2.symm⟩
  · simp at h

theorem mem_remember {known : List ContentClass} {r : Resolved} {c : ContentClass}
    (h : c ∈ remember known r) : c ∈ known ∨ (r.explicit = true ∧ c = r.contentClass) := by
  unfold remember at h
  split at h
  · rename_i hnew
    rcases List.mem_cons.1 h with h | h
    · exact Or.inr ⟨hnew.1, h⟩
    · exact Or.inl h
  · exact Or.inl h

theorem mem_sharedIds_cons {known : List ContentClass} {r : Resolved} {rs : List Resolved}
    {p : ContentClass × ContentClass} (h : p ∈ sharedIds known (r :: rs)) :
    (∃ first, sharedWith? known r = some first ∧ p = (r.contentClass, first)) ∨
      p ∈ sharedIds (remember known r) rs := by
  rw [sharedIds, List.mem_append, Option.mem_toList, Option.map_eq_some_iff] at h
  rcases h with ⟨first, hfirst, hp⟩ | h
  · exact Or.inl ⟨first, hfirst, hp.symm⟩
  · exact Or.inr h

/-- A pair names two classes that have written one identifier. -/
theorem mem_sharedIds {known : List ContentClass} {rs : List Resolved}
    {p : ContentClass × ContentClass} (h : p ∈ sharedIds known rs) :
    (∃ r ∈ rs, r.explicit = true ∧ r.contentClass = p.1) ∧
      (p.2 ∈ known ∨ ∃ r ∈ rs, r.explicit = true ∧ r.contentClass = p.2) ∧
      p.1.stableId = p.2.stableId := by
  induction rs generalizing known with
  | nil => simp [sharedIds] at h
  | cons r rs ih =>
    rcases mem_sharedIds_cons h with ⟨first, hfirst, rfl⟩ | h
    · have hshared := sharedWith?_eq_some hfirst
      exact ⟨⟨r, List.mem_cons_self .., hshared.1, rfl⟩, Or.inl hshared.2.1, hshared.2.2⟩
    · obtain ⟨⟨r₁, hr₁, hclass₁⟩, hsecond, hid⟩ := ih h
      refine ⟨⟨r₁, List.mem_cons_of_mem _ hr₁, hclass₁⟩, ?_, hid⟩
      rcases hsecond with hmem | ⟨r₂, hr₂, hclass₂⟩
      · rcases mem_remember hmem with hmem | ⟨hexplicit, hclass⟩
        · exact Or.inl hmem
        · exact Or.inr ⟨r, List.mem_cons_self .., hexplicit, hclass.symm⟩
      · exact Or.inr ⟨r₂, List.mem_cons_of_mem _ hr₂, hclass₂⟩

/-- Where all classes have different names, so have those of a pair. -/
theorem fullName_ne_of_mem_sharedIds {known : List ContentClass} {rs : List Resolved}
    (hdistinct : ((known ++ rs.map (·.contentClass)).map (·.fullName)).Nodup)
    {p : ContentClass × ContentClass} (h : p ∈ sharedIds known rs) :
    p.1.fullName ≠ p.2.fullName := by
  induction rs generalizing known with
  | nil => simp [sharedIds] at h
  | cons r rs ih =>
    have hfront : (known ++ (r :: rs).map (·.contentClass)).Perm
        ((r.contentClass :: known) ++ rs.map (·.contentClass)) := List.perm_middle
    have hmoved := (hfront.map (·.fullName)).nodup_iff.1 hdistinct
    rcases mem_sharedIds_cons h with ⟨first, hfirst, rfl⟩ | h
    · have hmem := (sharedWith?_eq_some hfirst).2.1
      have hfirst : first.fullName ∈
          (known ++ rs.map (·.contentClass)).map (·.fullName) :=
        List.mem_map_of_mem (List.mem_append_left _ hmem)
      have hnot : r.contentClass.fullName ∉
          (known ++ rs.map (·.contentClass)).map (·.fullName) := (List.nodup_cons.1 hmoved).1
      intro heq
      have hname : r.contentClass.fullName = first.fullName := heq
      rw [hname] at hnot
      exact hnot hfirst
    · apply ih _ h
      unfold remember
      split
      · exact hmoved
      · exact (List.nodup_cons.1 hmoved).2

end ContentLoom.Resolution

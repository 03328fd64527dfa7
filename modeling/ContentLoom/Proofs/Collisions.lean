import ContentLoom.Proofs.ClassRoster
import ContentLoom.Proofs.DeclarationOrder
import ContentLoom.Proofs.GeneratedTypes
import ContentLoom.Proofs.SharedFileNames
import ContentLoom.Proofs.StoppedRuns
import Mathlib.Data.Finset.Card

/-!
# What collisions are worth

Classes are compared by their generated types, groups by their identifiers and
written identifiers by themselves.  In each comparison everything is reported
but the first that has a key, and it is reported with that first one.  So there
are as many reports as there are fewer keys than things compared.
-/

namespace ContentLoom.Resolution

open Generated Watched

/-! ### Repeated keys -/

section

variable {α κ : Type} [DecidableEq κ]

/-- The items whose key an item before them has, each with the first such item; `done` are the
items before all of these. -/
def repeatsAfter (key : α → κ) : List α → List α → List (α × α)
  | _, [] => []
  | done, x :: rest =>
    ((done.find? (key · == key x)).map (x, ·)).toList ++ repeatsAfter key (done ++ [x]) rest

/-- The items whose key an earlier item has, each with the first item that has it. -/
def repeats (key : α → κ) (xs : List α) : List (α × α) := repeatsAfter key [] xs

/-- The items whose key no item before them has; `done` are the items before all of these. -/
def firstsAfter (key : α → κ) : List α → List α → List α
  | _, [] => []
  | done, x :: rest =>
    if key x ∈ done.map key then firstsAfter key (done ++ [x]) rest
    else x :: firstsAfter key (done ++ [x]) rest

/-- The first item that has a key, for each key. -/
def firsts (key : α → κ) (xs : List α) : List α := firstsAfter key [] xs

theorem repeatsAfter_of_none {key : α → κ} {done : List α} {x : α}
    (h : done.find? (key · == key x) = none) (rest : List α) :
    repeatsAfter key done (x :: rest) = repeatsAfter key (done ++ [x]) rest := by
  rw [repeatsAfter, h]
  rfl

theorem repeatsAfter_of_some {key : α → κ} {done : List α} {x first : α}
    (h : done.find? (key · == key x) = some first) (rest : List α) :
    repeatsAfter key done (x :: rest) = (x, first) :: repeatsAfter key (done ++ [x]) rest := by
  rw [repeatsAfter, h]
  rfl

theorem find?_eq_none_iff_not_mem (key : α → κ) (xs : List α) (k : κ) :
    xs.find? (key · == k) = none ↔ k ∉ xs.map key := by
  simp

/-- Keys that agree on the same items have the same repetitions. -/
theorem repeatsAfter_congr {μ : Type} [DecidableEq μ] {key : α → κ} {other : α → μ}
    (h : ∀ a b, key a = key b ↔ other a = other b) (done rest : List α) :
    repeatsAfter key done rest = repeatsAfter other done rest := by
  induction rest generalizing done with
  | nil => rfl
  | cons x rest ih =>
    have hsame : (fun y => key y == key x) = fun y => other y == other x := by
      funext y
      rw [Bool.eq_iff_iff, beq_iff_eq, beq_iff_eq]
      exact h y x
    rw [repeatsAfter, repeatsAfter, hsame, ih]

theorem card_map_append_singleton (key : α → κ) (done : List α) (x : α) :
    ((done ++ [x]).map key).toFinset.card =
      (done.map key).toFinset.card + if key x ∈ done.map key then 0 else 1 := by
  have hinsert : ((done ++ [x]).map key).toFinset = insert (key x) (done.map key).toFinset := by
    ext k
    simp
  rw [hinsert]
  by_cases hmem : key x ∈ done.map key
  · rw [Finset.insert_eq_of_mem (List.mem_toFinset.2 hmem), if_pos hmem]
    rfl
  · rw [Finset.card_insert_of_notMem (fun h => hmem (List.mem_toFinset.1 h)), if_neg hmem]

theorem length_repeatsAfter (key : α → κ) (done rest : List α) :
    (repeatsAfter key done rest).length + ((done ++ rest).map key).toFinset.card =
      rest.length + (done.map key).toFinset.card := by
  induction rest generalizing done with
  | nil => simp [repeatsAfter]
  | cons x rest ih =>
    have hmoved : done ++ x :: rest = done ++ [x] ++ rest := by simp
    have hrest := ih (done ++ [x])
    rw [card_map_append_singleton] at hrest
    rw [hmoved, List.length_cons]
    cases hfind : done.find? (key · == key x) with
    | none =>
      rw [if_neg ((find?_eq_none_iff_not_mem key done _).1 hfind)] at hrest
      rw [repeatsAfter_of_none hfind]
      omega
    | some first =>
      have hmem : key x ∈ done.map key := by
        by_contra hnot
        rw [(find?_eq_none_iff_not_mem key done _).2 hnot] at hfind
        cases hfind
      rw [if_pos hmem] at hrest
      rw [repeatsAfter_of_some hfind, List.length_cons]
      omega

/-- Repetitions and distinct keys together are as many as the items. -/
theorem length_repeats (key : α → κ) (xs : List α) :
    (repeats key xs).length + (xs.map key).toFinset.card = xs.length :=
  length_repeatsAfter key [] xs

example : repeats (· % 3) [1, 2, 4, 7] = [(4, 1), (7, 1)] := by decide

theorem length_firstsAfter (key : α → κ) (done rest : List α) :
    (firstsAfter key done rest).length + (done.map key).toFinset.card =
      ((done ++ rest).map key).toFinset.card := by
  induction rest generalizing done with
  | nil => simp [firstsAfter]
  | cons x rest ih =>
    have hmoved : done ++ x :: rest = done ++ [x] ++ rest := by simp
    have hrest := ih (done ++ [x])
    rw [card_map_append_singleton] at hrest
    rw [firstsAfter, hmoved, ← hrest]
    by_cases hmem : key x ∈ done.map key
    · rw [if_pos hmem, if_pos hmem]
      rfl
    · rw [if_neg hmem, if_neg hmem, List.length_cons]
      omega

theorem length_firsts (key : α → κ) (xs : List α) :
    (firsts key xs).length = (xs.map key).toFinset.card :=
  length_firstsAfter key [] xs

theorem mem_map_firstsAfter (key : α → κ) (done rest : List α) (k : κ) :
    k ∈ done.map key ∨ k ∈ (firstsAfter key done rest).map key ↔ k ∈ (done ++ rest).map key := by
  induction rest generalizing done with
  | nil => simp [firstsAfter]
  | cons x rest ih =>
    have hmoved : done ++ x :: rest = done ++ [x] ++ rest := by simp
    have hdone : k ∈ (done ++ [x]).map key ↔ k ∈ done.map key ∨ k = key x := by simp
    rw [hmoved, ← ih, hdone, firstsAfter]
    by_cases hmem : key x ∈ done.map key
    · have hagain : k = key x → k ∈ done.map key := fun h => h ▸ hmem
      rw [if_pos hmem, or_iff_left_of_imp hagain]
    · rw [if_neg hmem, List.map_cons, List.mem_cons, or_assoc]

/-- What depends on the key takes no other values on the first items. -/
theorem toFinset_map_firsts {β : Type} [DecidableEq β] {key : α → κ} {value : α → β} (f : κ → β)
    (hvalue : ∀ x, value x = f (key x)) (xs : List α) :
    ((firsts key xs).map value).toFinset = (xs.map value).toFinset := by
  have hkeys (k : κ) : k ∈ (firsts key xs).map key ↔ k ∈ xs.map key := by
    rw [← List.nil_append xs, ← mem_map_firstsAfter key [] xs k]
    exact (or_iff_right List.not_mem_nil).symm
  have hvalues (ys : List α) : ys.map value = (ys.map key).map f := by
    rw [List.map_map]
    exact List.map_congr_left fun x _ => hvalue x
  ext b
  rw [List.mem_toFinset, List.mem_toFinset, hvalues, hvalues, List.mem_map, List.mem_map]
  simp only [hkeys]

end

/-! ### Owners of keys -/

section

variable {α κ β : Type} [DecidableEq κ] {key : α → κ} {value : α → β} {owners : List (κ × β)}
  {done : List α}

theorem find?_append_new {x : α} (h : done.find? (key · == key x) = none) (k : κ) :
    (done ++ [x]).find? (key · == k) =
      if key x = k then some x else done.find? (key · == k) := by
  rw [List.find?_append, List.find?_singleton]
  by_cases hk : key x = k
  · subst hk
    simp [h]
  · simp [hk]

theorem find?_append_old {x first : α} (h : done.find? (key · == key x) = some first) (k : κ) :
    (done ++ [x]).find? (key · == k) = done.find? (key · == k) := by
  rw [List.find?_append, List.find?_singleton]
  by_cases hk : key x = k
  · subst hk
    simp [h]
  · simp [hk]

/-- The owner of a key is the first of some items that has it. -/
def Owns (key : α → κ) (value : α → β) (owners : List (κ × β)) (done : List α) : Prop :=
  ∀ k, owners.lookup k = (done.find? (key · == k)).map value

theorem owns_nil (key : α → κ) (value : α → β) : Owns key value [] [] := fun _ => rfl

theorem Owns.find?_eq_none (h : Owns key value owners done) {k : κ}
    (hlookup : owners.lookup k = none) : done.find? (key · == k) = none :=
  Option.map_eq_none_iff.1 ((h k).symm.trans hlookup)

theorem Owns.find?_eq_some (h : Owns key value owners done) {k : κ} {owner : β}
    (hlookup : owners.lookup k = some owner) :
    ∃ first, done.find? (key · == k) = some first ∧ value first = owner :=
  Option.map_eq_some_iff.1 ((h k).symm.trans hlookup)

/-- An item whose key nobody has owns it. -/
theorem Owns.first (h : Owns key value owners done) {x : α}
    (hnew : owners.lookup (key x) = none) :
    Owns key value ((key x, value x) :: owners) (done ++ [x]) := by
  intro k
  rw [List.lookup_cons, find?_append_new (h.find?_eq_none hnew), h k]
  by_cases hk : key x = k
  · simp [hk]
  · have hne : (k == key x) = false := by simpa using Ne.symm hk
    rw [hne, if_neg hk]

/-- An item whose key has an owner changes nothing. -/
theorem Owns.again (h : Owns key value owners done) {x : α} {owner : β}
    (hold : owners.lookup (key x) = some owner) : Owns key value owners (done ++ [x]) := by
  intro k
  obtain ⟨first, hfirst, -⟩ := h.find?_eq_some hold
  rw [find?_append_old hfirst, h k]

end

/-! ### Generated types -/

/-- What tells the generated types of two classes apart: the identifier of the group, and the
name. -/
def generatedKey (c : ContentClass) : String × String := (groupName c, c.name)

/-- The report of a class whose generated types are those of `first`. -/
def duplicateType (c first : ContentClass) : Diagnostic :=
  .of .duplicateDiscriminant ⟨c.fullName, none⟩
    ("pipeline model " ++ typeKey c ++ " is already generated for " ++ first.fullName)

theorem generatedKey_eq_iff (a b : ContentClass) :
    typeKey a = typeKey b ↔ generatedKey a = generatedKey b := by
  rw [typeKey_eq_iff, generatedKey, generatedKey, Prod.mk.injEq]

theorem duplicateTypes_eq {owners : List (String × String)} {done : List ContentClass}
    (howns : Owns typeKey (·.fullName) owners done) (rest : List ContentClass) :
    duplicateTypes owners rest =
      (repeatsAfter typeKey done rest).map fun p => duplicateType p.1 p.2 := by
  induction rest generalizing owners done with
  | nil => rfl
  | cons c rest ih =>
    rw [duplicateTypes]
    cases hlookup : owners.lookup (typeKey c) with
    | none =>
      rw [repeatsAfter_of_none (howns.find?_eq_none hlookup), ← ih (howns.first hlookup)]
    | some name =>
      obtain ⟨first, hfirst, rfl⟩ := howns.find?_eq_some hlookup
      rw [repeatsAfter_of_some hfirst, List.map_cons, ← ih (howns.again hlookup)]
      rfl

theorem duplicateTypes_nil_eq (classes : List ContentClass) :
    duplicateTypes [] classes =
      (repeats generatedKey classes).map fun p => duplicateType p.1 p.2 := by
  rw [duplicateTypes_eq (owns_nil typeKey (·.fullName)) classes,
    repeatsAfter_congr generatedKey_eq_iff]
  rfl

/-! ### Groups -/

/-- The report of the group of a class whose identifier is that of the group of `first`. -/
def groupCollision (c first : ContentClass) : Diagnostic :=
  .of .groupIdentifierCollision ⟨c.fullName, none⟩
    ("group '" ++ c.group ++ "' generates the same identifier " ++ groupName c ++
      " as group '" ++ first.group ++ "'")

/-- What is known of groups after some classes, the first one of each group being `kept`: which
group owns an identifier, and which groups were reported, namely all that do not own theirs. -/
structure GroupsKnown (owners : List (String × String)) (reported : List String)
    (done kept : List ContentClass) : Prop where
  owns : Owns groupName (·.group) owners kept
  groups : ∀ group, group ∈ kept.map (·.group) ↔ group ∈ done.map (·.group)
  reported : ∀ group, group ∈ reported ↔
    group ∈ done.map (·.group) ∧ owners.lookup (Naming.sanitize group) ≠ some group

namespace GroupsKnown

theorem nil : GroupsKnown [] [] [] [] where
  owns := owns_nil groupName (·.group)
  groups _ := Iff.rfl
  reported _ := by simp

variable {owners : List (String × String)} {reported : List String}
  {done kept : List ContentClass} {c : ContentClass}

/-- The identifier of a group that was seen has an owner. -/
theorem lookup_ne_none (h : GroupsKnown owners reported done kept) {group : String}
    (hseen : group ∈ done.map (·.group)) : owners.lookup (Naming.sanitize group) ≠ none := by
  obtain ⟨first, hfirst, rfl⟩ := List.mem_map.1 ((h.groups group).2 hseen)
  rw [h.owns, ne_eq, Option.map_eq_none_iff, List.find?_eq_none]
  intro hnone
  exact hnone first hfirst (beq_self_eq_true (groupName first))

theorem mem_groups_append (done : List ContentClass) (c : ContentClass) (group : String) :
    group ∈ (done ++ [c]).map (·.group) ↔ group ∈ done.map (·.group) ∨ group = c.group := by
  rw [List.map_append, List.mem_append, List.map_singleton, List.mem_singleton]

/-- A group with a new identifier owns it. -/
theorem owner (h : GroupsKnown owners reported done kept)
    (hnew : owners.lookup (groupName c) = none) :
    GroupsKnown ((groupName c, c.group) :: owners) reported (done ++ [c]) (kept ++ [c]) where
  owns := h.owns.first hnew
  groups group := by rw [mem_groups_append, mem_groups_append, h.groups]
  reported group := by
    rw [h.reported, mem_groups_append, List.lookup_cons]
    by_cases hsame : Naming.sanitize group = groupName c
    · have hunseen : group ∉ done.map (·.group) :=
        fun hseen => h.lookup_ne_none hseen (hsame ▸ hnew)
      simp only [hsame, beq_self_eq_true, hunseen, false_and, false_or, false_iff]
      rintro ⟨rfl, hne⟩
      exact hne rfl
    · have hother : group ≠ c.group := fun heq => hsame (heq ▸ rfl)
      have hne : (Naming.sanitize group == groupName c) = false := by simpa using hsame
      simp [hne, hother]

/-- A group that was not seen and has the identifier of another is reported. -/
theorem collides (h : GroupsKnown owners reported done kept) {group : String}
    (howner : owners.lookup (groupName c) = some group) (hother : group ≠ c.group) :
    GroupsKnown owners (c.group :: reported) (done ++ [c]) (kept ++ [c]) where
  owns := h.owns.again howner
  groups group := by rw [mem_groups_append, mem_groups_append, h.groups]
  reported other := by
    rw [List.mem_cons, h.reported, mem_groups_append]
    by_cases hsame : other = c.group
    · subst hsame
      have howner' : owners.lookup (Naming.sanitize c.group) = some group := howner
      simp [howner', hother]
    · simp [hsame]

/-- A group that was seen already changes nothing. -/
theorem again (h : GroupsKnown owners reported done kept) (hseen : c.group ∈ done.map (·.group)) :
    GroupsKnown owners reported (done ++ [c]) kept where
  owns := h.owns
  groups group := by
    rw [h.groups, mem_groups_append, or_iff_left_of_imp fun heq => heq ▸ hseen]
  reported group := by
    rw [h.reported, mem_groups_append, or_iff_left_of_imp fun heq => heq ▸ hseen]

/-- The owner of an identifier was seen, and so was a group that was reported. -/
theorem seen (h : GroupsKnown owners reported done kept) {group : String}
    (howner : owners.lookup (groupName c) = some group)
    (hknown : ¬(group ≠ c.group ∧ ¬reported.contains c.group)) :
    c.group ∈ done.map (·.group) := by
  by_cases hreported : c.group ∈ reported
  · exact ((h.reported c.group).1 hreported).1
  · have hown : group = c.group := by
      by_contra hother
      exact hknown ⟨hother, by simpa using hreported⟩
    obtain ⟨first, hfirst, hgroup⟩ := h.owns.find?_eq_some howner
    rw [← h.groups, ← hown, ← hgroup]
    exact List.mem_map_of_mem (List.mem_of_find?_eq_some hfirst)

end GroupsKnown

theorem groupCollisions_eq {owners : List (String × String)} {reported : List String}
    {done kept : List ContentClass} (h : GroupsKnown owners reported done kept)
    (rest : List ContentClass) :
    groupCollisions owners reported rest =
      (repeatsAfter groupName kept (firstsAfter (·.group) done rest)).map fun p =>
        groupCollision p.1 p.2 := by
  induction rest generalizing owners reported done kept with
  | nil => rfl
  | cons c rest ih =>
    rw [groupCollisions]
    cases hlookup : owners.lookup (Naming.sanitize c.group) with
    | none =>
      have hunseen : c.group ∉ done.map (·.group) := fun hseen => h.lookup_ne_none hseen hlookup
      rw [firstsAfter, if_neg hunseen, repeatsAfter_of_none (h.owns.find?_eq_none hlookup)]
      exact ih (h.owner hlookup)
    | some group =>
      simp only
      by_cases hnew : group ≠ c.group ∧ ¬reported.contains c.group
      · have hunseen : c.group ∉ done.map (·.group) := by
          intro hseen
          have hown : owners.lookup (Naming.sanitize c.group) ≠ some c.group := by
            rw [hlookup]
            simpa using hnew.1
          have hreported := (h.reported c.group).2 ⟨hseen, hown⟩
          exact hnew.2 (by simpa using hreported)
        obtain ⟨first, hfirst, rfl⟩ := h.owns.find?_eq_some hlookup
        rw [if_pos hnew, firstsAfter, if_neg hunseen, repeatsAfter_of_some hfirst, List.map_cons,
          ih (h.collides hlookup hnew.1)]
        rfl
      · have hseen := h.seen hlookup hnew
        rw [if_neg hnew, firstsAfter, if_pos hseen]
        exact ih (h.again hseen)

theorem groupCollisions_nil_eq (classes : List ContentClass) :
    groupCollisions [] [] classes =
      (repeats groupName (firsts (·.group) classes)).map fun p => groupCollision p.1 p.2 :=
  groupCollisions_eq .nil classes

/-! ### Written identifiers -/

/-- The identifier that the content type marker of a declaration gives. -/
def writtenId? (d : Declaration) : Option Identifier := do
  let marker ← Markers.last? d.attributes .contentType
  let written ← marker.named.get? "GUID"
  Identifier.parse? (← written.asStr?)

/-- The classes whose markers give their identifiers, as they are declared. -/
def writtenClasses (g : Graph) : List ContentClass :=
  classesOf g (g.types.filter fun d => (writtenId? d).isSome)

theorem sharedIds_eq {known done : List ContentClass}
    (hfirst : ∀ id, known.find? (·.stableId == id) = done.find? (·.stableId == id))
    (rs : List Resolved) :
    sharedIds known rs =
      repeatsAfter (·.stableId) done ((rs.filter (·.explicit)).map (·.contentClass)) := by
  induction rs generalizing known done with
  | nil => rfl
  | cons r rs ih =>
    rw [sharedIds, List.filter_cons]
    by_cases hexplicit : r.explicit = true
    · have hshared : sharedWith? known r =
          done.find? (·.stableId == r.contentClass.stableId) := by
        rw [sharedWith?, if_pos hexplicit, hfirst]
      have hnext : ∀ id, (remember known r).find? (·.stableId == id) =
          (done ++ [r.contentClass]).find? (·.stableId == id) := by
        intro id
        unfold remember
        cases hfind : done.find? (·.stableId == r.contentClass.stableId) with
        | none =>
          rw [if_pos ⟨hexplicit, hshared.trans hfind⟩, List.find?_cons, find?_append_new hfind,
            hfirst]
          by_cases hid : r.contentClass.stableId = id
          · simp [hid]
          · have hne : (r.contentClass.stableId == id) = false := by simpa using hid
            rw [hne, if_neg hid]
        | some first =>
          rw [find?_append_old hfind, hshared, hfind, if_neg (by simp), hfirst]
      rw [if_pos hexplicit, List.map_cons, repeatsAfter, ← hshared, ih hnext]
    · have hnone : sharedWith? known r = none := if_neg hexplicit
      have hkept : remember known r = known := if_neg fun h => hexplicit h.1
      rw [hnone, hkept, if_neg hexplicit]
      exact ih hfirst

/-- A class has the identifier that its marker gives, or else one that is derived from its name. -/
theorem explicit_of_origin? {g : Graph} {d : Declaration} {r : Resolved}
    (h : origin? g d = some r) :
    r.explicit = (writtenId? d).isSome ∧
      r.contentClass.stableId = (writtenId? d).getD (Identifier.derive d.fullName) := by
  obtain ⟨⟨grouping, contentType⟩, hmarkers, rfl⟩ := Option.map_eq_some_iff.1 h
  have hlast := ((classMarkers?_eq_some_iff g d grouping contentType).1 hmarkers).2.2.2
  have hid : (explicitId (some contentType) d.fullName).1 = writtenId? d := by
    rw [writtenId?, (d.last?_eq_some_iff .contentType contentType).2 hlast, explicitId]
    cases hwritten : contentType.named.get? "GUID" with
    | none => simp [hwritten]
    | some written =>
      cases hid : written.asStr?.bind Identifier.parse? with
      | none => simp [hwritten, hid]
      | some id => simp [hwritten, hid]
  rw [← hid]
  exact ⟨rfl, rfl⟩

theorem writtenClasses_eq (g : Graph) :
    writtenClasses g =
      ((g.types.filterMap (origin? g)).filter (·.explicit)).map (·.contentClass) := by
  rw [writtenClasses, classesOf, List.filterMap_filter, List.filter_filterMap]
  congr 2
  funext d
  cases horigin : origin? g d with
  | none => simp
  | some r => simp [Option.filter, (explicit_of_origin? horigin).1]

theorem alone_iff_origin? (g : Graph) (d : Declaration) (c : ContentClass) :
    Alone g d (some c) ↔ (origin? g d).map (·.contentClass) = some c := by
  obtain ⟨reports, hrun⟩ := alone_origin? g d
  constructor
  · rintro ⟨told, hsome⟩
    rw [hrun] at hsome
    exact Except.ok.inj (congrArg Prod.fst hsome)
  · intro h
    rw [h] at hrun
    exact ⟨reports, hrun⟩

theorem mem_writtenClasses_iff (g : Graph) (c : ContentClass) :
    c ∈ writtenClasses g ↔
      ∃ d ∈ g.types, Alone g d (some c) ∧ writtenId? d = some c.stableId := by
  simp only [writtenClasses, classesOf, List.mem_map, List.mem_filterMap, List.mem_filter,
    alone_iff_origin?, Option.map_eq_some_iff]
  constructor
  · rintro ⟨r, ⟨d, ⟨hd, hwritten⟩, horigin⟩, rfl⟩
    obtain ⟨id, hid⟩ := Option.isSome_iff_exists.1 hwritten
    have hsame := (explicit_of_origin? horigin).2
    rw [hid, Option.getD_some] at hsame
    exact ⟨d, hd, ⟨r, horigin, rfl⟩, by rw [hid, hsame]⟩
  · rintro ⟨d, hd, ⟨r, horigin, rfl⟩, hid⟩
    exact ⟨r, ⟨d, ⟨hd, by rw [hid]; rfl⟩, horigin⟩, rfl⟩

theorem writtenClasses_subperm (g : Graph) : (writtenClasses g).Subperm (declaredClasses g) := by
  have hsublist : (writtenClasses g).Sublist (classesOf g g.types) :=
    (List.filter_sublist.filterMap (origin? g)).map Resolved.contentClass
  exact hsublist.subperm.trans (sortClasses_perm _).symm.subperm

theorem doubled_graphReports_eq (g : Graph) :
    doubled (graphReports g) = (repeats (·.stableId) (writtenClasses g)).map fun p =>
      duplicateId p.1 p.2.fullName := by
  have hshared : sharedIds [] (g.types.filterMap (origin? g)) =
      repeats (·.stableId) (writtenClasses g) := by
    rw [writtenClasses_eq]
    exact sharedIds_eq (fun _ => rfl) _
  rw [Generation.doubled_graphReports, hshared]

/-! ### All reports -/

theorem withCode_append (ds es : List Diagnostic) (code : DiagnosticCode) :
    Diagnostic.withCode (ds ++ es) code =
      Diagnostic.withCode ds code ++ Diagnostic.withCode es code :=
  List.filter_append ..

theorem withCode_eq_self {ds : List Diagnostic} {code : DiagnosticCode}
    (h : ∀ d ∈ ds, d.code = code) : Diagnostic.withCode ds code = ds :=
  List.filter_eq_self.2 fun d hd => by rw [h d hd, beq_self_eq_true]

theorem withCode_eq_nil {ds : List Diagnostic} {code : DiagnosticCode}
    (h : ∀ d ∈ ds, d.code ≠ code) : Diagnostic.withCode ds code = [] :=
  List.filter_eq_nil_iff.2 fun d hd => by simpa using h d hd

/-- A comparison of classes is reported only where all classes are compared. -/
theorem withCode_graphReports {code : DiagnosticCode} (hcode : Compares code)
    (hne : code ≠ .duplicateStableId) (g : Graph) :
    Diagnostic.withCode (graphReports g) code =
      Diagnostic.withCode (groupCollisions [] [] (declaredClasses g)) code ++
        Diagnostic.withCode (duplicateTypes [] (declaredClasses g)) code := by
  have hown : Diagnostic.withCode (g.types.flatMap fun d => told (originActs g d)) code = [] := by
    apply withCode_eq_nil
    intro r hr heq
    obtain ⟨d, -, hmem⟩ := List.mem_flatMap.1 hr
    exact originActs_code hmem (heq ▸ hcode)
  rw [← Generation.withCode_others hne, Generation.others_graphReports, withCode_append, hown,
    List.nil_append, collisionReports, withCode_append]

theorem withCode_duplicateDiscriminant (g : Graph) :
    Diagnostic.withCode (graphReports g) .duplicateDiscriminant =
      (repeats generatedKey (declaredClasses g)).map fun p => duplicateType p.1 p.2 := by
  rw [withCode_graphReports (Or.inr (Or.inl rfl)) (by decide), withCode_eq_nil,
    withCode_eq_self, List.nil_append, duplicateTypes_nil_eq]
  · intro d hd
    obtain ⟨location, message, rfl⟩ := mem_duplicateTypes hd
    rfl
  · intro d hd
    simp [groupCollisions_code hd]

theorem withCode_groupIdentifierCollision (g : Graph) :
    Diagnostic.withCode (graphReports g) .groupIdentifierCollision =
      (repeats groupName (firsts (·.group) (declaredClasses g))).map fun p =>
        groupCollision p.1 p.2 := by
  rw [withCode_graphReports (Or.inr (Or.inr rfl)) (by decide), withCode_eq_self,
    withCode_eq_nil, List.append_nil, groupCollisions_nil_eq]
  · intro d hd
    obtain ⟨location, message, rfl⟩ := mem_duplicateTypes hd
    simp [Diagnostic.of]
  · intro d hd
    exact groupCollisions_code hd

/-- The reports that a run makes on what meets in a graph.  One is made for every class but the
first with its generated types, in the order of the classes; one for every group but the first
with its identifier, on the first class of the group; and one for every class with a written
identifier but the first that has written it, in the order of declaration. -/
structure ReportsCollisions (g : Graph) (classes : List ContentClass) (made : List Diagnostic) :
    Prop where
  types : Diagnostic.withCode made .duplicateDiscriminant =
    (repeats generatedKey classes).map fun p => duplicateType p.1 p.2
  typeCount : (Diagnostic.withCode made .duplicateDiscriminant).length +
    (classes.map generatedKey).toFinset.card = classes.length
  errors : ∀ d ∈ Diagnostic.withCode made .duplicateDiscriminant, d.severity = .error
  groups : Diagnostic.withCode made .groupIdentifierCollision =
    (repeats groupName (firsts (·.group) classes)).map fun p => groupCollision p.1 p.2
  groupCount : (Diagnostic.withCode made .groupIdentifierCollision).length +
    (classes.map groupName).toFinset.card = (classes.map (·.group)).toFinset.card
  groupWarnings : ∀ d ∈ Diagnostic.withCode made .groupIdentifierCollision, d.severity = .warning
  ids : Diagnostic.withCode made .duplicateStableId =
    (repeats (·.stableId) (writtenClasses g)).map fun p => duplicateId p.1 p.2.fullName
  idCount : (Diagnostic.withCode made .duplicateStableId).length +
    ((writtenClasses g).map (·.stableId)).toFinset.card = (writtenClasses g).length
  idWarnings : ∀ d ∈ Diagnostic.withCode made .duplicateStableId, d.severity = .warning

theorem length_repeats_firsts (classes : List ContentClass) :
    (repeats groupName (firsts (·.group) classes)).length +
      (classes.map groupName).toFinset.card = (classes.map (·.group)).toFinset.card := by
  have hcount := length_repeats groupName (firsts (·.group) classes)
  have hnames : ((firsts (·.group) classes).map groupName).toFinset =
      (classes.map groupName).toFinset :=
    toFinset_map_firsts Naming.sanitize (fun _ => rfl) classes
  rwa [hnames, length_firsts] at hcount

theorem reportsCollisions_graphReports (g : Graph) :
    ReportsCollisions g (declaredClasses g) (graphReports g) where
  types := withCode_duplicateDiscriminant g
  typeCount := by rw [withCode_duplicateDiscriminant, List.length_map, length_repeats]
  errors d hd := by
    rw [withCode_duplicateDiscriminant] at hd
    obtain ⟨p, -, rfl⟩ := List.mem_map.1 hd
    rfl
  groups := withCode_groupIdentifierCollision g
  groupCount := by
    rw [withCode_groupIdentifierCollision, List.length_map, length_repeats_firsts]
  groupWarnings d hd := by
    rw [withCode_groupIdentifierCollision] at hd
    obtain ⟨p, -, rfl⟩ := List.mem_map.1 hd
    rfl
  ids := doubled_graphReports_eq g
  idCount := by
    have hlength := congrArg List.length (doubled_graphReports_eq g)
    rw [doubled, List.length_map] at hlength
    rw [hlength, length_repeats]
  idWarnings d hd := by
    have hmem : d ∈ doubled (graphReports g) := hd
    rw [doubled_graphReports_eq] at hmem
    obtain ⟨p, -, rfl⟩ := List.mem_map.1 hmem
    rfl

/-- A resolution that comes to its end reports what meets, and counts exactly how many keys are
missing. -/
theorem resolveAll_collisions {g : Graph} {w v : Watch} {classes : List ContentClass}
    (hrun : (resolveAll g).run.run w = (.ok classes, v)) :
    ∃ made, v.reports = w.reports ++ made ∧ ReportsCollisions g classes made ∧
      (writtenClasses g).Subperm classes ∧
      ∀ c, c ∈ writtenClasses g ↔
        ∃ d ∈ g.types, Alone g d (some c) ∧ writtenId? d = some c.stableId := by
  have hreports := (resolveAll_performs g).reports_of_ok hrun
  obtain rfl : classes = declaredClasses g := (resolveAll_performs g).eq_of_ok hrun
  rw [told_append, told_map_tell] at hreports
  exact ⟨graphReports g, hreports, reportsCollisions_graphReports g, writtenClasses_subperm g,
    mem_writtenClasses_iff g⟩

/-- The order of classes has no part in how many keys they have. -/
theorem card_map_declaredClasses {β : Type} [DecidableEq β] (key : ContentClass → β) (g : Graph) :
    ((declaredClasses g).map key).toFinset.card =
      ((classesOf g g.types).map key).toFinset.card := by
  rw [declaredClasses, List.toFinset_eq_of_perm _ _ ((sortClasses_perm _).map key)]

/-- Two declarations of a class with one written identifier, and two of a class with derived ones
whose groups have one identifier. -/
def repeated : Graph where
  types := [Generation.identified "Hero", Generation.identified "Hero",
    Generation.grouped "Page" "My Group", Generation.grouped "Page" "My-Group"]

theorem resolveAll_collisions_repeated :
    ∃ classes v, (resolveAll repeated).run.run (Watch.start false none) = (.ok classes, v) ∧
      ReportsCollisions repeated classes v.reports ∧
      (Diagnostic.withCode v.reports .duplicateDiscriminant).length = 2 ∧
      (Diagnostic.withCode v.reports .groupIdentifierCollision).length = 1 ∧
      (Diagnostic.withCode v.reports .duplicateStableId).length = 1 := by
  have hrun := (resolveAll_performs repeated).of_quiet
  obtain ⟨made, hmade, hreports, -, -⟩ := resolveAll_collisions hrun
  obtain rfl : _ = made := hmade
  have htypes := hreports.typeCount
  have hgroups := hreports.groupCount
  have hids := hreports.idCount
  have hlength : (declaredClasses repeated).length = 4 :=
    (sortClasses_perm _).length_eq.trans (by decide +kernel)
  have hkeys : ((declaredClasses repeated).map generatedKey).toFinset.card = 2 := by
    rw [card_map_declaredClasses]
    decide +kernel
  have hnames : ((declaredClasses repeated).map groupName).toFinset.card = 2 := by
    rw [card_map_declaredClasses]
    decide +kernel
  have hgrouped : ((declaredClasses repeated).map (·.group)).toFinset.card = 3 := by
    rw [card_map_declaredClasses]
    decide +kernel
  have hwritten : (writtenClasses repeated).length = 2 ∧
      ((writtenClasses repeated).map (·.stableId)).toFinset.card = 1 := by
    decide +kernel
  refine ⟨_, _, hrun, hreports, ?_, ?_, ?_⟩
  · omega
  · omega
  · omega

end ContentLoom.Resolution

import ContentLoom.Graph.Basic
import ContentLoom.Proofs.Dictionaries
import Mathlib.Data.List.Find
import Mathlib.Data.List.Induction

/-!
# What names denote

An index made in one pass over the declarations tells of every full name where
its first declaration is, and of every simple name whether no declaration, just
one or several have it.  So a name denotes the first declaration with this full
name, or else the only one with its simple name.
-/

namespace ContentLoom

/-! ### Lists -/

/-- The element of a list that has just one. -/
def only? {α : Type} : List α → Option α
  | [a] => some a
  | _ => none

theorem only?_of_perm {α : Type} {xs ys : List α} (hperm : xs.Perm ys) : only? xs = only? ys := by
  have hlength := hperm.length_eq
  match xs, ys with
  | [], [] => rfl
  | [a], [b] =>
    have hab : [a] = [b] := List.singleton_perm.1 hperm
    rw [hab]
  | _ :: _ :: _, _ :: _ :: _ => rfl

theorem only?_map {α β : Type} (f : α → β) (xs : List α) : only? (xs.map f) = (only? xs).map f := by
  match xs with
  | [] => rfl
  | [a] => rfl
  | _ :: _ :: _ => rfl

theorem only?_eq_some_iff {α : Type} {xs : List α} {a : α} : only? xs = some a ↔ xs = [a] := by
  match xs with
  | [] => simp [only?]
  | [b] => simp [only?]
  | _ :: _ :: _ => simp [only?]

namespace NameIndex

/-! ### What an index tells -/

/-- The declarations with a property, each with its place. -/
def occurrences (p : Declaration → Bool) (types : List Declaration) : List (Declaration × Nat) :=
  types.zipIdx.filter fun e => p e.1

theorem occurrences_snoc (p : Declaration → Bool) (types : List Declaration) (d : Declaration) :
    occurrences p (types ++ [d]) =
      occurrences p types ++ if p d then [(d, types.length)] else [] := by
  rw [occurrences, List.zipIdx_append, List.filter_append, Nat.zero_add]
  cases hd : p d with
  | true => simp [occurrences, hd]
  | false => simp [occurrences, hd]

theorem map_fst_occurrences (p : Declaration → Bool) (types : List Declaration) :
    (occurrences p types).map Prod.fst = types.filter p := by
  have hmap := List.filter_map (p := p) (f := Prod.fst) (l := types.zipIdx)
  rw [List.zipIdx_map_fst] at hmap
  exact hmap.symm

theorem getElem?_of_mem_occurrences {p : Declaration → Bool} {types : List Declaration}
    {e : Declaration × Nat} (h : e ∈ occurrences p types) : types[e.2]? = some e.1 :=
  List.mem_zipIdx_iff_getElem?.1 (List.mem_filter.1 h).1

/-- What is entered for a simple name: nothing, the only place, or that there are several. -/
def entryFor : List (Declaration × Nat) → Option (Option Nat)
  | [] => none
  | [e] => some (some e.2)
  | _ => some none

/-- The index tells of a list where its full names begin and where its simple names are alone. -/
structure Indexes (ix : NameIndex) (types : List Declaration) : Prop where
  nodupFull : ix.byFullName.names.Nodup
  nodupSimple : ix.bySimpleName.names.Nodup
  byFullName : ∀ n, ix.byFullName.get? n =
    (occurrences (·.fullName == n) types).head?.map Prod.snd
  bySimpleName : ∀ s, ix.bySimpleName.get? s = entryFor (occurrences (·.name == s) types)

/-! ### Making an index -/

theorem indexes_empty : Indexes empty [] :=
  ⟨List.nodup_nil, List.nodup_nil, fun _ => rfl, fun _ => rfl⟩

theorem entryFor_snoc (es : List (Declaration × Nat)) (e : Declaration × Nat) :
    entryFor (es ++ [e]) =
      match entryFor es with
      | some _ => some none
      | none => some (some e.2) := by
  match es with
  | [] => rfl
  | [_] => rfl
  | _ :: _ :: _ => rfl

theorem get?_enter_byFullName (ix : NameIndex) (d : Declaration) (place : Nat) (n : String) :
    (ix.enter d place).byFullName.get? n =
      (ix.byFullName.get? n).or (if d.fullName = n then some place else none) := by
  unfold enter
  by_cases hname : d.fullName = n
  · subst hname
    cases hknown : ix.byFullName.get? d.fullName with
    | some known => simp [hknown]
    | none => simp [Entries.get?_set_self]
  · rw [if_neg hname, Option.or_none]
    cases ix.byFullName.get? d.fullName with
    | some known => rfl
    | none => exact Entries.get?_set_of_ne _ _ _ _ (Ne.symm hname)

theorem get?_enter_bySimpleName (ix : NameIndex) (d : Declaration) (place : Nat) (s : String) :
    (ix.enter d place).bySimpleName.get? s =
      if d.name = s then
        match ix.bySimpleName.get? s with
        | some _ => some none
        | none => some (some place)
      else ix.bySimpleName.get? s := by
  unfold enter
  by_cases hname : d.name = s
  · subst hname
    rw [if_pos rfl]
    cases ix.bySimpleName.get? d.name with
    | some known => exact Entries.get?_set_self _ _ _
    | none => exact Entries.get?_set_self _ _ _
  · rw [if_neg hname]
    cases ix.bySimpleName.get? d.name with
    | some known => exact Entries.get?_set_of_ne _ _ _ _ (Ne.symm hname)
    | none => exact Entries.get?_set_of_ne _ _ _ _ (Ne.symm hname)

/-- One more declaration at the end of the list. -/
theorem Indexes.enter {ix : NameIndex} {types : List Declaration} (h : Indexes ix types)
    (d : Declaration) : Indexes (ix.enter d types.length) (types ++ [d]) := by
  refine ⟨?_, ?_, fun n => ?_, fun s => ?_⟩
  · unfold NameIndex.enter
    cases ix.byFullName.get? d.fullName with
    | some known => exact h.nodupFull
    | none => exact Entries.nodup_set h.nodupFull _ _
  · unfold NameIndex.enter
    cases ix.bySimpleName.get? d.name with
    | some known => exact Entries.nodup_set h.nodupSimple _ _
    | none => exact Entries.nodup_set h.nodupSimple _ _
  · rw [get?_enter_byFullName, h.byFullName, occurrences_snoc]
    by_cases hname : d.fullName = n
    · cases occurrences (·.fullName == n) types with
      | nil => simp [hname]
      | cons e es => simp
    · simp [hname]
  · rw [get?_enter_bySimpleName, h.bySimpleName, occurrences_snoc]
    by_cases hname : d.name = s
    · rw [if_pos hname, if_pos (beq_iff_eq.2 hname), entryFor_snoc]
    · simp [hname]

/-- The index that is made of a list is right about this list. -/
theorem indexes_ofTypes (types : List Declaration) : Indexes (ofTypes types) types := by
  induction types using List.reverseRecOn with
  | nil => exact indexes_empty
  | append_singleton types d ih =>
    have hlast : ofTypes (types ++ [d]) = (ofTypes types).enter d types.length := by
      rw [ofTypes, List.zipIdx_append, List.foldl_append, Nat.zero_add]
      rfl
    rw [hlast]
    exact ih.enter d

/-! ### Looking up -/

theorem Indexes.place?_eq {ix : NameIndex} {types : List Declaration} (h : Indexes ix types)
    (name : String) :
    ix.place? name = ((occurrences (·.fullName == name) types).head?.or
      (only? (occurrences (·.name == TypeRef.simpleOf name) types))).map Prod.snd := by
  unfold place?
  rw [h.byFullName, h.bySimpleName]
  cases occurrences (·.fullName == name) types with
  | cons e es => rfl
  | nil =>
    match occurrences (·.name == TypeRef.simpleOf name) types with
    | [] => rfl
    | [e] => rfl
    | _ :: _ :: _ => rfl

theorem Indexes.declaration_eq {ix : NameIndex} {types : List Declaration} (h : Indexes ix types)
    (name : String) :
    (ix.place? name).bind (types[·]?) = (types.find? (·.fullName == name)).or
      (only? (types.filter (·.name == TypeRef.simpleOf name))) := by
  rw [h.place?_eq, ← List.head?_filter, ← map_fst_occurrences, ← map_fst_occurrences,
    List.head?_map, only?_map, ← Option.map_or]
  cases hfound : (occurrences (·.fullName == name) types).head?.or
      (only? (occurrences (·.name == TypeRef.simpleOf name) types)) with
  | none => rfl
  | some e =>
    rw [Option.map_some, Option.map_some, Option.bind_some]
    rcases Option.or_eq_some_iff.1 hfound with hfull | ⟨-, hsole⟩
    · exact getElem?_of_mem_occurrences (List.mem_of_mem_head? hfull)
    · have hmem := only?_eq_some_iff.1 hsole
      exact getElem?_of_mem_occurrences (hmem ▸ List.mem_cons_self ..)

/-- The entries of the index in any order. -/
structure Rearranges (ix' ix : NameIndex) : Prop where
  byFullName : ix.byFullName.Perm ix'.byFullName
  bySimpleName : ix.bySimpleName.Perm ix'.bySimpleName

theorem Indexes.place?_of_rearranges {ix ix' : NameIndex} {types : List Declaration}
    (h : Indexes ix types) (hperm : Rearranges ix' ix) (name : String) :
    ix'.place? name = ix.place? name := by
  unfold place?
  rw [Entries.get?_of_perm h.nodupFull hperm.byFullName,
    Entries.get?_of_perm h.nodupSimple hperm.bySimpleName]

end NameIndex

namespace Graph

theorem resolve?_eq (g : Graph) (name : String) :
    g.resolve? name = (g.types.find? (·.fullName == unrooted name)).or
      (only? (g.types.filter (·.name == TypeRef.simpleOf (unrooted name)))) :=
  (NameIndex.indexes_ofTypes g.types).declaration_eq (unrooted name)

/-! ### Denotation -/

/-- The earliest declaration with a property. -/
def Earliest (p : Declaration → Prop) (types : List Declaration) (d : Declaration) : Prop :=
  ∃ before after, types = before ++ d :: after ∧ p d ∧ ∀ e ∈ before, ¬p e

theorem Earliest.mem {p : Declaration → Prop} {types : List Declaration} {d : Declaration}
    (h : Earliest p types d) : d ∈ types := by
  obtain ⟨before, after, hsplit, -⟩ := h
  exact hsplit ▸ List.mem_append_right before (List.mem_cons_self ..)

theorem Earliest.holds {p : Declaration → Prop} {types : List Declaration} {d : Declaration}
    (h : Earliest p types d) : p d := by
  obtain ⟨-, -, -, hd, -⟩ := h
  exact hd

/-- The only declaration with a property: no other place of the list has it. -/
def Sole (p : Declaration → Prop) (types : List Declaration) (d : Declaration) : Prop :=
  ∃ before after, types = before ++ d :: after ∧ p d ∧ ∀ e ∈ before ++ after, ¬p e

/-- Whoever has the property of the only one is the only one. -/
theorem Sole.eq {p : Declaration → Prop} {types : List Declaration} {d e : Declaration}
    (h : Sole p types d) (he : e ∈ types) (hp : p e) : e = d := by
  obtain ⟨before, after, rfl, -, hothers⟩ := h
  rcases List.mem_append.1 he with he | he
  · exact absurd hp (hothers e (List.mem_append_left _ he))
  · rcases List.mem_cons.1 he with he | he
    · exact he
    · exact absurd hp (hothers e (List.mem_append_right _ he))

/-- What a name without root mark denotes among some declarations. -/
inductive Denotes (types : List Declaration) (name : String) : Option Declaration → Prop
  | byFullName {d} (h : Earliest (·.fullName = name) types d) : Denotes types name (some d)
  | bySimpleName {d} (hfull : ∀ e ∈ types, e.fullName ≠ name)
      (h : Sole (·.name = TypeRef.simpleOf name) types d) : Denotes types name (some d)
  | nothing (hfull : ∀ e ∈ types, e.fullName ≠ name)
      (h : ∀ d, ¬Sole (·.name = TypeRef.simpleOf name) types d) : Denotes types name none

theorem find?_eq_some_iff_earliest {types : List Declaration} {name : String} {d : Declaration} :
    types.find? (·.fullName == name) = some d ↔ Earliest (·.fullName = name) types d := by
  rw [List.find?_eq_some_iff_append, beq_iff_eq]
  constructor
  · rintro ⟨hd, before, after, hsplit, hbefore⟩
    exact ⟨before, after, hsplit, hd, fun e he => by simpa using hbefore e he⟩
  · rintro ⟨before, after, hsplit, hd, hbefore⟩
    exact ⟨hd, before, after, hsplit, fun e he => by simpa using hbefore e he⟩

theorem find?_eq_none_iff_forall {types : List Declaration} {name : String} :
    types.find? (·.fullName == name) = none ↔ ∀ e ∈ types, e.fullName ≠ name := by
  simp [List.find?_eq_none]

theorem only?_eq_some_iff_sole {types : List Declaration} {s : String} {d : Declaration} :
    only? (types.filter (·.name == s)) = some d ↔ Sole (·.name = s) types d := by
  rw [only?_eq_some_iff, List.filter_eq_cons_iff]
  constructor
  · rintro ⟨before, after, hsplit, hbefore, hd, hafter⟩
    refine ⟨before, after, hsplit, beq_iff_eq.1 hd, fun e he => ?_⟩
    rw [List.filter_eq_nil_iff] at hafter
    rcases List.mem_append.1 he with he | he
    · simpa using hbefore e he
    · simpa using hafter e he
  · rintro ⟨before, after, hsplit, hd, hothers⟩
    refine ⟨before, after, hsplit, fun e he => ?_, beq_iff_eq.2 hd, ?_⟩
    · simpa using hothers e (List.mem_append_left _ he)
    · rw [List.filter_eq_nil_iff]
      intro e he
      simpa using hothers e (List.mem_append_right _ he)

theorem denotes_iff (types : List Declaration) (name : String) (found : Option Declaration) :
    Denotes types name found ↔ (types.find? (·.fullName == name)).or
      (only? (types.filter (·.name == TypeRef.simpleOf name))) = found := by
  constructor
  · intro h
    cases h with
    | byFullName h => rw [find?_eq_some_iff_earliest.2 h, Option.some_or]
    | bySimpleName hfull h =>
      rw [find?_eq_none_iff_forall.2 hfull, Option.none_or, only?_eq_some_iff_sole.2 h]
    | nothing hfull h =>
      rw [find?_eq_none_iff_forall.2 hfull, Option.none_or]
      refine Option.eq_none_iff_forall_ne_some.2 fun d hd => h d (only?_eq_some_iff_sole.1 hd)
  · rintro rfl
    cases hfull : types.find? (·.fullName == name) with
    | some d => exact .byFullName (find?_eq_some_iff_earliest.1 hfull)
    | none =>
      rw [find?_eq_none_iff_forall] at hfull
      cases hsole : only? (types.filter (·.name == TypeRef.simpleOf name)) with
      | some d => exact .bySimpleName hfull (only?_eq_some_iff_sole.1 hsole)
      | none =>
        refine .nothing hfull fun d hd => ?_
        rw [only?_eq_some_iff_sole.2 hd] at hsole
        cases hsole

/-- A name denotes the first declaration with this full name, or else the only one with its simple
name, or else nothing, in whatever order the entries of the index are; and a simple name that
several declarations have denotes none of them. -/
theorem resolve?_iff_denotes (types : List Declaration) (name : String) :
    (∀ found, resolve? ⟨types⟩ name = found ↔ Denotes types (unrooted name) found) ∧
      (∀ ix, NameIndex.Rearranges ix (.ofTypes types) →
        (ix.place? (unrooted name)).bind (types[·]?) = resolve? ⟨types⟩ name) ∧
      ((∀ d ∈ types, d.fullName ≠ unrooted name) →
        2 ≤ types.countP (·.name == TypeRef.simpleOf (unrooted name)) →
        resolve? ⟨types⟩ name = none) := by
  refine ⟨fun found => ?_, fun ix hperm => ?_, fun hfull hseveral => ?_⟩
  · rw [resolve?_eq, denotes_iff]
  · rw [(NameIndex.indexes_ofTypes types).place?_of_rearranges hperm]
    rfl
  · rw [resolve?_eq, find?_eq_none_iff_forall.2 hfull, Option.none_or]
    refine Option.eq_none_iff_forall_ne_some.2 fun d hd => ?_
    rw [List.countP_eq_length_filter, only?_eq_some_iff.1 hd, List.length_singleton] at hseveral
    omega

/-- Three declarations with one simple name, two of them with one full name, and one more. -/
def namesakes : List Declaration := [
  ⟨"BaseBlock", "Vendor.Blocks", .classType, false, none, [], [], []⟩,
  ⟨"BaseBlock", "Site.Blocks", .classType, false, none, [], [], []⟩,
  ⟨"BaseBlock", "Site.Blocks", .enumType, false, none, [], [], []⟩,
  ⟨"Teaser", "", .classType, false, none, [], [], []⟩]

/-- The index of the namesakes with its entries in the opposite order. -/
def reversedIndex : NameIndex :=
  ⟨(NameIndex.ofTypes namesakes).byFullName.reverse,
    (NameIndex.ofTypes namesakes).bySimpleName.reverse⟩

theorem resolve?_iff_denotes_namesakes :
    resolve? ⟨namesakes⟩ "global::Site.Blocks.BaseBlock" = namesakes[1]? ∧
      resolve? ⟨namesakes⟩ "Elsewhere.Teaser" = namesakes[3]? ∧
      NameIndex.Rearranges reversedIndex (.ofTypes namesakes) ∧
      (reversedIndex.place? (unrooted "Elsewhere.Teaser")).bind (namesakes[·]?) = namesakes[3]? ∧
      (∀ d ∈ namesakes, d.fullName ≠ unrooted "Elsewhere.BaseBlock") ∧
      2 ≤ namesakes.countP (·.name == TypeRef.simpleOf (unrooted "Elsewhere.BaseBlock")) ∧
      resolve? ⟨namesakes⟩ "Elsewhere.BaseBlock" = none := by
  have hrooted : unrooted "global::Site.Blocks.BaseBlock" = "Site.Blocks.BaseBlock" := by decide
  have hplain : unrooted "Elsewhere.Teaser" = "Elsewhere.Teaser" := by decide
  have hfirst : Denotes namesakes (unrooted "global::Site.Blocks.BaseBlock") namesakes[1]? := by
    rw [hrooted]
    exact .byFullName ⟨[_], _, rfl, by decide, by decide⟩
  have hteaser : Denotes namesakes (unrooted "Elsewhere.Teaser") namesakes[3]? := by
    rw [hplain]
    exact .bySimpleName (by decide) ⟨[_, _, _], [], rfl, by decide, by decide⟩
  have hperm : NameIndex.Rearranges reversedIndex (.ofTypes namesakes) :=
    ⟨(List.reverse_perm _).symm, (List.reverse_perm _).symm⟩
  have hfull : ∀ d ∈ namesakes, d.fullName ≠ unrooted "Elsewhere.BaseBlock" := by decide
  have hseveral :
      2 ≤ namesakes.countP (·.name == TypeRef.simpleOf (unrooted "Elsewhere.BaseBlock")) := by
    decide
  obtain ⟨hdenotes, -, -⟩ := resolve?_iff_denotes namesakes "global::Site.Blocks.BaseBlock"
  obtain ⟨hdenotes', horder, -⟩ := resolve?_iff_denotes namesakes "Elsewhere.Teaser"
  obtain ⟨-, -, hnone⟩ := resolve?_iff_denotes namesakes "Elsewhere.BaseBlock"
  have hfound := (hdenotes' _).2 hteaser
  exact ⟨(hdenotes _).2 hfirst, hfound, hperm, (horder _ hperm).trans hfound, hfull, hseveral,
    hnone hfull hseveral⟩

end Graph

end ContentLoom

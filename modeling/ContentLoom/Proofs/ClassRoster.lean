import ContentLoom.Proofs.BaseChains
import ContentLoom.Proofs.ClassOrder
import ContentLoom.Proofs.LastMarkers
import ContentLoom.Proofs.StableSort

/-!
# Which declarations are content classes

A class that is not abstract, has a content type marker of its own and is on a
chain with a grouping marker somewhere is eligible.  Resolution gives the class
of each eligible declaration once, by order and name and otherwise as they were
declared, and it reads of a declaration among others what it reads of it alone.
The nearest grouping marker decides group and order; of several on one type it
is the last.
-/

namespace ContentLoom

/-! ### Markers on a type -/

namespace Declaration

/-- The type has a marker of a kind of its own. -/
def Bears (d : Declaration) (kind : MarkerKind) : Prop :=
  ∃ a ∈ d.attributes, MarkerKind.of? a = some kind

instance (d : Declaration) (kind : MarkerKind) : Decidable (d.Bears kind) :=
  inferInstanceAs (Decidable (∃ a ∈ d.attributes, _))

/-- The attribute is the last marker of its kind on the type. -/
def LastMarker (d : Declaration) (kind : MarkerKind) (a : Attribute) : Prop :=
  ∃ before after, d.attributes = before ++ a :: after ∧ MarkerKind.of? a = some kind ∧
    ∀ b ∈ after, MarkerKind.of? b ≠ some kind

theorem LastMarker.bears {d : Declaration} {kind : MarkerKind} {a : Attribute}
    (h : d.LastMarker kind a) : d.Bears kind := by
  obtain ⟨before, after, hattributes, hkind, -⟩ := h
  have hmem : a ∈ d.attributes := by
    rw [hattributes]
    exact List.mem_append_right _ (List.mem_cons_self ..)
  exact ⟨a, hmem, hkind⟩

theorem last?_eq_some_iff (d : Declaration) (kind : MarkerKind) (a : Attribute) :
    Markers.last? d.attributes kind = some a ↔ d.LastMarker kind a :=
  Markers.last?_eq_some_iff_lastAmong d.attributes kind a

theorem last?_eq_none_iff (d : Declaration) (kind : MarkerKind) :
    Markers.last? d.attributes kind = none ↔ ¬d.Bears kind := by
  rw [← Option.not_isSome_iff_eq_none, Markers.isSome_last?_iff]
  rfl

theorem bears_iff_lastMarker (d : Declaration) (kind : MarkerKind) :
    d.Bears kind ↔ ∃ a, d.LastMarker kind a := by
  constructor
  · intro h
    cases hlast : Markers.last? d.attributes kind with
    | none => exact absurd h ((last?_eq_none_iff d kind).1 hlast)
    | some a => exact ⟨a, (last?_eq_some_iff d kind a).1 hlast⟩
  · rintro ⟨a, ha⟩
    exact ha.bears

end Declaration

namespace Resolution

open Watched

/-! ### Eligible declarations -/

/-- The declaration is one of a content class. -/
structure Eligible (g : Graph) (d : Declaration) : Prop where
  isClass : d.kind = .classType
  concrete : d.isAbstract = false
  typed : d.Bears .contentType
  grouped : ∃ place e, g.OnChain d place e ∧ e.Bears .grouping

/-- The attribute is the last grouping marker on the nearest type of the chain that has any. -/
def GroupedBy (g : Graph) (d : Declaration) (a : Attribute) : Prop :=
  ∃ place e, g.OnChain d place e ∧ e.LastMarker .grouping a ∧
    ∀ nearer f, nearer < place → g.OnChain d nearer f → ¬f.Bears .grouping

theorem findSome?_eq_some_iff_getElem? {α β : Type} (f : α → Option β) (xs : List α) (b : β) :
    xs.findSome? f = some b ↔
      ∃ (n : Nat) (x : α), xs[n]? = some x ∧ f x = some b ∧
        ∀ (m : Nat) (y : α), m < n → xs[m]? = some y → f y = none := by
  rw [List.findSome?_eq_some_iff]
  constructor
  · rintro ⟨front, x, back, rfl, hx, hfront⟩
    refine ⟨front.length, x, by simp, hx, fun m y hm hy => hfront y ?_⟩
    rw [List.getElem?_append_left hm] at hy
    exact List.mem_of_getElem? hy
  · rintro ⟨n, x, hx, hb, hnone⟩
    obtain ⟨hn, hget⟩ := List.getElem?_eq_some_iff.1 hx
    refine ⟨xs.take n, x, xs.drop (n + 1), ?_, hb, fun y hy => ?_⟩
    · rw [← hget, ← List.drop_eq_getElem_cons hn, List.take_append_drop]
    · obtain ⟨m, hm, hy⟩ := List.mem_take_iff_getElem.1 hy
      exact hnone m y (by omega) (by rw [← hy]; exact List.getElem?_eq_getElem _)

theorem grouping_ofChain_iff (g : Graph) (d : Declaration) (a : Attribute) :
    (EffectiveMarkers.ofChain (g.baseChain d)).grouping = some a ↔ GroupedBy g d a := by
  have hmarker (e : Declaration) (p : Attribute × String) :
      (Markers.read e.attributes).grouping.map (fun m => (m, e.name)) = some p ↔
        e.LastMarker .grouping p.1 ∧ p.2 = e.name := by
    simp only [Markers.read, Option.map_eq_some_iff, Declaration.last?_eq_some_iff]
    constructor
    · rintro ⟨m, hm, rfl⟩
      exact ⟨hm, rfl⟩
    · rintro ⟨hm, hname⟩
      exact ⟨p.1, hm, by rw [← hname]⟩
  have hbare (e : Declaration) :
      (Markers.read e.attributes).grouping.map (fun m => (m, e.name)) = none ↔
        ¬e.Bears .grouping := by
    rw [Option.map_eq_none_iff]
    exact e.last?_eq_none_iff .grouping
  unfold EffectiveMarkers.ofChain GroupedBy
  simp only [Option.map_eq_some_iff, findSome?_eq_some_iff_getElem?, hmarker, hbare,
    Graph.getElem?_types_baseChain]
  constructor
  · rintro ⟨p, ⟨place, e, hplace, ⟨hlast, -⟩, hnearer⟩, rfl⟩
    exact ⟨place, e, hplace, hlast, fun nearer f hlt hf => hnearer nearer f hlt hf⟩
  · rintro ⟨place, e, hplace, hlast, hnearer⟩
    exact ⟨(a, e.name), ⟨place, e, hplace, ⟨hlast, rfl⟩, fun m f hlt hf => hnearer m f hlt hf⟩, rfl⟩

theorem contentType_ofChain (g : Graph) (d : Declaration) :
    (EffectiveMarkers.ofChain (g.baseChain d)).own.contentType =
      Markers.last? d.attributes .contentType := by
  have hfirst : (g.baseChain d).types.head? = some d := by
    rw [List.head?_eq_getElem?, Graph.getElem?_types_baseChain]
    exact g.onChain_zero d
  simp [EffectiveMarkers.ofChain, hfirst, Markers.read]

theorem classMarkers?_eq_some_iff (g : Graph) (d : Declaration) (grouping contentType : Attribute) :
    classMarkers? g d = some (grouping, contentType) ↔
      d.kind = .classType ∧ d.isAbstract = false ∧ GroupedBy g d grouping ∧
        d.LastMarker .contentType contentType := by
  rw [← grouping_ofChain_iff, ← d.last?_eq_some_iff, ← contentType_ofChain g d]
  unfold classMarkers?
  by_cases hclass : d.kind ≠ .classType ∨ d.isAbstract
  · rw [if_pos hclass]
    constructor
    · intro h
      cases h
    · rintro ⟨hkind, hconcrete, -⟩
      simp [hkind, hconcrete] at hclass
  · rw [if_neg hclass]
    simp only [ne_eq, not_or, not_not, Bool.not_eq_true] at hclass
    simp only
    cases (EffectiveMarkers.ofChain (g.baseChain d)).grouping with
    | none => simp
    | some m =>
      cases (EffectiveMarkers.ofChain (g.baseChain d)).own.contentType with
      | none => simp
      | some t => simp [hclass.1, hclass.2]

/-- The nearest of the types that have a grouping marker is unique where there is any. -/
theorem exists_groupedBy_iff (g : Graph) (d : Declaration) :
    (∃ a, GroupedBy g d a) ↔ ∃ place e, g.OnChain d place e ∧ e.Bears .grouping := by
  constructor
  · rintro ⟨a, place, e, hplace, hlast, -⟩
    exact ⟨place, e, hplace, hlast.bears⟩
  · rintro ⟨place, e, hplace, hbears⟩
    induction place using Nat.strong_induction_on generalizing e with
    | _ place ih =>
      by_cases hnearer : ∃ nearer f, nearer < place ∧ g.OnChain d nearer f ∧ f.Bears .grouping
      · obtain ⟨nearer, f, hlt, hf, hbearsf⟩ := hnearer
        exact ih nearer hlt f hf hbearsf
      · obtain ⟨a, hlast⟩ := (e.bears_iff_lastMarker .grouping).1 hbears
        refine ⟨a, place, e, hplace, hlast, fun nearer f hlt hf hbearsf => ?_⟩
        exact hnearer ⟨nearer, f, hlt, hf, hbearsf⟩

theorem eligible_iff_classMarkers? (g : Graph) (d : Declaration) :
    Eligible g d ↔ ∃ markers, classMarkers? g d = some markers := by
  constructor
  · rintro ⟨hkind, hconcrete, htyped, hgrouped⟩
    obtain ⟨grouping, hgrouping⟩ := (exists_groupedBy_iff g d).2 hgrouped
    obtain ⟨contentType, htype⟩ := (d.bears_iff_lastMarker .contentType).1 htyped
    exact ⟨(grouping, contentType), (classMarkers?_eq_some_iff g d grouping contentType).2
      ⟨hkind, hconcrete, hgrouping, htype⟩⟩
  · rintro ⟨⟨grouping, contentType⟩, hmarkers⟩
    obtain ⟨hkind, hconcrete, hgrouping, htype⟩ :=
      (classMarkers?_eq_some_iff g d grouping contentType).1 hmarkers
    exact ⟨hkind, hconcrete, htype.bears, (exists_groupedBy_iff g d).1 ⟨grouping, hgrouping⟩⟩

/-! ### The class of one declaration -/

/-- What resolution gives for a declaration alone, where nobody stops it. -/
def Alone (g : Graph) (d : Declaration) (c : Option ContentClass) : Prop :=
  ∃ reports, (resolve g d).run.run (Watch.start false none) = (.ok c, ⟨reports, false, none⟩)

theorem resolve_performs (g : Graph) (d : Declaration) :
    Performs (resolve g d) ((origin? g d).map (·.contentClass)) (originActs g d ++ []) :=
  Performs.bind (resolveOrigin_performs g d) (Performs.pure _)

theorem alone_origin? (g : Graph) (d : Declaration) :
    Alone g d ((origin? g d).map (·.contentClass)) :=
  ⟨_, (resolve_performs g d).of_quiet⟩

/-- The class is what resolution gives for the declaration alone, and the nearest grouping marker
gives its group and its order. -/
structure ClassOf (g : Graph) (d : Declaration) (c : ContentClass) : Prop where
  alone : Alone g d (some c)
  grouped : ∃ marker, GroupedBy g d marker ∧ c.group = (groupOf marker d.fullName).1 ∧
    c.order = (orderOf marker d.fullName).1

theorem classOf_of_origin? {g : Graph} {d : Declaration} {r : Resolved}
    (h : origin? g d = some r) : ClassOf g d r.contentClass := by
  have halone := alone_origin? g d
  rw [h] at halone
  refine ⟨halone, ?_⟩
  obtain ⟨⟨grouping, contentType⟩, hmarkers, rfl⟩ := Option.map_eq_some_iff.1 h
  have hparts := (classMarkers?_eq_some_iff g d grouping contentType).1 hmarkers
  exact ⟨grouping, hparts.2.2.1, rfl, rfl⟩

theorem eligible_iff_origin? (g : Graph) (d : Declaration) :
    Eligible g d ↔ ∃ r, origin? g d = some r := by
  rw [eligible_iff_classMarkers?]
  unfold origin?
  cases classMarkers? g d <;> simp

/-! ### All classes -/

/-- One class comes before another: by order, then by name, then by the place of declaration. -/
def Before (a b : Nat × ContentClass) : Prop :=
  a.2.order < b.2.order ∨ (a.2.order = b.2.order ∧
    (a.2.fullName < b.2.fullName ∨ (a.2.fullName = b.2.fullName ∧ a.1 < b.1)))

/-- The entries, each a place among the declarations and a class, are those of the eligible
declarations in order. -/
structure Roster (g : Graph) (entries : List (Nat × ContentClass)) : Prop where
  once : (entries.map Prod.fst).Nodup
  sound : ∀ place c, (place, c) ∈ entries →
    ∃ d, g.types[place]? = some d ∧ Eligible g d ∧ ClassOf g d c
  complete : ∀ place d, g.types[place]? = some d → Eligible g d → ∃ c, (place, c) ∈ entries
  sorted : entries.Pairwise Before

/-- The classes of some declarations with their places, the first of which is given. -/
def placedClasses (g : Graph) (start : Nat) (ds : List Declaration) :
    List (Nat × ContentClass) :=
  (ds.zipIdx start).filterMap fun e => (origin? g e.1).map fun r => (e.2, r.contentClass)

theorem placedClasses_cons (g : Graph) (start : Nat) (d : Declaration) (ds : List Declaration) :
    placedClasses g start (d :: ds) =
      ((origin? g d).map fun r => (start, r.contentClass)).toList ++
        placedClasses g (start + 1) ds := by
  unfold placedClasses
  rw [List.zipIdx_cons, List.filterMap_cons]
  cases origin? g d <;> rfl

theorem map_snd_placedClasses (g : Graph) (start : Nat) (ds : List Declaration) :
    (placedClasses g start ds).map Prod.snd = classesOf g ds := by
  induction ds generalizing start with
  | nil => rfl
  | cons d ds ih =>
    rw [placedClasses_cons, classesOf_cons, List.map_append, ih]
    cases origin? g d <;> rfl

theorem mem_placedClasses_iff (g : Graph) (ds : List Declaration) (place : Nat)
    (c : ContentClass) :
    (place, c) ∈ placedClasses g 0 ds ↔
      ∃ d r, ds[place]? = some d ∧ origin? g d = some r ∧ r.contentClass = c := by
  unfold placedClasses
  rw [List.mem_filterMap]
  constructor
  · rintro ⟨⟨d, n⟩, hmem, hentry⟩
    obtain ⟨r, hr, hpair⟩ := Option.map_eq_some_iff.1 hentry
    obtain ⟨rfl, hclass⟩ := Prod.mk.inj hpair
    exact ⟨d, r, List.mem_zipIdx_iff_getElem?.1 hmem, hr, hclass⟩
  · rintro ⟨d, r, hget, hr, rfl⟩
    exact ⟨(d, place), List.mem_zipIdx_iff_getElem?.2 hget, by rw [hr]; rfl⟩

theorem le_of_mem_placedClasses {g : Graph} {start : Nat} {ds : List Declaration}
    {e : Nat × ContentClass} (h : e ∈ placedClasses g start ds) : start ≤ e.1 := by
  obtain ⟨⟨d, place⟩, hmem, hentry⟩ := List.mem_filterMap.1 h
  obtain ⟨r, -, rfl⟩ := Option.map_eq_some_iff.1 hentry
  exact List.le_snd_of_mem_zipIdx hmem

theorem pairwise_placedClasses (g : Graph) (start : Nat) (ds : List Declaration) :
    (placedClasses g start ds).Pairwise fun a b => a.1 < b.1 := by
  induction ds generalizing start with
  | nil => exact List.Pairwise.nil
  | cons d ds ih =>
    rw [placedClasses_cons]
    cases origin? g d with
    | none => exact ih (start + 1)
    | some r => exact List.pairwise_cons.2 ⟨fun _ => le_of_mem_placedClasses, ih (start + 1)⟩

/-- The classes with their places in the order of the classes. -/
def rosterOf (g : Graph) : List (Nat × ContentClass) :=
  (placedClasses g 0 g.types).mergeSort fun a b => precedes a.2 b.2

theorem map_snd_rosterOf (g : Graph) : (rosterOf g).map Prod.snd = declaredClasses g := by
  rw [declaredClasses, ← map_snd_placedClasses g 0, rosterOf, sortClasses]
  exact List.map_mergeSort fun a _ b _ => rfl

theorem rosterOf_sorted (g : Graph) : (rosterOf g).Pairwise Before := by
  have htrans (a b c : Nat × ContentClass) :
      precedes a.2 b.2 = true → precedes b.2 c.2 = true → precedes a.2 c.2 = true :=
    precedes_trans a.2 b.2 c.2
  have htotal (a b : Nat × ContentClass) : (precedes a.2 b.2 || precedes b.2 a.2) = true :=
    precedes_total a.2 b.2
  have hties := pairwise_ties_mergeSort htrans htotal (pairwise_placedClasses g 0 g.types)
  refine hties.imp fun {a b} h => ?_
  obtain ⟨hle, htie⟩ := h
  rcases (precedes_iff a.2 b.2).1 hle with horder | ⟨horder, hname⟩
  · exact Or.inl horder
  · refine Or.inr ⟨horder, ?_⟩
    by_cases hsame : a.2.fullName = b.2.fullName
    · have hback : precedes b.2 a.2 = true :=
        (precedes_iff b.2 a.2).2 (Or.inr ⟨horder.symm, hsame ▸ String.le_refl _⟩)
      exact Or.inr ⟨hsame, htie hback⟩
    · have hnot : ¬b.2.fullName ≤ a.2.fullName :=
        fun hback => hsame (String.le_antisymm hname hback)
      exact Or.inl (String.not_le.1 hnot)

theorem roster_rosterOf (g : Graph) : Roster g (rosterOf g) := by
  have hperm : (rosterOf g).Perm (placedClasses g 0 g.types) := List.mergeSort_perm ..
  refine ⟨?_, fun place c hmem => ?_, fun place d hget heligible => ?_, rosterOf_sorted g⟩
  · have hplaces : ((placedClasses g 0 g.types).map Prod.fst).Nodup := by
      rw [List.nodup_iff_pairwise_ne, List.pairwise_map]
      exact (pairwise_placedClasses g 0 g.types).imp fun h => Nat.ne_of_lt h
    exact (hperm.map Prod.fst).nodup_iff.2 hplaces
  · obtain ⟨d, r, hget, hr, rfl⟩ :=
      (mem_placedClasses_iff g g.types place c).1 (hperm.mem_iff.1 hmem)
    exact ⟨d, hget, (eligible_iff_origin? g d).2 ⟨r, hr⟩, classOf_of_origin? hr⟩
  · obtain ⟨r, hr⟩ := (eligible_iff_origin? g d).1 heligible
    exact ⟨r.contentClass, hperm.mem_iff.2
      ((mem_placedClasses_iff g g.types place r.contentClass).2 ⟨d, r, hget, hr, rfl⟩)⟩

/-- Resolution gives the class of every eligible declaration once and no other class, in order;
of any other declaration alone it gives none. -/
theorem resolveAll_roster (g : Graph) :
    (∃ entries reports, (resolveAll g).run.run (Watch.start false none) =
        (.ok (entries.map Prod.snd), ⟨reports, false, none⟩) ∧ Roster g entries) ∧
      ∀ d, Alone g d none ↔ ¬Eligible g d := by
  constructor
  · have hrun := (resolveAll_performs g).of_quiet
    rw [← map_snd_rosterOf] at hrun
    exact ⟨rosterOf g, _, hrun, roster_rosterOf g⟩
  · intro d
    rw [eligible_iff_origin?]
    obtain ⟨reports, hrun⟩ := alone_origin? g d
    constructor
    · rintro ⟨told, hnone⟩ ⟨r, hr⟩
      rw [hrun, hr] at hnone
      cases hnone
    · intro hnot
      have hnone : origin? g d = none := by
        cases horigin : origin? g d with
        | none => rfl
        | some r => exact absurd ⟨r, horigin⟩ hnot
      rw [hnone] at hrun
      exact ⟨reports, hrun⟩

end Resolution

end ContentLoom

import ContentLoom.Proofs.BaseChains
import ContentLoom.Proofs.Loops
import Mathlib.Order.Bounds.Defs

/-!
# How chains of bases end

From a type one can step to its base, to the base of that, and so on.  The chain
of the type is the longest run of such steps on which no full name comes again,
up to 64 types.  Where one more step leads on, to a name that was met or past
the bound, the chain is cyclic; where the last type has a base that is not
declared, the chain tells it.  A walk that notes the names it has visited comes
to this end after at most 64 turns.
-/

namespace ContentLoom.Graph

/-! ### Runs of steps -/

theorem ascend_succ (g : Graph) (d : Declaration) (n : Nat) :
    g.ascend d (n + 1) = (g.ascend d n).bind g.baseOf? := by
  induction n generalizing d with
  | zero =>
    rw [ascend, ascend, Option.bind_some]
    cases g.baseOf? d <;> rfl
  | succ n ih =>
    rw [ascend, ascend, Option.bind_assoc]
    simp only [ih]

/-- The first types up from `d` are there, and no two of them have one full name. -/
structure Climbs (g : Graph) (d : Declaration) (m : Nat) : Prop where
  present : ∀ n < m, (g.ascend d n).isSome = true
  apart : ∀ i j x y, i < j → j < m → g.ascend d i = some x → g.ascend d j = some y →
    x.fullName ≠ y.fullName

theorem climbs_iff (g : Graph) (d : Declaration) {m : Nat} (hm : m ≤ hierarchyLimit) :
    g.Climbs d m ↔ ∀ n < m, ∃ e, g.OnChain d n e := by
  constructor
  · intro h n hn
    obtain ⟨e, he⟩ := Option.isSome_iff_exists.1 (h.present n hn)
    exact ⟨e, by omega, he, fun i j x y hlt hle => h.apart i j x y hlt (by omega)⟩
  · intro h
    refine ⟨fun n hn => ?_, fun i j x y hlt hj => ?_⟩
    · obtain ⟨e, he⟩ := h n hn
      rw [he.reached, Option.isSome_some]
    · obtain ⟨e, he⟩ := h j hj
      exact he.fresh i j x y hlt (Nat.le_refl j)

theorem lt_length_baseChain_iff (g : Graph) (d : Declaration) (n : Nat) :
    n < (g.baseChain d).types.length ↔ ∃ e, g.OnChain d n e := by
  constructor
  · intro h
    exact ⟨_, (getElem?_types_baseChain ..).1 (List.getElem?_eq_getElem h)⟩
  · rintro ⟨e, he⟩
    exact (List.getElem?_eq_some_iff.1 ((getElem?_types_baseChain ..).2 he)).1

theorem length_baseChain_le (g : Graph) (d : Declaration) :
    (g.baseChain d).types.length ≤ hierarchyLimit := by
  refine Nat.le_of_not_lt fun hlong => ?_
  obtain ⟨e, he⟩ := (lt_length_baseChain_iff g d hierarchyLimit).1 hlong
  exact absurd he.short (Nat.lt_irrefl _)

theorem length_baseChain_pos (g : Graph) (d : Declaration) :
    0 < (g.baseChain d).types.length :=
  (lt_length_baseChain_iff g d 0).2 ⟨d, onChain_zero g d⟩

/-- The chain is as long as it can be. -/
theorem isGreatest_length_baseChain (g : Graph) (d : Declaration) :
    IsGreatest {m | m ≤ hierarchyLimit ∧ g.Climbs d m} (g.baseChain d).types.length := by
  have hbound := length_baseChain_le g d
  refine ⟨⟨hbound, (climbs_iff g d hbound).2 fun n hn => ?_⟩, fun m hm => ?_⟩
  · exact (lt_length_baseChain_iff g d n).1 hn
  · obtain ⟨hm, hclimbs⟩ := hm
    refine Nat.le_of_not_lt fun hshort => ?_
    obtain ⟨e, he⟩ := (climbs_iff g d hm).1 hclimbs _ hshort
    exact Nat.lt_irrefl _ ((lt_length_baseChain_iff g d _).2 ⟨e, he⟩)

theorem getElem?_baseChain (g : Graph) (d : Declaration) {n : Nat}
    (h : n < (g.baseChain d).types.length) : (g.baseChain d).types[n]? = g.ascend d n := by
  obtain ⟨e, he⟩ := (lt_length_baseChain_iff g d n).1 h
  rw [(getElem?_types_baseChain g d e n).2 he, he.reached]

/-! ### The last type -/

/-- The base of a type as it is written, where it is not declared. -/
def undeclaredBase? (g : Graph) (d : Declaration) : Option TypeRef :=
  d.base.filter fun t => (g.resolveIn? t.name d.ns).isNone

theorem undeclaredBase?_eq_some_iff {g : Graph} {d : Declaration} {t : TypeRef} :
    g.undeclaredBase? d = some t ↔ d.base = some t ∧ g.resolveIn? t.name d.ns = none := by
  rw [undeclaredBase?, Option.filter_eq_some_iff, Option.isNone_iff_eq_none]

/-- The chain has come to its last type, and says why it goes no further. -/
structure EndsAt (g : Graph) (c : BaseChain) (last : Declaration) : Prop where
  isLast : c.types.getLast? = some last
  cyclic : c.cyclic = (g.baseOf? last).isSome
  undeclaredRoot : c.undeclaredRoot = g.undeclaredBase? last

theorem endsAt_of_declared_base {g : Graph} {d base : Declaration} {t : TypeRef}
    (hbase : d.base = some t) (hfound : g.resolveIn? t.name d.ns = some base) :
    g.EndsAt ⟨[d], true, none⟩ d :=
  ⟨rfl, by simp [baseOf?, hbase, hfound],
    by simp [undeclaredBase?, hbase, hfound, Option.filter_some]⟩

theorem exists_endsAt_follow (g : Graph) (room : Nat) (visited : List String) (d : Declaration) :
    ∃ last, g.EndsAt (g.follow room visited d) last := by
  fun_induction follow g room visited d with
  | case1 room visited d hbase =>
    exact ⟨d, rfl, by simp [baseOf?, hbase], by simp [undeclaredBase?, hbase]⟩
  | case2 room visited d t hbase hnone =>
    exact ⟨d, rfl, by simp [baseOf?, hbase, hnone],
      by simp [undeclaredBase?, hbase, hnone, Option.filter_some]⟩
  | case3 visited d t hbase base hfound => exact ⟨d, endsAt_of_declared_base hbase hfound⟩
  | case4 visited d t hbase base hfound room hseen =>
    exact ⟨d, endsAt_of_declared_base hbase hfound⟩
  | case5 visited d t hbase base hfound room hnew above ih =>
    obtain ⟨last, hlast, hcyclic, hroot⟩ := ih
    refine ⟨last, ?_, hcyclic, hroot⟩
    rw [List.getLast?_cons, hlast, Option.getD_some]

theorem exists_endsAt_baseChain (g : Graph) (d : Declaration) :
    ∃ last, g.ascend d ((g.baseChain d).types.length - 1) = some last ∧
      g.EndsAt (g.baseChain d) last := by
  obtain ⟨last, hend⟩ := exists_endsAt_follow g (hierarchyLimit - 1) [d.fullName] d
  have hpos := length_baseChain_pos g d
  have hlast := hend.isLast
  rw [List.getLast?_eq_getElem?] at hlast
  refine ⟨last, ?_, hend⟩
  rw [← getElem?_baseChain g d (Nat.sub_one_lt_of_lt hpos)]
  exact hlast

/-! ### The walk turn by turn -/

/-- Where a walk stands: the types it came through, the names it visited, and the last type. -/
structure Walk where
  types : List Declaration
  visited : List String
  current : Declaration

namespace Walk

/-- A walk before its first turn. -/
def start (d : Declaration) : Walk := ⟨[d], [d.fullName], d⟩

/-- One turn: the walk goes on to the base of its type, or ends.  The name of the base is noted
before the names are counted. -/
def turn (g : Graph) (w : Walk) : Walk ⊕ BaseChain :=
  match w.current.base with
  | none => .inr ⟨w.types, false, none⟩
  | some written =>
    match g.resolveIn? written.name w.current.ns with
    | none => .inr ⟨w.types, false, some written⟩
    | some base =>
      let visited := base.fullName :: w.visited
      if w.visited.contains base.fullName ∨ hierarchyLimit < visited.length then
        .inr ⟨w.types, true, none⟩
      else .inl ⟨w.types ++ [base], visited, base⟩

end Walk

/-- The names that may still be visited are the room that the chain has left. -/
theorem ends_follow (g : Graph) (room : Nat) (visited : List String) (d : Declaration)
    (front : List Declaration) (hroom : visited.length + room = hierarchyLimit) :
    ∃ turns ≤ room + 1, Loop.Ends (Walk.turn g) ⟨front ++ [d], visited, d⟩ turns
      ⟨front ++ (g.follow room visited d).types, (g.follow room visited d).cyclic,
        (g.follow room visited d).undeclaredRoot⟩ := by
  fun_induction follow g room visited d generalizing front with
  | case1 room visited d hbase =>
    exact ⟨1, Nat.le_add_left .., .stop (by simp [Walk.turn, hbase])⟩
  | case2 room visited d t hbase hnone =>
    exact ⟨1, Nat.le_add_left .., .stop (by simp [Walk.turn, hbase, hnone])⟩
  | case3 visited d t hbase base hfound =>
    have hfull : hierarchyLimit < (base.fullName :: visited).length := by
      rw [List.length_cons]
      omega
    refine ⟨1, Nat.le_refl _, .stop ?_⟩
    simp only [Walk.turn, hbase, hfound, hfull, or_true, if_true]
  | case4 visited d t hbase base hfound room hseen =>
    refine ⟨1, Nat.le_add_left .., .stop ?_⟩
    simp only [Walk.turn, hbase, hfound, hseen, true_or, if_true]
  | case5 visited d t hbase base hfound room hnew above ih =>
    have hfits : (base.fullName :: visited).length + room = hierarchyLimit := by
      rw [List.length_cons]
      omega
    obtain ⟨turns, hturns, hends⟩ := ih (front ++ [d]) hfits
    have hturn : Walk.turn g ⟨front ++ [d], visited, d⟩ =
        .inl ⟨front ++ [d] ++ [base], base.fullName :: visited, base⟩ := by
      have hnotFull : ¬hierarchyLimit < (base.fullName :: visited).length := by omega
      simp only [Walk.turn, hbase, hfound, hnew, hnotFull, Bool.false_eq_true, or_self,
        if_false]
    refine ⟨turns + 1, Nat.succ_le_succ hturns, .go hturn ?_⟩
    have htypes : front ++ [d] ++ above.types = front ++ d :: above.types := by
      rw [List.append_assoc, List.singleton_append]
    rw [htypes] at hends
    exact hends

/-- The chain of a type is the longest run of declared bases, of 64 types at most, on which no full
name comes again.  It is cyclic where another step would lead on, and tells the base of its last
type where that is written but not declared.  The walk ends for every graph, and with this chain. -/
theorem baseChain_longest (g : Graph) (d : Declaration) :
    (∃ m, IsGreatest {m | m ≤ hierarchyLimit ∧ g.Climbs d m} m ∧ 0 < m ∧
      (g.baseChain d).types.length = m ∧
      (∀ n < m, (g.baseChain d).types[n]? = g.ascend d n) ∧
      ((g.baseChain d).cyclic = true ↔ (g.ascend d m).isSome = true) ∧
      ∀ t, (g.baseChain d).undeclaredRoot = some t ↔
        ∃ last, g.ascend d (m - 1) = some last ∧ last.base = some t ∧
          g.resolveIn? t.name last.ns = none) ∧
      ∃ turns ≤ hierarchyLimit, ∀ n c, Loop.Ends (Walk.turn g) (.start d) n c ↔
        n = turns ∧ c = g.baseChain d := by
  obtain ⟨last, hlast, hend⟩ := exists_endsAt_baseChain g d
  have hpos := length_baseChain_pos g d
  refine ⟨⟨_, isGreatest_length_baseChain g d, hpos, rfl, fun n hn => getElem?_baseChain g d hn,
    ?_, fun t => ?_⟩, ?_⟩
  · have hnext := ascend_succ g d ((g.baseChain d).types.length - 1)
    rw [Nat.sub_add_cancel hpos, hlast, Option.bind_some] at hnext
    rw [hend.cyclic, hnext]
  · rw [hend.undeclaredRoot, undeclaredBase?_eq_some_iff, hlast]
    constructor
    · intro h
      exact ⟨last, rfl, h⟩
    · rintro ⟨last', hsame, h⟩
      rwa [Option.some.inj hsame]
  · obtain ⟨turns, hturns, hends⟩ :=
      ends_follow g (hierarchyLimit - 1) [d.fullName] d [] rfl
    exact ⟨turns, hturns, hends.iff⟩

end ContentLoom.Graph

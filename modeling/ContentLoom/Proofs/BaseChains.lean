import ContentLoom.Proofs.ResolutionActs

/-!
# Chains of bases

Which types are on the chain of a declared type: those that a number of steps
from each type to its base lead to, as long as no full name comes again and the
chain is not too long.  Where the bases loop, or one of them is not declared,
the chain ends there.
-/

namespace ContentLoom.Graph

/-! ### Steps -/

/-- The type that a number of steps to the base lead to. -/
def ascend (g : Graph) : Declaration → Nat → Option Declaration
  | d, 0 => some d
  | d, n + 1 => (g.baseOf? d).bind fun base => g.ascend base n

/-- The type stands at a place of the chain of `d`. -/
structure OnChain (g : Graph) (d : Declaration) (place : Nat) (e : Declaration) : Prop where
  short : place < hierarchyLimit
  reached : g.ascend d place = some e
  fresh : ∀ i j x y, i < j → j ≤ place → g.ascend d i = some x → g.ascend d j = some y →
    x.fullName ≠ y.fullName

theorem ascend_of_base {g : Graph} {d base : Declaration} (h : g.baseOf? d = some base) (n : Nat) :
    g.ascend d (n + 1) = g.ascend base n := by
  rw [ascend, h, Option.bind_some]

theorem ascend_of_no_base {g : Graph} {d : Declaration} (h : g.baseOf? d = none) (n : Nat) :
    g.ascend d (n + 1) = none := by
  rw [ascend, h, Option.bind_none]

/-! ### The walk -/

/-- The types of a walk: another base is followed where there is room and its name is new. -/
theorem types_follow (g : Graph) (room : Nat) (visited : List String) (d : Declaration) :
    (g.follow room visited d).types = d ::
      match room, g.baseOf? d with
      | room + 1, some base =>
        if visited.contains base.fullName then []
        else (g.follow room (base.fullName :: visited) base).types
      | _, _ => [] := by
  cases hwritten : d.base with
  | none =>
    have hbase : g.baseOf? d = none := by rw [baseOf?, hwritten, Option.bind_none]
    rw [follow, hwritten, hbase]
    cases room <;> rfl
  | some written =>
    have hbase : g.baseOf? d = g.resolveIn? written.name d.ns := by
      rw [baseOf?, hwritten, Option.bind_some]
    rw [follow, hwritten, hbase]
    simp only
    cases g.resolveIn? written.name d.ns with
    | none => cases room <;> rfl
    | some base =>
      cases room with
      | zero => rfl
      | succ room =>
        simp only
        split <;> rfl

/-- On the first steps up no name is met that was visited before, and none twice. -/
structure Unvisited (g : Graph) (visited : List String) (d : Declaration) (n : Nat) : Prop where
  new : ∀ j y, 0 < j → j ≤ n → g.ascend d j = some y → y.fullName ∉ visited
  apart : ∀ i j x y, 0 < i → i < j → j ≤ n → g.ascend d i = some x → g.ascend d j = some y →
    x.fullName ≠ y.fullName

theorem unvisited_zero (g : Graph) (visited : List String) (d : Declaration) :
    g.Unvisited visited d 0 := by
  constructor
  · intro j y hpos hle
    omega
  · intro i j x y hpos hlt hle
    omega

theorem unvisited_succ_iff {g : Graph} {d base : Declaration} (hbase : g.baseOf? d = some base)
    (visited : List String) (n : Nat) :
    g.Unvisited visited d (n + 1) ↔
      base.fullName ∉ visited ∧ g.Unvisited (base.fullName :: visited) base n := by
  have hup := ascend_of_base hbase
  have hfirst : g.ascend d 1 = some base := hup 0
  constructor
  · rintro ⟨hnew, hapart⟩
    refine ⟨hnew 1 base Nat.one_pos (by omega) hfirst, ⟨fun j y hpos hle hy => ?_, ?_⟩⟩
    · rw [← hup] at hy
      have hunseen := hnew (j + 1) y (Nat.succ_pos j) (by omega) hy
      have hother := hapart 1 (j + 1) base y Nat.one_pos (by omega) (by omega) hfirst hy
      simp only [List.mem_cons, not_or]
      exact ⟨Ne.symm hother, hunseen⟩
    · intro i j x y hpos hlt hle hx hy
      rw [← hup] at hx hy
      exact hapart (i + 1) (j + 1) x y (Nat.succ_pos i) (by omega) (by omega) hx hy
  · rintro ⟨hunseen, hnew, hapart⟩
    refine ⟨fun j y hpos hle hy => ?_, fun i j x y hpos hlt hle hx hy => ?_⟩
    · obtain ⟨j, rfl⟩ := Nat.exists_eq_succ_of_ne_zero (Nat.pos_iff_ne_zero.1 hpos)
      rw [hup] at hy
      cases j with
      | zero =>
        cases hy
        exact hunseen
      | succ j =>
        have hnot := hnew (j + 1) y (Nat.succ_pos j) (by omega) hy
        exact fun hmem => hnot (List.mem_cons_of_mem _ hmem)
    · obtain ⟨i, rfl⟩ := Nat.exists_eq_succ_of_ne_zero (Nat.pos_iff_ne_zero.1 hpos)
      obtain ⟨j, rfl⟩ := Nat.exists_eq_succ_of_ne_zero (by omega : j ≠ 0)
      rw [hup] at hx hy
      cases i with
      | zero =>
        cases hx
        have hnot := hnew j y (by omega) (by omega) hy
        exact fun heq => hnot (heq ▸ List.mem_cons_self ..)
      | succ i => exact hapart (i + 1) j x y (Nat.succ_pos i) (by omega) (by omega) hx hy

theorem getElem?_types_follow (g : Graph) (room n : Nat) (visited : List String)
    (d e : Declaration) :
    (g.follow room visited d).types[n]? = some e ↔
      n ≤ room ∧ g.ascend d n = some e ∧ g.Unvisited visited d n := by
  induction n generalizing room visited d with
  | zero =>
    rw [types_follow, List.getElem?_cons_zero]
    constructor
    · intro h
      exact ⟨Nat.zero_le _, h, unvisited_zero g visited d⟩
    · exact fun h => h.2.1
  | succ n ih =>
    rw [types_follow, List.getElem?_cons_succ]
    cases hbase : g.baseOf? d with
    | none =>
      rw [ascend_of_no_base hbase]
      cases room <;> simp
    | some base =>
      cases room with
      | zero => simp
      | succ room =>
        simp only [ascend_of_base hbase, unvisited_succ_iff hbase, Nat.add_le_add_iff_right]
        by_cases hseen : base.fullName ∈ visited
        · simp [hseen]
        · simp [hseen, ih]

/-- The chain of a type holds the types that are on it, each at its place. -/
theorem getElem?_types_baseChain (g : Graph) (d e : Declaration) (n : Nat) :
    (g.baseChain d).types[n]? = some e ↔ g.OnChain d n e := by
  have hlimit : n ≤ hierarchyLimit - 1 ↔ n < hierarchyLimit := by
    simp only [hierarchyLimit]
    omega
  rw [baseChain, getElem?_types_follow, hlimit]
  constructor
  · rintro ⟨hshort, hreached, hnew, hapart⟩
    refine ⟨hshort, hreached, fun i j x y hlt hle hx hy => ?_⟩
    cases i with
    | zero =>
      cases hx
      have hnot := hnew j y hlt hle hy
      exact fun heq => hnot (List.mem_singleton.2 heq.symm)
    | succ i => exact hapart (i + 1) j x y (Nat.succ_pos i) hlt hle hx hy
  · rintro ⟨hshort, hreached, hfresh⟩
    refine ⟨hshort, hreached, ⟨fun j y hpos hle hy hmem => ?_, ?_⟩⟩
    · exact hfresh 0 j d y hpos hle rfl hy (List.mem_singleton.1 hmem).symm
    · intro i j x y _ hlt hle hx hy
      exact hfresh i j x y hlt hle hx hy

theorem onChain_zero (g : Graph) (d : Declaration) : g.OnChain d 0 d := by
  rw [← getElem?_types_baseChain, baseChain, types_follow]
  rfl

end ContentLoom.Graph

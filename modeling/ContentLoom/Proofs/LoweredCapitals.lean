import ContentLoom.Model.CamelCase

/-!
# How much of a name is lowered

Camel case lowers the first characters of a name and leaves the others as they
are.  How many it lowers depends on the run of capitals at the front alone, on
whether the name ends with it, and on whether a space stands behind it.
-/

namespace ContentLoom.Model

open Text

/-- The number of capitals at the front. -/
def capitals (cs : List Char) : Nat := (cs.takeWhile isUppercase).length

/-- How many of several capitals at the front are lowered: all of them where the name ends with
them or a space stands behind them, and elsewhere all but the last, which starts a word. -/
def loweredRun (cs : List Char) : Nat :=
  if capitals cs = cs.length then cs.length
  else if cs[capitals cs]? = some ' ' then capitals cs
  else capitals cs - 1

/-- How many characters are lowered: none without a capital at the front, and one capital by
itself. -/
def lowered (cs : List Char) : Nat := if capitals cs ≤ 1 then capitals cs else loweredRun cs

/-- The characters with the first of them lowered, each to the first character of its lower
case. -/
def lowerFront (count : Nat) (cs : List Char) : List Char :=
  (cs.take count).map (fun c => (toLower c).head (toLower_ne_nil c)) ++ cs.drop count

theorem head_toLower (c : Char) : (toLower c).head (toLower_ne_nil c) = lowerHead c := by
  unfold toLower
  split <;> rfl

theorem lowerFront_zero (cs : List Char) : lowerFront 0 cs = cs := rfl

theorem lowerFront_succ (count : Nat) (c : Char) (cs : List Char) :
    lowerFront (count + 1) (c :: cs) = lowerHead c :: lowerFront count cs := by
  rw [lowerFront, List.take_succ_cons, List.map_cons, List.drop_succ_cons, head_toLower,
    List.cons_append, lowerFront]

/-! ### The run of capitals -/

theorem capitals_of_upper {c : Char} (h : isUppercase c = true) (cs : List Char) :
    capitals (c :: cs) = capitals cs + 1 := by
  rw [capitals, List.takeWhile_cons_of_pos h, List.length_cons, capitals]

theorem capitals_of_not_upper {c : Char} (h : ¬isUppercase c = true) (cs : List Char) :
    capitals (c :: cs) = 0 := by
  rw [capitals, List.takeWhile_cons_of_neg h, List.length_nil]

theorem isUppercase_of_capitals {c : Char} {cs : List Char} (h : 1 ≤ capitals (c :: cs)) :
    isUppercase c = true := by
  refine Decidable.byContradiction fun hlower => ?_
  rw [capitals_of_not_upper hlower] at h
  omega

/-- A capital in front of a run is lowered with it. -/
theorem loweredRun_cons {c : Char} (hc : isUppercase c = true) {cs : List Char}
    (hcs : 1 ≤ capitals cs) : loweredRun (c :: cs) = loweredRun cs + 1 := by
  unfold loweredRun
  rw [capitals_of_upper hc, List.length_cons, List.getElem?_cons_succ]
  by_cases hwhole : capitals cs = cs.length
  · rw [if_pos (by omega), if_pos hwhole]
  · rw [if_neg (by omega), if_neg hwhole]
    split
    · rfl
    · omega

/-- What is done behind the first capital, where at least one more follows. -/
theorem lowerRun_eq {cs : List Char} (h : 1 ≤ capitals cs) :
    lowerRun cs = lowerFront (loweredRun cs) cs := by
  fun_induction lowerRun cs with
  | case1 => exact absurd h (by decide)
  | case2 c =>
    have hrun : loweredRun [c] = 1 := by
      rw [loweredRun, capitals_of_upper (isUppercase_of_capitals h)]
      rfl
    rw [hrun, lowerFront_succ, lowerFront_zero]
  | case3 c next rest hnext ih =>
    have hlater : 1 ≤ capitals (next :: rest) := by
      rw [capitals_of_upper hnext]
      omega
    rw [loweredRun_cons (isUppercase_of_capitals h) hlater, lowerFront_succ, ih hlater]
  | case4 c rest hnext =>
    have hone : capitals (c :: ' ' :: rest) = 1 := by
      rw [capitals_of_upper (isUppercase_of_capitals h), capitals_of_not_upper hnext]
    have hrun : loweredRun (c :: ' ' :: rest) = 1 := by
      rw [loweredRun, hone]
      rfl
    rw [hrun, lowerFront_succ, lowerFront_zero]
  | case5 c next rest hnext hspace =>
    have hone : capitals (c :: next :: rest) = 1 := by
      rw [capitals_of_upper (isUppercase_of_capitals h), capitals_of_not_upper hnext]
    have hrun : loweredRun (c :: next :: rest) = 0 := by
      rw [loweredRun, hone]
      simp [hspace]
    rw [hrun, lowerFront_zero]

/-! ### Names -/

theorem camelChars_of_not_upper {c : Char} (h : ¬isUppercase c = true) (cs : List Char) :
    camelChars (c :: cs) = c :: cs := if_neg h

theorem camelChars_singleton {c : Char} (h : isUppercase c = true) :
    camelChars [c] = [lowerHead c] := if_pos h

theorem camelChars_cons_cons {c : Char} (h : isUppercase c = true) (d : Char) (cs : List Char) :
    camelChars (c :: d :: cs) =
      lowerHead c :: if isUppercase d then lowerRun (d :: cs) else d :: cs := if_pos h

theorem camelChars_eq (cs : List Char) : camelChars cs = lowerFront (lowered cs) cs := by
  cases cs with
  | nil => rfl
  | cons c rest =>
    by_cases hc : isUppercase c = true
    · rw [lowered, capitals_of_upper hc]
      cases rest with
      | nil =>
        have hnone : capitals [] = 0 := rfl
        rw [camelChars_singleton hc, hnone, if_pos (by omega), lowerFront_succ, lowerFront_zero]
      | cons d rest =>
        rw [camelChars_cons_cons hc]
        by_cases hd : isUppercase d = true
        · have hlater : 1 ≤ capitals (d :: rest) := by
            rw [capitals_of_upper hd]
            omega
          rw [if_pos hd, if_neg (by omega), loweredRun_cons hc hlater, lowerFront_succ,
            ← lowerRun_eq hlater]
        · rw [if_neg hd, capitals_of_not_upper hd, if_pos (by omega), lowerFront_succ,
            lowerFront_zero]
    · rw [camelChars_of_not_upper hc, lowered, capitals_of_not_upper hc]
      rfl

/-- In camel case the first characters of a name are lowered and the others kept.  With no capital
at the front none is lowered, with one capital this one, and with more of them all where they are
the whole name or stand before a space, and otherwise all but the last. -/
theorem camelCase_lowers (name : String) :
    camelCase name = String.ofList (lowerFront (lowered name.toList) name.toList) := by
  rw [camelCase, camelChars_eq]

example : ["URL", "URLValue", "AB c", "Ab", "aB", ""].map camelCase =
    ["url", "urlValue", "ab c", "ab", "aB", ""] := by decide

end ContentLoom.Model

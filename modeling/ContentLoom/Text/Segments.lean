/-!
# Segments of a text

Cutting a text at a separator: into all its segments, at the last separator,
or at the first.  A separator belongs to no segment, so a text with `n`
separators has `n + 1` segments, some of them perhaps empty.
-/

namespace ContentLoom.Text

/-- The segments between the occurrences of `sep`; there is always at least one. -/
def segments (sep : Char) : List Char → List (List Char)
  | [] => [[]]
  | c :: cs =>
    if c = sep then [] :: segments sep cs
    else
      match segments sep cs with
      | [] => [[c]]
      | s :: ss => (c :: s) :: ss

theorem segments_ne_nil (sep : Char) (cs : List Char) : segments sep cs ≠ [] := by
  cases cs with
  | nil => simp [segments]
  | cons c cs =>
    unfold segments
    split
    · simp
    · split <;> simp

theorem segments_of_not_mem {sep : Char} {cs : List Char} (h : sep ∉ cs) :
    segments sep cs = [cs] := by
  induction cs with
  | nil => rfl
  | cons c cs ih =>
    obtain ⟨hne, hcs⟩ : sep ≠ c ∧ sep ∉ cs := by simpa using h
    rw [segments, if_neg (Ne.symm hne), ih hcs]

/-- The segments around one occurrence of the separator. -/
theorem segments_append_sep (sep : Char) (front rest : List Char) :
    segments sep (front ++ sep :: rest) = segments sep front ++ segments sep rest := by
  induction front with
  | nil => simp [segments]
  | cons c front ih =>
    rw [List.cons_append, segments, segments, ih]
    split
    · rfl
    · cases hfront : segments sep front with
      | nil => exact absurd hfront (segments_ne_nil sep front)
      | cons s ss => rfl

theorem segments_append {sep : Char} {front : List Char} (h : sep ∉ front) (rest : List Char) :
    segments sep (front ++ sep :: rest) = front :: segments sep rest := by
  rw [segments_append_sep, segments_of_not_mem h, List.singleton_append]

/-- What stands after the last `sep`; the whole text without one. -/
def afterLast (sep : Char) (cs : List Char) : List Char :=
  (cs.reverse.takeWhile (· ≠ sep)).reverse

/-- What stands before the last `sep`, if there is one. -/
def beforeLast? (sep : Char) (cs : List Char) : Option (List Char) :=
  match cs.reverse.dropWhile (· ≠ sep) with
  | [] => none
  | _ :: front => some front.reverse

/-- What stands before the first `sep` and after it, if there is one. -/
def cutFirst? (sep : Char) : List Char → Option (List Char × List Char)
  | [] => none
  | c :: cs =>
    if c = sep then some ([], cs)
    else (cutFirst? sep cs).map fun (front, back) => (c :: front, back)

/-- What remains of a text that begins with `front`. -/
def afterPrefix? : List Char → List Char → Option (List Char)
  | [], cs => some cs
  | _ :: _, [] => none
  | f :: front, c :: cs => if f = c then afterPrefix? front cs else none

theorem afterPrefix?_append (front cs : List Char) : afterPrefix? front (front ++ cs) = some cs := by
  induction front with
  | nil => rfl
  | cons f front ih => simp [afterPrefix?, ih]

theorem beforeLast?_length (sep : Char) (cs front : List Char)
    (h : beforeLast? sep cs = some front) : front.length < cs.length := by
  unfold beforeLast? at h
  split at h
  · simp at h
  · rename_i c rest heq
    obtain rfl : rest.reverse = front := by simpa using h
    have hle : (cs.reverse.dropWhile (· ≠ sep)).length ≤ cs.reverse.length :=
      (List.dropWhile_sublist _).length_le
    rw [heq] at hle
    simp at hle ⊢
    omega

theorem dropWhile_ne_append {sep : Char} {front : List Char} (h : sep ∉ front)
    (rest : List Char) :
    (front ++ rest).dropWhile (· ≠ sep) = rest.dropWhile (· ≠ sep) := by
  apply List.dropWhile_append_of_pos
  intro c hc
  have hne : c ≠ sep := fun heq => h (heq ▸ hc)
  exact decide_eq_true hne

theorem beforeLast?_append {sep : Char} {back : List Char} (h : sep ∉ back) (front : List Char) :
    beforeLast? sep (front ++ sep :: back) = some front := by
  have hback : sep ∉ back.reverse := fun hmem => h (List.mem_reverse.1 hmem)
  have hreverse : (front ++ sep :: back).reverse = back.reverse ++ sep :: front.reverse := by simp
  rw [beforeLast?, hreverse, dropWhile_ne_append hback]
  simp

theorem beforeLast?_of_not_mem {sep : Char} {cs : List Char} (h : sep ∉ cs) :
    beforeLast? sep cs = none := by
  have hdrop := dropWhile_ne_append (fun hmem => h (List.mem_reverse.1 hmem)) []
  rw [List.append_nil, List.dropWhile_nil] at hdrop
  rw [beforeLast?, hdrop]

/-- A separator that occurs has a last occurrence. -/
theorem exists_last_occurrence {sep : Char} {cs : List Char} (h : sep ∈ cs) :
    ∃ front back, cs = front ++ sep :: back ∧ sep ∉ back := by
  obtain ⟨back, front, hsplit, hback⟩ := List.eq_append_cons_of_mem (List.mem_reverse.2 h)
  refine ⟨front.reverse, back.reverse, ?_, fun hmem => hback (List.mem_reverse.1 hmem)⟩
  rw [← List.reverse_reverse cs, hsplit]
  simp

theorem beforeLast?_eq_none_iff {sep : Char} {cs : List Char} :
    beforeLast? sep cs = none ↔ sep ∉ cs := by
  constructor
  · intro hnone hmem
    obtain ⟨front, back, rfl, hback⟩ := exists_last_occurrence hmem
    rw [beforeLast?_append hback] at hnone
    cases hnone
  · exact beforeLast?_of_not_mem

theorem beforeLast?_eq_some_iff {sep : Char} {cs front : List Char} :
    beforeLast? sep cs = some front ↔ ∃ back, cs = front ++ sep :: back ∧ sep ∉ back := by
  constructor
  · intro hsome
    have hmem : sep ∈ cs := by
      apply Classical.byContradiction
      intro hnot
      rw [beforeLast?_of_not_mem hnot] at hsome
      cases hsome
    obtain ⟨front', back, rfl, hback⟩ := exists_last_occurrence hmem
    rw [beforeLast?_append hback] at hsome
    cases hsome
    exact ⟨back, rfl, hback⟩
  · rintro ⟨back, rfl, hback⟩
    exact beforeLast?_append hback front

/-! ### Lines -/

/-- The lines of a text: a line ends at `\n`, less one `\r` before it, and the end of the text
ends a last line only if that line is not empty. -/
def lines (cs : List Char) : List (List Char) :=
  let pieces := segments '\n' cs
  let ended := pieces.dropLast.map fun line =>
    match line.reverse with
    | '\r' :: back => back.reverse
    | _ => line
  match pieces.getLast? with
  | some [] => ended
  | some line => ended ++ [line]
  | none => ended

/-! ### Letters of the basic Latin block -/

/-- A capital letter `A` to `Z` lowered; any other character as it is. -/
def asciiLower (c : Char) : Char := c.toLower

/-- Equality that does not tell capital letters `A` to `Z` from small ones. -/
def eqIgnoringAsciiCase (a b : List Char) : Bool := a.map asciiLower == b.map asciiLower

end ContentLoom.Text

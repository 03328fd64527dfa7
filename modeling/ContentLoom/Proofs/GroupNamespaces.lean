import ContentLoom.Generated.Layout
import ContentLoom.Proofs.GroupNames

/-!
# Namespaces of groups

The models and the steps of a group stand in namespaces that end with the
identifier of the group.  Where the options are valid, these are valid
namespaces too, unless the group begins with a number that is neither a letter
nor one of the digits `0` to `9`: such a character is kept at the front of an
identifier, and no valid segment begins with it.
-/

namespace ContentLoom

namespace Text

/-! ### Numbers in upper case -/

/-- A number that is no letter and none of the digits `0` to `9`. -/
def isOtherNumber (c : Char) : Bool := isNumeric c && !isAlphabetic c && !c.isDigit

/-- No range of a sorted table meets the values from `first` to `last`. -/
def RangeTable.misses : RangeTable → Nat → Nat → Bool
  | [], _, _ => true
  | r :: rest, first, last => last.blt r.1 || (r.2.blt first && misses rest first last)

theorem RangeTable.not_mem_of_misses {table : RangeTable} {first last n : Nat}
    (h : table.misses first last = true) (hfirst : first ≤ n) (hlast : n ≤ last) :
    table.mem n = false := by
  induction table with
  | nil => rfl
  | cons r rest ih =>
    simp only [misses, Bool.or_eq_true, Bool.and_eq_true, Nat.blt_eq] at h
    unfold mem
    rcases h with hbelow | ⟨habove, hrest⟩
    · rw [if_pos (by omega)]
    · have hnot : ¬n ≤ r.2 := by omega
      simp only [hnot, decide_false, Bool.false_or, ih hrest, ite_self]

theorem CaseRun.apply_eq_or (runs : List CaseRun) (n : Nat) :
    apply runs n = n ∨ ∃ r ∈ runs, r.first ≤ n ∧ n ≤ r.last ∧
      apply runs n = ((n : Int) + r.distance).toNat := by
  induction runs with
  | nil => exact Or.inl rfl
  | cons r rest ih =>
    unfold apply
    split
    · exact Or.inl rfl
    · split
      · rename_i hlow hrun
        exact Or.inr ⟨r, List.mem_cons_self .., Nat.not_lt.1 hlow, hrun.1, rfl⟩
      · rcases ih with hkept | ⟨r', hr', hmoved⟩
        · exact Or.inl hkept
        · exact Or.inr ⟨r', List.mem_cons_of_mem _ hr', hmoved⟩

/-- The run moves no number, and it moves nothing to a number. -/
def CaseRun.sparesNumbers (r : CaseRun) : Bool :=
  numericRanges.misses r.first r.last &&
    numericRanges.misses (r.first + r.distance).toNat (r.last + r.distance).toNat

/-- Of the runs of upper case only that of the Roman numerals moves numbers, and these are
letters. -/
theorem upperRuns_cases {r : CaseRun} (h : r ∈ upperRuns) :
    r.sparesNumbers = true ∨ r.first = 0x2170 ∧ r.last = 0x217f ∧ r.distance = -16 := by
  have hall : (upperRuns.all fun r => r.sparesNumbers ||
      (r.first == 0x2170 && r.last == 0x217f && r.distance == -16)) = true := by decide +kernel
  have hone := List.all_eq_true.1 hall r h
  simpa [and_assoc] using hone

theorem isAlphabetic_romanNumeral {n : Nat} (hlow : 0x2160 ≤ n) (hhigh : n ≤ 0x217f) :
    alphabeticRanges.mem n = true := by
  have hall : ∀ k < 32, alphabeticRanges.mem (0x2160 + k) = true := by decide +kernel
  have hsplit : n = 0x2160 + (n - 0x2160) := by omega
  rw [hsplit]
  exact hall _ (by omega)

theorem isOtherNumber_of_not_numeric {c : Char} (h : numericRanges.mem c.toNat = false) :
    isOtherNumber c = false := by
  simp [isOtherNumber, isNumeric, h]

theorem isOtherNumber_of_alphabetic {c : Char} (h : alphabeticRanges.mem c.toNat = true) :
    isOtherNumber c = false := by
  simp [isOtherNumber, isAlphabetic, h]

theorem toNat_ofNat (n : Nat) : (Char.ofNat n).toNat = n ∨ (Char.ofNat n).toNat = 0 := by
  by_cases hvalid : n.isValidChar
  · rw [Char.ofNat, dif_pos hvalid]
    exact Or.inl rfl
  · rw [Char.ofNat, dif_neg hvalid]
    exact Or.inr rfl

theorem isOtherNumber_ofNat {n : Nat}
    (h : numericRanges.mem n = false ∨ alphabeticRanges.mem n = true) :
    isOtherNumber (Char.ofNat n) = false := by
  rcases toNat_ofNat n with hvalue | hvalue
  · rcases h with hnumber | hletter
    · exact isOtherNumber_of_not_numeric (by rw [hvalue, hnumber])
    · exact isOtherNumber_of_alphabetic (by rw [hvalue, hletter])
  · apply isOtherNumber_of_not_numeric
    rw [hvalue]
    decide

theorem head_of_upperExpansions {n : Nat} {ns : List Nat}
    (h : upperExpansions.lookup n = some ns) :
    numericRanges.mem n = false ∧ ∃ u us, ns = u :: us ∧ numericRanges.mem u = false := by
  have hall : (upperExpansions.all fun e => numericRanges.misses e.1 e.1 &&
      e.2.head?.any fun u => numericRanges.misses u u) = true := by decide +kernel
  obtain ⟨front, back, htable, -⟩ := List.lookup_eq_some_iff.1 h
  have hmem : (n, ns) ∈ upperExpansions := by simp [htable]
  have hone := List.all_eq_true.1 hall _ hmem
  simp only [Bool.and_eq_true, Option.any_eq_true] at hone
  obtain ⟨hself, u, hhead, hfirst⟩ := hone
  obtain ⟨us, hns⟩ := List.head?_eq_some_iff.1 hhead
  exact ⟨RangeTable.not_mem_of_misses hself (Nat.le_refl n) (Nat.le_refl n), u, us, hns,
    RangeTable.not_mem_of_misses hfirst (Nat.le_refl u) (Nat.le_refl u)⟩

theorem isOtherNumber_of_run {r : CaseRun} (hr : r ∈ upperRuns) {c : Char}
    (hlow : r.first ≤ c.toNat) (hhigh : c.toNat ≤ r.last) :
    isOtherNumber c = false ∧
      isOtherNumber (Char.ofNat ((c.toNat : Int) + r.distance).toNat) = false := by
  rcases upperRuns_cases hr with hspares | ⟨hfirst, hlast, hdistance⟩
  · obtain ⟨hsource, htarget⟩ := Bool.and_eq_true_iff.1 hspares
    exact ⟨isOtherNumber_of_not_numeric (RangeTable.not_mem_of_misses hsource hlow hhigh),
      isOtherNumber_ofNat (Or.inl (RangeTable.not_mem_of_misses htarget (by omega) (by omega)))⟩
  · exact ⟨isOtherNumber_of_alphabetic (isAlphabetic_romanNumeral (by omega) (by omega)),
      isOtherNumber_ofNat (Or.inr (isAlphabetic_romanNumeral (by omega) (by omega)))⟩

/-- In upper case a character begins with such a number exactly where it is one itself. -/
theorem toUpper_head (c : Char) :
    ∃ u us, toUpper c = u :: us ∧ isOtherNumber u = isOtherNumber c := by
  unfold toUpper
  cases hlookup : upperExpansions.lookup c.toNat with
  | some ns =>
    obtain ⟨hself, u, us, rfl, hfirst⟩ := head_of_upperExpansions hlookup
    exact ⟨Char.ofNat u, us.map Char.ofNat, rfl,
      (isOtherNumber_ofNat (Or.inl hfirst)).trans (isOtherNumber_of_not_numeric hself).symm⟩
  | none =>
    refine ⟨_, [], rfl, ?_⟩
    rcases CaseRun.apply_eq_or upperRuns c.toNat with hkept | ⟨r, hr, hlow, hhigh, hmoved⟩
    · rw [hkept, Char.ofNat_toNat]
    · obtain ⟨hself, hupper⟩ := isOtherNumber_of_run hr hlow hhigh
      rw [hmoved, hupper, hself]

end Text

namespace Naming

open Text Options

/-! ### Identifiers as segments -/

theorem validSegment_cons {c : Char} {cs : List Char} (h : ∀ d ∈ c :: cs, isWordChar d = true) :
    validSegment (c :: cs) = (isAlphabetic c || c == '_') := by
  have hrest : (cs.all fun d => isAlphanumeric d || d == '_') = true :=
    List.all_eq_true.2 fun d hd => h d (List.mem_cons_of_mem _ hd)
  rw [validSegment, hrest, Bool.and_true]

/-- An identifier begins with the character of the text that stands there, or with an underscore. -/
theorem sanitizeChars_cons (c : Char) (cs : List Char) :
    ∃ rest, sanitizeChars (c :: cs) = (if isWordChar c && !c.isDigit then c else '_') :: rest := by
  by_cases hword : isWordChar c = true
  · by_cases hdigit : c.isDigit = true
    · exact ⟨c :: masked cs, by simp [sanitizeChars, masked, hword, hdigit]⟩
    · exact ⟨masked cs, by simp [sanitizeChars, masked, hword, hdigit]⟩
  · have hunderscore : ('_').isDigit = false := by decide
    exact ⟨masked cs, by simp [sanitizeChars, masked, hword, hunderscore]⟩

/-- The identifier of a text that is not empty is a valid segment, unless the text begins with a
number that is neither a letter nor a basic digit. -/
theorem validSegment_sanitizeChars (c : Char) (cs : List Char) :
    validSegment (sanitizeChars (c :: cs)) = !isOtherNumber c := by
  obtain ⟨rest, hchars⟩ := sanitizeChars_cons c cs
  have hwords : ∀ d ∈ sanitizeChars (c :: cs), isWordChar d = true :=
    fun d hd => isWordChar_of_mem_sanitizeChars hd
  rw [hchars] at hwords
  rw [hchars, validSegment_cons hwords]
  have hunderscore : isNumeric '_' = false := by decide
  cases hdigit : c.isDigit with
  | true => simp [isOtherNumber, hdigit]
  | false =>
    cases halphabetic : isAlphabetic c with
    | true => simp [isOtherNumber, isWordChar, isAlphanumeric, hdigit, halphabetic]
    | false =>
      cases hnumeric : isNumeric c with
      | true =>
        have hne : c ≠ '_' := fun h => by rw [h, hunderscore] at hnumeric; cases hnumeric
        simp [isOtherNumber, isWordChar, isAlphanumeric, hdigit, halphabetic, hnumeric, hne]
      | false =>
        by_cases hc : c = '_'
        · simp [isOtherNumber, hunderscore, hc]
        · simp [isOtherNumber, isWordChar, isAlphanumeric, hdigit, halphabetic, hnumeric, hc]

end Naming

namespace Options

open Naming Text

/-! ### Namespaces under the shared one -/

theorem validNamespace_append (front rest : List Char) :
    validNamespace (front ++ '.' :: rest) = (validNamespace front && validNamespace rest) := by
  rw [validNamespace, segments_append_sep, List.all_append, validNamespace, validNamespace]

theorem validNamespace_of_valid {o : Options} (h : o.validate = .ok ()) :
    validNamespace o.sharedNamespace.toList = true := by
  unfold validate at h
  split at h
  · cases h
  · split at h
    · cases h
    · rename_i hnamespace
      simpa using hnamespace

theorem validNamespace_sanitize (s : String) :
    validNamespace (sanitize s).toList = validSegment (sanitizeChars s.toList) := by
  rw [sanitize, String.toList_ofList, validNamespace,
    segments_of_not_mem (dot_not_mem_sanitizeChars s.toList), List.all_cons, List.all_nil,
    Bool.and_true]

/-- A group that is written with a number at its front that is neither a letter nor a basic
digit. -/
def BeginsWithOtherNumber (raw : String) : Prop :=
  ∃ c rest, trim raw.toList = c :: rest ∧ isOtherNumber c = true

theorem validNamespace_group (raw : String) :
    validNamespace (sanitize (ContentClass.normalizeGroup raw)).toList = true ↔
      ¬BeginsWithOtherNumber raw := by
  unfold ContentClass.normalizeGroup BeginsWithOtherNumber
  cases htrim : trim raw.toList with
  | nil =>
    have hdefault : validNamespace (sanitize ContentClass.defaultGroup).toList = true := by decide
    simpa using hdefault
  | cons c rest =>
    obtain ⟨u, us, hupper, hsame⟩ := toUpper_head c
    simp only [hupper, List.cons_append, validNamespace_sanitize, String.toList_ofList,
      validSegment_sanitizeChars, hsame]
    simp

/-- The namespaces of the models and of the steps of a group are valid by the rule for the shared
namespace exactly where the group does not begin with a number that is neither a letter nor a basic
digit. -/
theorem groupNamespaces_valid_iff (o : Options) (raw : String) (hvalid : o.validate = .ok ()) :
    (validNamespace
        (o.modelsNamespace (sanitize (ContentClass.normalizeGroup raw))).toList = true ↔
      ¬BeginsWithOtherNumber raw) ∧
    (validNamespace
        (o.stepsNamespace (sanitize (ContentClass.normalizeGroup raw))).toList = true ↔
      ¬BeginsWithOtherNumber raw) := by
  have hshared := validNamespace_of_valid hvalid
  have hmodels : validNamespace "Models".toList = true := by decide
  have hpipelines : validNamespace "Pipelines".toList = true := by decide
  have hsteps : validNamespace "Steps".toList = true := by decide
  have hmodelsText (group : String) : (o.modelsNamespace group).toList =
      o.sharedNamespace.toList ++ '.' :: ("Models".toList ++ '.' :: group.toList) := by
    simp [modelsNamespace, String.toList_append]
  have hstepsText (group : String) : (o.stepsNamespace group).toList = o.sharedNamespace.toList ++
      '.' :: ("Pipelines".toList ++ '.' :: (group.toList ++ '.' :: "Steps".toList)) := by
    simp [stepsNamespace, String.toList_append]
  rw [hmodelsText, hstepsText]
  simp only [validNamespace_append, hshared, hmodels, hpipelines, hsteps, Bool.true_and,
    Bool.and_true]
  exact ⟨validNamespace_group raw, validNamespace_group raw⟩

/-- A group of one digit that is none of the basic ones. -/
theorem groupNamespaces_of_arabicDigit :
    standard.validate = .ok () ∧ sanitize (ContentClass.normalizeGroup "٣") = "٣" ∧
      validNamespace (standard.modelsNamespace "٣").toList = false ∧
      validNamespace (standard.stepsNamespace "٣").toList = false := by
  have hvalid : standard.validate = .ok () := rfl
  have hgroup : sanitize (ContentClass.normalizeGroup "٣") = "٣" := by decide +kernel
  have hbegins : BeginsWithOtherNumber "٣" := ⟨'٣', [], by decide +kernel, by decide +kernel⟩
  obtain ⟨hmodels, hsteps⟩ := groupNamespaces_valid_iff standard "٣" hvalid
  rw [hgroup] at hmodels hsteps
  refine ⟨hvalid, hgroup, Bool.eq_false_iff.2 fun h => ?_, Bool.eq_false_iff.2 fun h => ?_⟩
  · exact hmodels.1 h hbegins
  · exact hsteps.1 h hbegins

end Options

end ContentLoom

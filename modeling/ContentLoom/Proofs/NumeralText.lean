import ContentLoom.Json.Printer
import ContentLoom.Json.Reader

/-!
# The text of numbers

A number is written as a numeral, and its text is scanned as this numeral where
nothing follows that a numeral could go on with.  An integer of 64 bits, signed
or unsigned, is read as it was written.
-/

namespace ContentLoom.Json

namespace Numeral

/-! ### Digits -/

/-- Digits, at least one. -/
def Digits (ds : List Char) : Prop := ds ≠ [] ∧ ∀ c ∈ ds, c.isDigit = true

/-- What follows does not begin with a digit. -/
def NoDigit (rest : List Char) : Prop := ∀ c ∈ rest.head?, c.isDigit = false

theorem digits_toDigits (n : Nat) : Digits (Nat.toDigits 10 n) :=
  ⟨Nat.toDigits_ne_nil, fun _ hc => Nat.isDigit_of_mem_toDigits (by decide) (by decide) hc⟩

theorem digitsValue_toDigits (n : Nat) : digitsValue (Nat.toDigits 10 n) = n := by
  have hsame : digitsValue (Nat.toDigits 10 n) = Nat.ofDigitChars 10 (Nat.toDigits 10 n) 0 := by
    unfold digitsValue digitValue Nat.ofDigitChars
    simp only [Nat.mul_comm]
  rw [hsame]
  exact Nat.ofDigitChars_toDigits (by decide) (by decide)

/-- The digits of a number that is not zero do not begin with zero. -/
theorem head?_toDigits_ne_zero {n : Nat} (h : n ≠ 0) : (Nat.toDigits 10 n).head? ≠ some '0' := by
  induction n using Nat.strongRecOn with
  | ind n ih =>
    rw [Nat.toDigits_eq_if (by decide)]
    split
    · rename_i hsmall
      have hdigit : ∀ m, m < 10 → m ≠ 0 → Nat.digitChar m ≠ '0' := by decide
      simpa using hdigit n hsmall h
    · rename_i hlarge
      have hrest : (Nat.toDigits 10 (n / 10)).head? ≠ some '0' := ih (n / 10) (by omega) (by omega)
      obtain ⟨d, ds, hdigits⟩ := List.exists_cons_of_ne_nil Nat.toDigits_ne_nil
      rw [hdigits] at hrest ⊢
      exact hrest

theorem takeWhile_digits {ds rest : List Char} (hds : ∀ c ∈ ds, c.isDigit = true)
    (hrest : NoDigit rest) : (ds ++ rest).takeWhile Char.isDigit = ds := by
  rw [List.takeWhile_append_of_pos hds]
  cases rest with
  | nil => simp
  | cons c rest =>
    have hstop : c.isDigit = false := hrest c rfl
    simp [hstop]

theorem dropWhile_digits {ds rest : List Char} (hds : ∀ c ∈ ds, c.isDigit = true)
    (hrest : NoDigit rest) : (ds ++ rest).dropWhile Char.isDigit = rest := by
  rw [List.dropWhile_append_of_pos hds]
  cases rest with
  | nil => rfl
  | cons c rest =>
    have hstop : c.isDigit = false := hrest c rfl
    simp [hstop]

/-! ### Written numerals -/

/-- The point and the digits of a fraction. -/
def fractionChars : Option (List Char) → List Char
  | none => []
  | some ds => '.' :: ds

/-- The mark, the sign and the digits of an exponent. -/
def exponentChars : Option (Bool × List Char) → List Char
  | none => []
  | some (down, ds) => 'e' :: (if down then '-' else '+') :: ds

/-- The characters of a numeral. -/
def chars (n : Numeral) : List Char :=
  (if n.negative then ['-'] else []) ++
    (n.whole ++ (fractionChars n.fraction ++ exponentChars n.exponent))

/-- The parts of a numeral are such as the grammar asks for. -/
structure WellFormed (n : Numeral) : Prop where
  whole : Digits n.whole
  leading : n.whole = ['0'] ∨ n.whole.head? ≠ some '0'
  fraction : ∀ ds ∈ n.fraction, Digits ds
  exponent : ∀ e ∈ n.exponent, Digits e.2

/-- What follows can belong to no numeral. -/
def Ends (rest : List Char) : Prop :=
  ∀ c ∈ rest.head?, c.isDigit = false ∧ c ≠ '.' ∧ c ≠ 'e' ∧ c ≠ 'E'

theorem Ends.noDigit {rest : List Char} (h : Ends rest) : NoDigit rest := fun c hc => (h c hc).1

theorem noDigit_cons {c : Char} (h : c.isDigit = false) (rest : List Char) :
    NoDigit (c :: rest) := by
  intro d hd
  cases hd
  exact h

theorem Digits.ne_of_mem {ds : List Char} (h : Digits ds) {c d : Char} (hc : c ∈ ds)
    (hd : d.isDigit = false) : c ≠ d := by
  rintro rfl
  rw [h.2 c hc] at hd
  cases hd

theorem scanWhole_append {ds rest : List Char} (hds : Digits ds)
    (hleading : ds = ['0'] ∨ ds.head? ≠ some '0') (hrest : NoDigit rest) :
    scanWhole (ds ++ rest) = some (ds, rest) := by
  rcases hleading with rfl | hleading
  · cases rest with
    | nil => rfl
    | cons c rest =>
      have hstop : c.isDigit = false := hrest c rfl
      simp [scanWhole, hstop]
  · have htake := takeWhile_digits hds.2 hrest
    have hdrop := dropWhile_digits hds.2 hrest
    cases ds with
    | nil => exact absurd rfl hds.1
    | cons d ds =>
      rw [scanWhole]
      · rw [htake, hdrop]
      · intro cs hcs
        obtain ⟨rfl, -⟩ := List.cons.inj hcs
        exact hleading rfl

theorem scanFraction_append {fraction : Option (List Char)} {rest : List Char}
    (hds : ∀ ds ∈ fraction, Digits ds) (hrest : NoDigit rest) (hpoint : rest.head? ≠ some '.') :
    scanFraction (fractionChars fraction ++ rest) = some (fraction, rest) := by
  cases fraction with
  | none =>
    rw [fractionChars, List.nil_append]
    unfold scanFraction
    split
    · exact absurd rfl hpoint
    · rfl
  | some ds =>
    have hdigits := hds ds rfl
    rw [fractionChars, List.cons_append, scanFraction, takeWhile_digits hdigits.2 hrest,
      dropWhile_digits hdigits.2 hrest]
    split
    · exact absurd rfl hdigits.1
    · rfl

theorem scanExponent_append {exponent : Option (Bool × List Char)} {rest : List Char}
    (hds : ∀ e ∈ exponent, Digits e.2) (hrest : Ends rest) :
    scanExponent (exponentChars exponent ++ rest) = some (exponent, rest) := by
  cases exponent with
  | none =>
    cases rest with
    | nil => rfl
    | cons c rest =>
      obtain ⟨-, -, hsmall, hlarge⟩ := hrest c rfl
      simp [exponentChars, scanExponent, hsmall, hlarge]
  | some e =>
    obtain ⟨down, ds⟩ := e
    have hdigits : Digits ds := hds (down, ds) rfl
    have htake := takeWhile_digits hdigits.2 hrest.noDigit
    have hdrop := dropWhile_digits hdigits.2 hrest.noDigit
    have hread : ∀ c, c = '+' ∨ c = '-' → scanExponent ('e' :: c :: (ds ++ rest)) =
        some (some (c == '-', ds), rest) := by
      rintro c (rfl | rfl)
      all_goals
        simp only [scanExponent, true_or, if_true, htake, hdrop]
        split
        · exact absurd rfl hdigits.1
        · rfl
    cases down with
    | false => exact hread '+' (Or.inl rfl)
    | true => exact hread '-' (Or.inr rfl)

/-- The whole, the fraction and the exponent are scanned one after another. -/
theorem scan_parts {negative : Bool} {whole : List Char} {fraction : Option (List Char)}
    {exponent : Option (Bool × List Char)}
    (h : (⟨negative, whole, fraction, exponent⟩ : Numeral).WellFormed) {rest : List Char}
    (hrest : Ends rest) :
    (do
      let (ds, cs) ← scanWhole (whole ++ (fractionChars fraction ++ (exponentChars exponent ++ rest)))
      let (f, cs) ← scanFraction cs
      let (e, cs) ← scanExponent cs
      some ((⟨negative, ds, f, e⟩ : Numeral), cs)) =
        some (⟨negative, whole, fraction, exponent⟩, rest) := by
  obtain ⟨hwhole, hleading, hfraction, hexponent⟩ := h
  simp only at hwhole hleading hfraction hexponent
  -- what follows the fraction, and what follows the whole
  have hbehind : NoDigit (exponentChars exponent ++ rest) ∧
      (exponentChars exponent ++ rest).head? ≠ some '.' := by
    cases exponent with
    | none => exact ⟨hrest.noDigit, fun hc => (hrest '.' hc).2.1 rfl⟩
    | some e => exact ⟨noDigit_cons (by decide) _, by simp [exponentChars]⟩
  have hmiddle : NoDigit (fractionChars fraction ++ (exponentChars exponent ++ rest)) := by
    cases fraction with
    | none => exact hbehind.1
    | some ds => exact noDigit_cons (by decide) _
  rw [scanWhole_append hwhole hleading hmiddle]
  simp only [Option.bind_eq_bind, Option.bind_some]
  rw [scanFraction_append hfraction hbehind.1 hbehind.2]
  simp only [Option.bind_some]
  rw [scanExponent_append hexponent hrest]
  rfl

/-- The text of a numeral is scanned as the numeral. -/
theorem scan_chars {n : Numeral} (h : n.WellFormed) {rest : List Char} (hrest : Ends rest) :
    scan (n.chars ++ rest) = some (n, rest) := by
  obtain ⟨negative, whole, fraction, exponent⟩ := n
  have hparts := scan_parts h hrest
  have hwhole : Digits whole := h.whole
  cases negative with
  | true =>
    simp only [chars, if_true, List.append_assoc, List.cons_append, List.nil_append]
    exact hparts
  | false =>
    simp only [chars, Bool.false_eq_true, if_false, List.append_assoc, List.nil_append]
    obtain ⟨d, ds, rfl⟩ := List.exists_cons_of_ne_nil hwhole.1
    have hsign : d ≠ '-' := hwhole.ne_of_mem (List.mem_cons_self ..) (by decide)
    unfold scan
    split
    · rename_i negative cs heq
      split at heq
      · rename_i hminus
        exact absurd (List.cons.inj hminus).1 hsign
      · obtain ⟨rfl, rfl⟩ := Prod.mk.inj heq
        exact hparts

/-- A numeral begins with a sign or a digit. -/
theorem exists_cons_chars {n : Numeral} (h : n.WellFormed) :
    ∃ c cs, n.chars = c :: cs ∧ (c = '-' ∨ c.isDigit = true) := by
  obtain ⟨d, ds, hwhole⟩ := List.exists_cons_of_ne_nil h.whole.1
  have hdigit : d.isDigit = true := h.whole.2 d (by rw [hwhole]; exact List.mem_cons_self ..)
  unfold chars
  cases n.negative with
  | true => exact ⟨'-', _, rfl, Or.inl rfl⟩
  | false =>
    rw [hwhole]
    exact ⟨d, _, rfl, Or.inr hdigit⟩

/-! ### Integers -/

/-- The integer has 64 bits, signed or unsigned. -/
def Fits64 (n : Int) : Prop := -0x8000000000000000 ≤ n ∧ n ≤ 0xffffffffffffffff

/-- The numeral of an integer. -/
def ofInt (n : Int) : Numeral := ⟨decide (n < 0), Nat.toDigits 10 n.natAbs, none, none⟩

theorem wellFormed_ofInt (n : Int) : (ofInt n).WellFormed := by
  refine ⟨digits_toDigits _, ?_, nofun, nofun⟩
  by_cases hzero : n.natAbs = 0
  · left
    rw [ofInt, hzero]
    rfl
  · exact Or.inr (head?_toDigits_ne_zero hzero)

theorem chars_ofInt (n : Int) : (ofInt n).chars = (toString n).toList := by
  cases n with
  | ofNat m =>
    have htext : toString (Int.ofNat m) = Nat.repr m := rfl
    rw [htext, Nat.toList_repr]
    simp [ofInt, chars, fractionChars, exponentChars]
  | negSucc m =>
    have htext : toString (Int.negSucc m) = "-" ++ Nat.repr (m + 1) := rfl
    rw [htext, String.toList_append, Nat.toList_repr]
    simp [ofInt, chars, fractionChars, exponentChars, Int.negSucc_lt_zero]

theorem toJson?_ofInt {n : Int} (h : Fits64 n) : (ofInt n).toJson? = some (.int n) := by
  obtain ⟨hlow, hhigh⟩ := h
  by_cases hneg : n < 0
  · have hbound : n.natAbs ≠ 0 ∧ n.natAbs ≤ 0x8000000000000000 := by omega
    have hback : -(n.natAbs : Int) = n := by omega
    simp only [toJson?, ofInt, digitsValue_toDigits, hneg, decide_true, if_true, hbound, and_self,
      ne_eq, not_false_eq_true, hback]
  · have hbound : n.natAbs ≤ significandLimit := by
      unfold significandLimit
      omega
    have hback : (n.natAbs : Int) = n := by omega
    simp only [toJson?, ofInt, digitsValue_toDigits, hneg, decide_false, Bool.false_eq_true,
      if_false, hbound, if_true, hback]

/-! ### Floating-point numbers -/

/-- The numeral with the point after the digit of weight `10 ^ 0`. -/
def ofPositional (negative : Bool) (digits : List Char) (scale : Int) : Numeral :=
  let point : Int := digits.length + scale
  if 0 ≤ scale then ⟨negative, digits ++ List.replicate scale.toNat '0', some ['0'], none⟩
  else if 0 < point then
    ⟨negative, digits.take point.toNat, some (digits.drop point.toNat), none⟩
  else ⟨negative, ['0'], some (List.replicate (-point).toNat '0' ++ digits), none⟩

/-- The numeral with the point after the first digit. -/
def ofScientific (negative : Bool) (digits : List Char) (exponent : Int) : Numeral :=
  ⟨negative, digits.take 1, if digits.tail = [] then none else some digits.tail,
    some (decide (exponent < 0), Nat.toDigits 10 exponent.natAbs)⟩

/-- The numeral of a floating-point number. -/
def ofFloat (x : Binary64) : Numeral :=
  let digits := Nat.toDigits 10 x.shortest.1
  let exponent : Int := digits.length + x.shortest.2 - 1
  if positionalExponents.1 ≤ exponent ∧ exponent ≤ positionalExponents.2 then
    ofPositional x.negative digits x.shortest.2
  else ofScientific x.negative digits exponent

theorem chars_ofPositional (negative : Bool) (digits : List Char) (scale : Int) :
    (ofPositional negative digits scale).chars =
      (if negative then ['-'] else []) ++ positional digits scale := by
  unfold ofPositional positional
  simp only
  split
  · simp [chars, fractionChars, exponentChars]
  · split <;> simp [chars, fractionChars, exponentChars]

theorem chars_ofScientific (negative : Bool) (digits : List Char) (exponent : Int) :
    (ofScientific negative digits exponent).chars =
      (if negative then ['-'] else []) ++ scientific digits exponent := by
  have hexponent : (toString exponent.natAbs).toList = Nat.toDigits 10 exponent.natAbs :=
    Nat.toList_repr
  unfold ofScientific scientific
  simp only [chars, exponentChars, hexponent, decide_eq_true_eq]
  cases digits.tail with
  | nil => simp [fractionChars]
  | cons d ds => simp [fractionChars]

theorem chars_ofFloat (x : Binary64) : (ofFloat x).chars = (floatText x).toList := by
  have hdigits : (toString x.shortest.1).toList = Nat.toDigits 10 x.shortest.1 := Nat.toList_repr
  have hsign (cs : List Char) :
      (if x.negative = true then ['-'] else []) ++ cs = if x.negative then '-' :: cs else cs := by
    cases x.negative <;> rfl
  unfold ofFloat floatText
  simp only [hdigits, String.toList_ofList]
  split
  · rw [chars_ofPositional, hsign]
  · rw [chars_ofScientific, hsign]

theorem wellFormed_ofPositional (negative : Bool) {digits : List Char} {scale : Int}
    (hdigits : Digits digits)
    (hleading : digits.head? ≠ some '0' ∨ digits = ['0'] ∧ scale = 0) :
    (ofPositional negative digits scale).WellFormed := by
  obtain ⟨hnonempty, hall⟩ := hdigits
  have hzeros (n : Nat) : ∀ c ∈ List.replicate n '0', c.isDigit = true := by
    intro c hc
    rw [(List.mem_replicate.1 hc).2]
    rfl
  have hlength : 0 < digits.length := List.length_pos_iff.2 hnonempty
  have hlone : Digits ['0'] := ⟨by decide, List.forall_mem_singleton.2 rfl⟩
  unfold ofPositional
  simp only
  split
  · refine ⟨⟨by simp [hnonempty], ?_⟩, ?_, ?_, nofun⟩
    · intro c hc
      exact (List.mem_append.1 hc).elim (hall c) (hzeros _ c)
    · rcases hleading with hleading | ⟨rfl, rfl⟩
      · right
        obtain ⟨d, ds, rfl⟩ := List.exists_cons_of_ne_nil hnonempty
        exact hleading
      · exact Or.inl rfl
    · intro ds hds
      cases hds
      exact hlone
  · rename_i hscale
    split
    · rename_i hpoint
      refine ⟨⟨?_, fun c hc => hall c (List.mem_of_mem_take hc)⟩, ?_, ?_, nofun⟩
      · simp only [ne_eq, List.take_eq_nil_iff, hnonempty, or_false]
        omega
      · rcases hleading with hleading | ⟨rfl, rfl⟩
        · right
          obtain ⟨d, ds, rfl⟩ := List.exists_cons_of_ne_nil hnonempty
          obtain ⟨n, hn⟩ : ∃ n, ((d :: ds).length + scale : Int).toNat = n + 1 :=
            ⟨((d :: ds).length + scale : Int).toNat - 1, by omega⟩
          rw [hn]
          exact hleading
        · exact absurd (Int.le_refl 0) hscale
      · intro ds hds
        cases hds
        refine ⟨?_, fun c hc => hall c (List.mem_of_mem_drop hc)⟩
        simp only [ne_eq, List.drop_eq_nil_iff]
        omega
    · refine ⟨hlone, Or.inl rfl, ?_, nofun⟩
      intro ds hds
      cases hds
      refine ⟨by simp [hnonempty], fun c hc => ?_⟩
      exact (List.mem_append.1 hc).elim (hzeros _ c) (hall c)

theorem wellFormed_ofScientific (negative : Bool) {digits : List Char} (exponent : Int)
    (hdigits : Digits digits) : (ofScientific negative digits exponent).WellFormed := by
  obtain ⟨d, ds, rfl⟩ := List.exists_cons_of_ne_nil hdigits.1
  refine ⟨⟨by simp [ofScientific], fun c hc => hdigits.2 c (List.mem_of_mem_take hc)⟩, ?_, ?_, ?_⟩
  · by_cases hzero : d = '0'
    · left
      rw [hzero]
      rfl
    · right
      simpa [ofScientific] using hzero
  · intro fraction hfraction
    cases ds with
    | nil => cases hfraction
    | cons e es =>
      cases hfraction
      exact ⟨by simp, fun c hc => hdigits.2 c (List.mem_cons_of_mem _ hc)⟩
  · intro e he
    cases he
    exact digits_toDigits _

end Numeral

end ContentLoom.Json

namespace ContentLoom.Binary64

/-! ### The shortest decimal -/

theorem quarterEnds_pos {x : Binary64} (hx : x.isZero = false) : 0 < x.quarterEnds.1 := by
  have hsignificand : x.significand ≠ 0 := by simpa [isZero] using hx
  unfold quarterEnds
  simp only
  split <;> omega

theorem multipleAt?_ne_zero {x : Binary64} (hx : x.isZero = false) {k : Int} {c : Nat}
    (h : x.multipleAt? k = some c) : c ≠ 0 := by
  have hup : 0 < Nat.pow 2 (x.exponent - 2).toNat * Nat.pow 10 (-k).toNat :=
    Nat.mul_pos (Nat.pow_pos (by decide)) (Nat.pow_pos (by decide))
  have hlow := Nat.mul_pos (quarterEnds_pos hx) hup
  rintro rfl
  unfold multipleAt? at h
  simp only at h
  generalize Nat.pow 2 (x.exponent - 2).toNat * Nat.pow 10 (-k).toNat = up at hlow h
  generalize Nat.pow 10 k.toNat * Nat.pow 2 (-(x.exponent - 2)).toNat = unit at h
  generalize 4 * x.significand * up / unit = below at h
  generalize x.quarterEnds.1 * up = low at hlow h
  -- only the multiple below can be zero, and then it lies outside of the interval
  have houtside : ¬(if x.significand % 2 = 0 then low ≤ 0 * unit ∧ 0 * unit ≤ x.quarterEnds.2 * up
      else low < 0 * unit ∧ 0 * unit < x.quarterEnds.2 * up) := by
    rw [Nat.zero_mul]
    split <;> omega
  cases below with
  | zero =>
    rw [if_neg houtside] at h
    grind
  | succ below => grind

theorem shortestFrom_ne_zero {x : Binary64} (hx : x.isZero = false) (fuel : Nat) (k : Int) :
    (x.shortestFrom fuel k).1 ≠ 0 := by
  have hsignificand : x.significand ≠ 0 := by simpa [isZero] using hx
  induction fuel generalizing k with
  | zero =>
    unfold shortestFrom
    split
    · exact Nat.mul_ne_zero hsignificand (Nat.pos_iff_ne_zero.1 (Nat.pow_pos (by decide)))
    · exact Nat.mul_ne_zero hsignificand (Nat.pos_iff_ne_zero.1 (Nat.pow_pos (by decide)))
  | succ fuel ih =>
    unfold shortestFrom
    split
    · rename_i c hmultiple
      exact multipleAt?_ne_zero hx hmultiple
    · exact ih (k - 1)

/-- Only zero is written with the digit zero alone, and without a power of ten. -/
theorem shortest_of_zero {x : Binary64} (h : x.shortest.1 = 0) : x.shortest.2 = 0 := by
  unfold shortest at h ⊢
  cases hx : x.isZero with
  | true => rfl
  | false =>
    rw [hx] at h
    exact absurd h (shortestFrom_ne_zero hx _ _)

end ContentLoom.Binary64

namespace ContentLoom.Json.Numeral

theorem wellFormed_ofFloat (x : Binary64) : (ofFloat x).WellFormed := by
  have hdigits := digits_toDigits x.shortest.1
  unfold ofFloat
  simp only
  split
  · apply wellFormed_ofPositional x.negative hdigits
    by_cases hzero : x.shortest.1 = 0
    · right
      rw [hzero]
      exact ⟨rfl, Binary64.shortest_of_zero hzero⟩
    · exact Or.inl (head?_toDigits_ne_zero hzero)
  · exact wellFormed_ofScientific x.negative _ hdigits

end ContentLoom.Json.Numeral

import ContentLoom.Json.Printer
import ContentLoom.Json.Reader

/-!
# The text of strings

A string is written character by character, some of them escaped, and its text
is read as the string it was written for.
-/

namespace ContentLoom.Json.Document

/-! ### Escaped characters -/

/-- The characters stand for `c` in a string and are read as a piece. -/
inductive Escaped (c : Char) : List Char → Piece → Prop
  | plain (unquoted : c ≠ '"') (unescaped : c ≠ '\\') (printable : 0x20 ≤ c.toNat) :
    Escaped c [c] (.char c)
  | short {e : Char} (named : shortEscape? e = some c) : Escaped c ['\\', e] (.char c)
  | unit {high low : Char} (control : c.toNat < 0x20) (upper : hexValue? high = some (c.toNat / 16))
    (lower : hexValue? low = some (c.toNat % 16)) :
    Escaped c ['\\', 'u', '0', '0', high, low] (.unit c.toNat)

theorem hexValue?_hexDigit : ∀ n, n < 16 → hexValue? (hexDigit n) = some n := by decide

/-- A hexadecimal digit is neither a quote nor a backslash nor a control character. -/
theorem plain_of_hexValue? {c : Char} {n : Nat} (h : hexValue? c = some n) :
    c ≠ '"' ∧ c ≠ '\\' ∧ 0x20 ≤ c.toNat := by
  refine ⟨?_, ?_, ?_⟩
  · rintro rfl
    cases h
  · rintro rfl
    cases h
  · have hrange : '0' ≤ c := by
      unfold hexValue? at h
      simp only at h
      split at h
      · rename_i hdigit
        exact hdigit.1
      · split at h
        · rename_i hsmall
          exact Char.le_trans (by decide) hsmall.1
        · split at h
          · rename_i hlarge
            exact Char.le_trans (by decide) hlarge.1
          · cases h
    have hnat : '0'.toNat ≤ c.toNat := hrange
    exact Nat.le_trans (by decide) hnat

theorem escaped_escape (c : Char) : ∃ p, Escaped c (escape c) p := by
  unfold escape
  split
  · rename_i hquote
    exact ⟨_, .short (by rw [hquote]; rfl)⟩
  · rename_i hquote
    split
    · rename_i hbackslash
      exact ⟨_, .short (by rw [hbackslash]; rfl)⟩
    · rename_i hbackslash
      split
      · rename_i hcontrol
        have hnamed (e d : Char) (he : shortEscape? e = some d) (hd : c.toNat = d.toNat) :
            ∃ p, Escaped c ['\\', e] p := by
          have hsame : c = d := Char.toNat_inj.1 hd
          exact ⟨_, .short (by rw [hsame]; exact he)⟩
        split
        · exact hnamed 'b' '\x08' rfl ‹_›
        · exact hnamed 't' '\t' rfl ‹_›
        · exact hnamed 'n' '\n' rfl ‹_›
        · exact hnamed 'f' '\x0c' rfl ‹_›
        · exact hnamed 'r' '\r' rfl ‹_›
        · exact ⟨_, .unit hcontrol (hexValue?_hexDigit _ (by omega))
            (hexValue?_hexDigit _ (by omega))⟩
      · exact ⟨_, .plain hquote hbackslash (by omega)⟩

/-! ### Reading -/

theorem scanString_plain {c : Char} (hquote : c ≠ '"') (hbackslash : c ≠ '\\')
    (hprintable : 0x20 ≤ c.toNat) (tail : List Char) :
    scanString (c :: tail) = (scanString tail).map fun (raw, after) => (c :: raw, after) := by
  have hnot : ¬c.toNat < 0x20 := by omega
  rw [scanString]
  · rw [if_neg hnot]
  · exact hquote
  · intro d rest h
    exact absurd h hbackslash

theorem scanString_escaped {c : Char} {w : List Char} {p : Piece} (h : Escaped c w p)
    (tail : List Char) :
    scanString (w ++ tail) = (scanString tail).map fun (raw, after) => (w ++ raw, after) := by
  cases h with
  | plain hquote hbackslash hprintable =>
    exact scanString_plain hquote hbackslash hprintable tail
  | short named =>
    simp only [List.cons_append, List.nil_append, scanString]
  | @unit high low control upper lower =>
    obtain ⟨hq, hb, hp⟩ := plain_of_hexValue? upper
    obtain ⟨lq, lb, lp⟩ := plain_of_hexValue? lower
    simp only [List.cons_append, List.nil_append, scanString]
    rw [scanString_plain (by decide) (by decide) (by decide),
      scanString_plain (by decide) (by decide) (by decide), scanString_plain hq hb hp,
      scanString_plain lq lb lp]
    cases scanString tail <;> rfl

theorem pieces?_escaped {c : Char} {w : List Char} {p : Piece} (h : Escaped c w p)
    (raw : List Char) : pieces? (w ++ raw) = (pieces? raw).map (p :: ·) := by
  cases h with
  | plain hquote hbackslash hprintable =>
    rw [List.singleton_append, pieces?]
    · intro a b d e rest h
      exact absurd h hbackslash
    · intro d rest h
      exact absurd h hbackslash
  | @short e named =>
    have hnotUnit : e ≠ 'u' := by
      rintro rfl
      cases named
    rw [List.cons_append, List.singleton_append, pieces?]
    · rw [named]
      cases pieces? raw <;> rfl
    · intro a b d f rest h
      exact absurd h hnotUnit
  | @unit high low control upper lower =>
    have hzero : hexValue? '0' = some 0 := by decide
    have hvalue : 0 * 4096 + 0 * 256 + c.toNat / 16 * 16 + c.toNat % 16 = c.toNat := by omega
    simp only [List.cons_append, List.nil_append, pieces?, hzero, upper, lower, Option.bind_eq_bind,
      Option.bind_some, hvalue]
    cases pieces? raw <;> rfl

theorem join?_unit {n : Nat} (h : n < 0xD800) (ps : List Piece) :
    join? (.unit n :: ps) = (join? ps).map (Char.ofNat n :: ·) := by
  have hhigh : ¬(0xD800 ≤ n ∧ n < 0xDC00) := by omega
  have hlow : ¬(0xDC00 ≤ n ∧ n < 0xE000) := by omega
  have halone : ¬(0xD800 ≤ n ∧ n < 0xE000) := by omega
  cases ps with
  | nil => simp [join?, halone]
  | cons p ps =>
    cases p with
    | char c => simp [join?, halone]
    | unit m => simp only [join?, hhigh, hlow, if_false]

theorem join?_escaped {c : Char} {w : List Char} {p : Piece} (h : Escaped c w p)
    (ps : List Piece) : join? (p :: ps) = (join? ps).map (c :: ·) := by
  cases h with
  | plain => rw [join?]
  | short => rw [join?]
  | unit control =>
    rw [join?_unit (by omega), Char.ofNat_toNat]

theorem scanString_escape (cs rest : List Char) :
    scanString (cs.flatMap escape ++ '"' :: rest) = some (cs.flatMap escape, rest) := by
  induction cs with
  | nil => simp [scanString]
  | cons c cs ih =>
    obtain ⟨p, hp⟩ := escaped_escape c
    rw [List.flatMap_cons, List.append_assoc, scanString_escaped hp, ih]
    rfl

theorem pieces?_escape (cs : List Char) :
    ∃ ps, pieces? (cs.flatMap escape) = some ps ∧ join? ps = some cs := by
  induction cs with
  | nil => exact ⟨[], rfl, rfl⟩
  | cons c cs ih =>
    obtain ⟨p, hp⟩ := escaped_escape c
    obtain ⟨ps, hpieces, hjoin⟩ := ih
    refine ⟨p :: ps, ?_, ?_⟩
    · rw [List.flatMap_cons, pieces?_escaped hp, hpieces]
      rfl
    · rw [join?_escaped hp, hjoin]
      rfl

/-- The text of a string, without its opening quote, is read as the string. -/
theorem readString_quoted (text : String) (rest : List Char) :
    readString (text.toList.flatMap escape ++ '"' :: rest) = some (some text, rest) := by
  obtain ⟨ps, hpieces, hjoin⟩ := pieces?_escape text.toList
  unfold readString
  rw [scanString_escape]
  simp only [Option.bind_eq_bind, Option.bind_some, hpieces, hjoin, Option.map_some,
    String.ofList_toList]

end ContentLoom.Json.Document

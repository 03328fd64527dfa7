import ContentLoom.Generated.Serializers
import ContentLoom.Generated.StepClass
import ContentLoom.Proofs.LiteralText
import Mathlib.Data.List.Induction

/-!
# Quoted texts

A quote ends a literal unless an odd number of backslashes stands before it.  In
the literal of a text such a number stands before every quote but the first and
the last, and with the escapes replaced the text is back.  So the generated code
tells apart any two tags, and any two collections of converter arguments.
-/

namespace ContentLoom

namespace Code

/-! ### Escaped places -/

/-- The number of backslashes at the end of some characters. -/
def backslashesAtEnd (front : List Char) : Nat := (front.reverse.takeWhile (· == '\\')).length

/-- Whatever comes after the characters is escaped by a backslash that is not itself escaped. -/
def Escaping (front : List Char) : Prop := backslashesAtEnd front % 2 = 1

instance (front : List Char) : Decidable (Escaping front) :=
  inferInstanceAs (Decidable (_ = _))

theorem not_escaping_nil : ¬Escaping [] := by decide

theorem escaping_snoc (front : List Char) (c : Char) :
    Escaping (front ++ [c]) ↔ c = '\\' ∧ ¬Escaping front := by
  unfold Escaping backslashesAtEnd
  rw [List.reverse_append, List.reverse_singleton, List.singleton_append, List.takeWhile_cons]
  by_cases hc : c = '\\'
  · subst hc
    simp only [BEq.rfl, if_true, List.length_cons, true_and]
    omega
  · simp [hc]

/-- What is written after a place that is not escaped is escaped as if it stood alone. -/
theorem escaping_append {front : List Char} (hfront : ¬Escaping front) (back : List Char) :
    Escaping (front ++ back) ↔ Escaping back := by
  induction back using List.reverseRecOn with
  | nil =>
    rw [List.append_nil]
    exact iff_of_false hfront not_escaping_nil
  | append_singleton back c ih => rw [← List.append_assoc, escaping_snoc, escaping_snoc, ih]

theorem escaping_backslash : Escaping ['\\'] := by decide

theorem not_escaping_written {c : Char} {written : List Char} (h : Written c written) :
    ¬Escaping written := by
  cases h with
  | plain hquote hbackslash =>
    rw [← List.nil_append [c], escaping_snoc]
    exact fun h => hbackslash h.1
  | @named e hstands =>
    have hsplit : ['\\', e] = ['\\'] ++ [e] := rfl
    rw [hsplit, escaping_snoc]
    exact fun h => h.2 escaping_backslash

/-- A quote among the characters that stand for one is escaped. -/
theorem escaping_of_written {c : Char} {written : List Char} (h : Written c written)
    {front back : List Char} (hquote : written = front ++ '"' :: back) : Escaping front := by
  cases h with
  | plain hplain hbackslash =>
    cases front with
    | nil => exact absurd (List.cons.inj hquote).1 hplain
    | cons d front => simp at hquote
  | named hstands =>
    match front, hquote with
    | [], hquote => exact absurd (List.cons.inj hquote).1 (by decide)
    | [d], hquote =>
      obtain rfl : '\\' = d := (List.cons.inj hquote).1
      exact escaping_backslash
    | d :: e :: front, hquote => simp at hquote

/-! ### Inside a literal -/

theorem not_escaping_flatMap_escape (cs : List Char) : ¬Escaping (cs.flatMap escape) := by
  induction cs with
  | nil => exact not_escaping_nil
  | cons c cs ih =>
    rw [List.flatMap_cons, escaping_append (not_escaping_written (written_escape c))]
    exact ih

theorem escaping_of_flatMap_escape {cs front back : List Char}
    (h : cs.flatMap escape = front ++ '"' :: back) : Escaping front := by
  induction cs generalizing front with
  | nil => simp at h
  | cons c cs ih =>
    have hwritten := written_escape c
    rw [List.flatMap_cons] at h
    rcases List.append_eq_append_iff.1 h with ⟨rest, hfront, hrest⟩ | ⟨rest, hchar, hrest⟩
    · rw [hfront, escaping_append (not_escaping_written hwritten)]
      exact ih hrest
    · cases rest with
      | nil =>
        -- the quote is the first character after those that stand for `c`
        have hlater : Escaping [] := ih hrest.symm
        exact absurd hlater not_escaping_nil
      | cons d rest =>
        obtain ⟨rfl, -⟩ := List.cons.inj hrest
        exact escaping_of_written hwritten hchar

/-- The characters are one literal, and it stands for a text. -/
structure LiteralOf (written text : String) : Prop where
  /-- Between the quotes at both ends all quotes are escaped, and the one at the end is not. -/
  quoted : ∃ body, written.toList = '"' :: (body ++ ['"']) ∧ ¬Escaping body ∧
    ∀ front back, body = front ++ '"' :: back → Escaping front
  read : readLiteral? written.toList = some text.toList

theorem literalOf_literal (s : String) : LiteralOf (literal s) s where
  quoted := ⟨s.toList.flatMap escape, by rw [literal, String.toList_ofList, literalChars],
    not_escaping_flatMap_escape _, fun _ _ => escaping_of_flatMap_escape⟩
  read := by rw [literal, String.toList_ofList, readLiteral?_literalChars]

/-- A literal ends at its closing quote, whatever is written after it. -/
theorem literal_append_inj {s t a b : String} (h : literal s ++ a = literal t ++ b) :
    s = t ∧ a = b := by
  have hchars (s a : String) :
      (literal s ++ a).toList = '"' :: (s.toList.flatMap escape ++ '"' :: a.toList) := by
    simp [literal, literalChars, String.toList_append]
  have hbody := (List.cons.inj ((hchars s a).symm.trans (h ▸ hchars t b))).2
  have hread := congrArg readBody hbody
  rw [readBody_flatMap_escape, readBody_flatMap_escape] at hread
  obtain ⟨htext, hafter⟩ := Prod.mk.inj (Option.some.inj hread)
  exact ⟨String.toList_inj.1 htext, String.toList_inj.1 hafter⟩

end Code

namespace Generated

open Code

/-! ### Code with literals -/

theorem caseCode_inj (a b : Case) : caseCode a = caseCode b ↔ a = b := by
  refine ⟨fun h => ?_, congrArg caseCode⟩
  obtain ⟨hlabel, hbody⟩ := List.cons.inj h
  have htag : a.tag = b.tag := by
    apply literal_injective
    simpa [String.append_left_inj, String.append_right_inj] using hlabel
  have htype : a.type = b.type := by
    simpa [indented, lines, rooted, String.append_left_inj, String.append_right_inj] using hbody
  cases a
  cases b
  cases htag
  cases htype
  rfl

/-- The entry of a converter's argument. -/
def entryLine (e : String × String) : Write :=
  .line ("[" ++ literal e.1 ++ "] = " ++ literal e.2 ++ ",")

theorem entryLine_injective : Function.Injective entryLine := by
  rintro ⟨k, v⟩ ⟨k', v'⟩ h
  have htext : "[" ++ (literal k ++ ("] = " ++ (literal v ++ ","))) =
      "[" ++ (literal k' ++ ("] = " ++ (literal v' ++ ","))) := by
    simpa only [entryLine, Write.line.injEq, String.append_assoc] using h
  obtain ⟨hkey, hrest⟩ := literal_append_inj ((String.append_right_inj _).1 htext)
  obtain ⟨hvalue, -⟩ := literal_append_inj ((String.append_right_inj _).1 hrest)
  rw [hkey, hvalue]

/-- The line that declares the arguments of a property's converter. -/
def configHead (p : ContentProperty) : Write :=
  .line ("private static readonly Dictionary<string, string> " ++ configField p ++ " = new()")

theorem configCode_of_none {p : ContentProperty} (h : p.config = none) : configCode p = [] := by
  rw [configCode, h]

theorem configCode_of_some {p : ContentProperty} {d : ConverterConfig} (h : p.config = some d) :
    configCode p =
      configHead p :: (blockWith (closeBrace ++ ";") "" (d.entries.map entryLine) ++ [.blank]) := by
  rw [configCode, h]
  rfl

theorem configHead_eq_iff (p q : ContentProperty) :
    configHead p = configHead q ↔ p.name = q.name := by
  simp [configHead, configField, String.append_left_inj, String.append_right_inj]

theorem configCode_eq_iff (p q : ContentProperty) :
    configCode p = configCode q ↔ p.config = q.config ∧ (p.config = none ∨ p.name = q.name) := by
  cases hp : p.config with
  | none =>
    cases hq : q.config with
    | none => simp [configCode_of_none hp, configCode_of_none hq]
    | some e => simp [configCode_of_none hp, configCode_of_some hq]
  | some d =>
    cases hq : q.config with
    | none => simp [configCode_of_some hp, configCode_of_none hq]
    | some e =>
      have hconfig : d.entries.map entryLine = e.entries.map entryLine ↔ d = e := by
        rw [List.map_inj_right fun _ _ h => entryLine_injective h]
        cases d
        cases e
        simp
      rw [configCode_of_some hp, configCode_of_some hq]
      simp only [blockWith, List.cons.injEq, configHead_eq_iff, List.cons_append,
        List.append_left_inj, hconfig, true_and, Option.some.injEq, reduceCtorEq, false_or]
      exact and_comm

/-- The literal of a text stands for the text and ends at its first quote that is not escaped.  So
two texts have different literals, two cases of a switch have different code, and so have two
properties with different arguments for their converters. -/
theorem literals_tell_apart :
    (∀ s, LiteralOf (literal s) s) ∧
      (∀ s t, literal s = literal t ↔ s = t) ∧
      (∀ a b : Case, caseCode a = caseCode b ↔ a = b) ∧
      ∀ p q : ContentProperty,
        configCode p = configCode q ↔ p.config = q.config ∧ (p.config = none ∨ p.name = q.name) :=
  ⟨literalOf_literal, fun _ _ => literal_injective.eq_iff, caseCode_inj, configCode_eq_iff⟩

example : literal "\\\"n" = "\"\\\\\\\"n\"" := by decide

end Generated

end ContentLoom

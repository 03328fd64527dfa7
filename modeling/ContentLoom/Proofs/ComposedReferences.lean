import ContentLoom.Proofs.TypeScan
import ContentLoom.Proofs.TypeText
import Mathlib.Control.Monad.Basic
import Mathlib.Data.List.Forall2

/-!
# References made from references

A text that is a reference may stand as an argument of another one, whatever
blanks, brackets and marks it has.  A question mark and array brackets may only
be added where it has no question mark yet: the reader takes the mark for the end.
-/

namespace ContentLoom.TypeRef

/-! ### More text behind a type -/

theorem Blanks.append {text rest : List Char} (h : Blanks text rest) (back : List Char) :
    Blanks (text ++ back) (rest ++ back) := by
  obtain ⟨blanks, hblanks, rfl⟩ := h
  exact ⟨blanks, hblanks, List.append_assoc ..⟩

theorem Pairs.append {text rest : List Char} {n : Nat} (h : Pairs text n rest)
    (back : List Char) : Pairs (text ++ back) n (rest ++ back) := by
  induction h with
  | none => exact .none
  | more gap behind others ih => exact .more (gap.append back) (behind.append back) ih

theorem Mark.append {text rest : List Char} {nullable : Bool} (h : Mark text nullable rest)
    (back : List Char) : Mark (text ++ back) nullable (rest ++ back) := by
  cases h with
  | absent => exact .absent
  | present => exact .present

theorem IsName.append {text name rest back : List Char} (h : IsName text name rest)
    (hback : ∀ c ∈ back.head?, isNameChar c = false) :
    IsName (text ++ back) name (rest ++ back) := by
  obtain ⟨rfl, hnonempty, hletters, hmaximal, hnotRoot⟩ := h
  refine ⟨List.append_assoc .., hnonempty, hletters, fun c hc => ?_, hnotRoot⟩
  cases rest with
  | nil => exact hback c hc
  | cons d rest => exact hmaximal c hc

-- Only a name looks at what follows it, so the text that is added must not begin with a letter.
mutual

theorem IsType.append {text rest back : List Char} {t : TypeRef}
    (hback : ∀ c ∈ back.head?, isNameChar c = false) :
    IsType text t rest → IsType (text ++ back) t (rest ++ back)
  | .intro before written gap inner behind pairs mark =>
    .intro (before.append back) (written.append hback) (gap.append back) (inner.append hback)
      (behind.append back) (pairs.append back) (mark.append back)

theorem IsArguments.append {text rest back : List Char} {ts : List TypeRef}
    (hback : ∀ c ∈ back.head?, isNameChar c = false) :
    IsArguments text ts rest → IsArguments (text ++ back) ts (rest ++ back)
  | .none => .none
  | .some type gap more =>
    .some (type.append hback) (gap.append back) (more.append hback)

theorem IsMore.append {text rest back : List Char} {ts : List TypeRef}
    (hback : ∀ c ∈ back.head?, isNameChar c = false) :
    IsMore text ts rest → IsMore (text ++ back) ts (rest ++ back)
  | .none => .none
  | .more type gap more =>
    .more (type.append hback) (gap.append back) (more.append hback)

end

/-! ### Arguments -/

theorem IsText.after_blanks {text start : List Char} {t : TypeRef} (h : IsText start t)
    (hblanks : Blanks text start) : IsText text t := by
  obtain ⟨rest, htype, hrest⟩ := h
  exact ⟨rest, htype.after_blanks hblanks, hrest⟩

/-- A reference and text behind it that begins with no letter. -/
theorem IsText.exists_isType {text : List Char} {t : TypeRef} (h : IsText text t)
    {back : List Char} (hback : ∀ c ∈ back.head?, isNameChar c = false) :
    ∃ rest, IsType (text ++ back) t rest ∧ Blanks rest back := by
  obtain ⟨rest, htype, hrest⟩ := h
  exact ⟨rest ++ back, htype.append hback, hrest.append back⟩

/-- The texts of further arguments, each behind a comma. -/
def furtherChars (texts : List (List Char)) : List Char := texts.flatMap (',' :: ·)

theorem head_furtherChars (texts : List (List Char)) (rest : List Char) :
    ∀ c ∈ (furtherChars texts ++ '>' :: rest).head?, isNameChar c = false := by
  cases texts with
  | nil => exact not_letter_cons (by decide) rest
  | cons text texts => exact not_letter_cons (by decide) _

theorem isMore_furtherChars {texts : List (List Char)} {ts : List TypeRef}
    (h : List.Forall₂ IsText texts ts) (rest : List Char) :
    IsMore (furtherChars texts ++ '>' :: rest) ts ('>' :: rest) := by
  induction h with
  | nil => exact .none
  | @cons text t texts ts hfirst hothers ih =>
    obtain ⟨after, htype, hgap⟩ := hfirst.exists_isType (head_furtherChars texts rest)
    have hsplit : furtherChars (text :: texts) ++ '>' :: rest =
        ',' :: (text ++ (furtherChars texts ++ '>' :: rest)) := by
      rw [furtherChars, List.flatMap_cons, List.append_assoc]
      rfl
    rw [hsplit]
    exact .more htype hgap ih

/-- A plain name with references between angle brackets. -/
theorem isText_generic {name : String} {letters text : List Char} {texts : List (List Char)}
    {t : TypeRef} {ts : List TypeRef} (hname : PlainName name letters 0) (hfirst : IsText text t)
    (hothers : List.Forall₂ IsText texts ts) :
    IsText (letters ++ '<' :: (text ++ (furtherChars texts ++ ['>']))) ⟨name, t :: ts, false⟩ := by
  have hopening : ∀ c ∈ ('<' :: (text ++ (furtherChars texts ++ ['>']))).head?,
      isNameChar c = false := not_letter_cons (by decide) _
  have hnotRoot : letters ≠ rootMark := fun heq => hname.notRooted (heq ▸ List.prefix_rfl)
  have hwritten := IsName.mk rfl hname.nonempty hname.isLetter hopening hnotRoot
  obtain ⟨after, htype, hgap⟩ := hfirst.exists_isType (head_furtherChars texts [])
  have hinner := IsArguments.some htype hgap (isMore_furtherChars hothers [])
  have hwhole := IsType.intro (Blanks.refl _) hwritten (Blanks.refl _) hinner (Blanks.refl [])
    .none .absent
  rw [rootless_eq_self hname.notRooted, ← hname.split] at hwhole
  exact ⟨[], hwhole, Blanks.refl []⟩

/-! ### Suffixes -/

/-- Blanks behind brackets belong to the last pair or stand before all of them. -/
theorem Pairs.exists_start {text rest next : List Char} {n : Nat} (h : Pairs text n rest)
    (hblanks : Blanks rest next) : ∃ start, Blanks text start ∧ Pairs start n next := by
  induction h with
  | none => exact ⟨next, hblanks, .none⟩
  | more gap behind others ih =>
    obtain ⟨start, hstart, hpairs⟩ := ih hblanks
    exact ⟨_, Blanks.refl _, .more gap (behind.trans hstart) hpairs⟩

theorem Pairs.snoc {text rest : List Char} {n : Nat} (h : Pairs text n ('[' :: ']' :: rest)) :
    Pairs text (n + 1) rest := by
  generalize hending : '[' :: ']' :: rest = ending at h
  induction h with
  | none =>
    subst hending
    exact .more (Blanks.refl _) (Blanks.refl _) .none
  | more gap behind others ih => exact .more gap behind (ih hending)

theorem bracketed_succ (name : List Char) (n : Nat) :
    bracketed name (n + 1) = bracketed name n ++ "[]" := by
  rw [bracketed, bracketed, List.replicate_succ', List.flatten_append, ← List.append_assoc,
    String.ofList_append]
  rfl

/-- The text begins with a type up to where its question mark may stand, and `rest` follows. -/
inductive IsUnmarked : List Char → List Char → List TypeRef → Nat → List Char → Prop
  | intro {text start name afterName opening arguments afterArguments brackets n rest}
      (before : Blanks text start)
      (written : IsName start name afterName)
      (gap : Blanks afterName opening)
      (inner : IsArguments opening arguments afterArguments)
      (behind : Blanks afterArguments brackets)
      (pairs : Pairs brackets n rest) :
      IsUnmarked text name arguments n rest

namespace IsUnmarked

variable {text name rest : List Char} {arguments : List TypeRef} {n : Nat}

theorem isText {nullable : Bool} (h : IsUnmarked text name arguments n rest)
    (hmark : Mark rest nullable []) :
    IsText text ⟨bracketed (rootless name) n, arguments, nullable⟩ := by
  cases h with
  | intro before written gap inner behind pairs =>
    exact ⟨[], .intro before written gap inner behind pairs hmark, Blanks.refl []⟩

theorem snoc (h : IsUnmarked text name arguments n ('[' :: ']' :: rest)) :
    IsUnmarked text name arguments (n + 1) rest := by
  cases h with
  | intro before written gap inner behind pairs =>
    exact .intro before written gap inner behind pairs.snoc

end IsUnmarked

/-- A reference without a question mark, and text behind it that begins with no letter. -/
theorem IsText.exists_isUnmarked {text back : List Char} {t : TypeRef} (h : IsText text t)
    (hplain : t.nullable = false) (hback : ∀ c ∈ back.head?, isNameChar c = false) :
    ∃ name n, t.name = bracketed (rootless name) n ∧
      IsUnmarked (text ++ back) name t.arguments n back := by
  obtain ⟨rest, htype, hrest⟩ := h
  cases htype with
  | intro before written gap inner behind pairs mark =>
    cases mark with
    | present => cases hplain
    | absent =>
      obtain ⟨start, hstart, hpairs⟩ := (pairs.append back).exists_start (hrest.append back)
      exact ⟨_, _, rfl, .intro (before.append back) (written.append hback) (gap.append back)
        (inner.append hback) ((behind.append back).trans hstart) hpairs⟩

theorem isText_nullable {text : List Char} {t : TypeRef} (h : IsText text t)
    (hplain : t.nullable = false) : IsText (text ++ ['?']) { t with nullable := true } := by
  have hmark : isNameChar '?' = false := by decide
  obtain ⟨name, n, hname, hunmarked⟩ := h.exists_isUnmarked hplain (not_letter_cons hmark [])
  rw [hname]
  exact hunmarked.isText .present

theorem isText_array {text : List Char} {t : TypeRef} (h : IsText text t)
    (hplain : t.nullable = false) :
    IsText (text ++ ['[', ']']) { t with name := t.name ++ "[]" } := by
  have hbracket : isNameChar '[' = false := by decide
  obtain ⟨name, n, hname, hunmarked⟩ := h.exists_isUnmarked hplain (not_letter_cons hbracket [']'])
  rw [hname, ← bracketed_succ, hplain]
  exact hunmarked.snoc.isText .absent

/-! ### Whole texts -/

theorem parse_iff (text : String) (t : TypeRef) : parse text = .ok t ↔ IsText text.toList t :=
  (parse_eq_ok_iff text t).trans ⟨isText_of_ofChars, ofChars_of_isText⟩

/-- Behind a reference with a question mark, neither another one nor a bracket is read. -/
theorem not_read_behind_mark {text : String} {t : TypeRef} {c : Char} (h : parse text = .ok t)
    (hnullable : t.nullable = true) (hc : c = '?' ∨ c = '[') (back : List Char) (u : TypeRef) :
    parse (text ++ String.ofList (c :: back)) ≠ .ok u := by
  intro hread
  rw [parse_eq_ok_iff] at h hread
  rw [String.toList_append, String.toList_ofList] at hread
  obtain ⟨part, hleads, -, hmark⟩ := Scan.leads_of_ofChars h
  obtain ⟨front, hfront, htakes⟩ := hleads.exists_front
  obtain ⟨last, hlast, -⟩ := Scan.leads_of_ofChars hread
  have hnone : Scan.step ⟨0, part⟩ c = none := by
    rw [hmark hnullable]
    rcases hc with rfl | rfl <;> rfl
  rw [List.append_nil] at hfront
  subst hfront
  exact (htakes (c :: back)).no_end hnone hlast

/-- References are arguments of references; without a question mark at the end they are also
elements of arrays and take a question mark, and with one they do neither. -/
theorem parse_composed {text other : String} {t u : TypeRef} (ht : parse text = .ok t)
    (hu : parse other = .ok u) :
    parse ("List<" ++ text ++ ">") = .ok ⟨"List", [t], false⟩ ∧
      parse ("Dictionary<" ++ text ++ ", " ++ other ++ ">") =
        .ok ⟨"Dictionary", [t, u], false⟩ ∧
      (t.nullable = false → parse (text ++ "?") = .ok { t with nullable := true } ∧
        parse (text ++ "[]") = .ok { t with name := t.name ++ "[]" }) ∧
      (t.nullable = true → ∀ v, parse (text ++ "?") ≠ .ok v ∧ parse (text ++ "[]") ≠ .ok v) := by
  have hfirst := (parse_iff text t).1 ht
  have hsecond := (parse_iff other u).1 hu
  have hlist : PlainName "List" "List".toList 0 :=
    ⟨by decide, by decide, List.all_eq_true.1 (by decide +kernel), by decide⟩
  have hdictionary : PlainName "Dictionary" "Dictionary".toList 0 :=
    ⟨by decide, by decide, List.all_eq_true.1 (by decide +kernel), by decide⟩
  refine ⟨?_, ?_, fun hplain => ⟨?_, ?_⟩, fun hnullable v => ⟨?_, ?_⟩⟩
  · have hgeneric := isText_generic hlist hfirst .nil
    rw [parse_iff]
    simpa [furtherChars] using hgeneric
  · have hblank : Blanks (' ' :: other.toList) other.toList :=
      ⟨[' '], List.forall_mem_singleton.2 (by decide), rfl⟩
    have hgeneric := isText_generic hdictionary hfirst (.cons (hsecond.after_blanks hblank) .nil)
    rw [parse_iff]
    simpa [furtherChars] using hgeneric
  · rw [parse_iff, String.toList_append]
    exact isText_nullable hfirst hplain
  · rw [parse_iff, String.toList_append]
    exact isText_array hfirst hplain
  · exact not_read_behind_mark ht hnullable (Or.inl rfl) [] v
  · exact not_read_behind_mark ht hnullable (Or.inr rfl) [']'] v

theorem parse_composed_nullableString :
    parse "string?" = .ok ⟨"string", [], true⟩ ∧
      parse " byte [ ]" = .ok ⟨"byte[]", [], false⟩ ∧
      parse ("List<" ++ "string?" ++ ">") = .ok ⟨"List", [⟨"string", [], true⟩], false⟩ ∧
      (∀ u, parse ("string?" ++ "[]") ≠ .ok u) ∧
      parse ("Dictionary<" ++ " byte [ ]" ++ ", " ++ "string?" ++ ">") =
        .ok ⟨"Dictionary", [⟨"byte[]", [], false⟩, ⟨"string", [], true⟩], false⟩ ∧
      parse (" byte [ ]" ++ "?") = .ok ⟨"byte[]", [], true⟩ ∧
      parse (" byte [ ]" ++ "[]") = .ok ⟨"byte[]" ++ "[]", [], false⟩ := by
  have hmarked : parse "string?" = .ok ⟨"string", [], true⟩ := by decide +kernel
  have hbytes : parse " byte [ ]" = .ok ⟨"byte[]", [], false⟩ := by decide +kernel
  obtain ⟨hlist, -, -, hrefused⟩ := parse_composed hmarked hbytes
  obtain ⟨-, hdictionary, hsuffixed, -⟩ := parse_composed hbytes hmarked
  obtain ⟨hquestion, harray⟩ := hsuffixed rfl
  exact ⟨hmarked, hbytes, hlist, fun u => (hrefused rfl u).2, hdictionary, hquestion, harray⟩

end ContentLoom.TypeRef

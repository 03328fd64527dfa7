import ContentLoom.Proofs.TypeGrammar

/-!
# The text of type references

A reference that was read is read back from its text unless some name in it
still has the mark of the root, or has array brackets and arguments: the text
has the brackets before the arguments, where they are not read.
-/

namespace ContentLoom.TypeRef

/-! ### Clear references -/

mutual

/-- Neither the name nor one in the arguments begins with the mark of the root, or has array
brackets in front of arguments. -/
def Clear : TypeRef → Prop
  | ⟨name, arguments, _⟩ =>
    ¬rootMark <+: name.toList ∧ (arguments ≠ [] → ']' ∉ name.toList) ∧ AllClear arguments

/-- All references are clear. -/
def AllClear : List TypeRef → Prop
  | [] => True
  | t :: ts => Clear t ∧ AllClear ts

end

/-! ### Names with brackets -/

/-- The characters of array brackets. -/
def bracketChars (n : Nat) : List Char := (List.replicate n ['[', ']']).flatten

theorem toList_bracketed (name : List Char) (n : Nat) :
    (bracketed name n).toList = name ++ bracketChars n := by
  rw [bracketed, String.toList_ofList, bracketChars]

theorem bracketChars_succ (n : Nat) : bracketChars (n + 1) = '[' :: ']' :: bracketChars n := rfl

theorem isNameChar_of_mem_rootless {name : List Char} (h : ∀ c ∈ name, isNameChar c = true) :
    ∀ c ∈ rootless name, isNameChar c = true := by
  intro c hc
  unfold rootless at hc
  split at hc
  · exact h c (List.mem_of_mem_drop hc)
  · exact h c hc

theorem not_prefix_of_rootless_eq {name : List Char} (h : rootless name = name) :
    ¬rootMark <+: name := by
  intro hprefix
  unfold rootless at h
  rw [if_pos (List.isPrefixOf_iff_prefix.2 hprefix)] at h
  have hlength := congrArg List.length h
  have hmark : 8 ≤ name.length := hprefix.length_le
  rw [List.length_drop] at hlength
  have height : rootMark.length = 8 := rfl
  omega

theorem rootless_eq_self {name : List Char} (h : ¬rootMark <+: name) : rootless name = name := by
  unfold rootless
  rw [if_neg fun hprefix => h (List.isPrefixOf_iff_prefix.1 hprefix)]

/-- The mark of the root has no brackets, so it begins a name with brackets only where it begins the
name. -/
theorem rootMark_prefix_append (name : List Char) (n : Nat) :
    rootMark <+: name ++ bracketChars n ↔ rootMark <+: name := by
  refine ⟨fun h => ?_, fun h => h.trans (List.prefix_append ..)⟩
  rcases List.prefix_or_prefix_of_prefix h (List.prefix_append name (bracketChars n)) with
    hroot | hroot
  · exact hroot
  · obtain ⟨back, hback⟩ := hroot
    rw [← hback, List.prefix_append_right_inj] at h
    cases back with
    | nil =>
      rw [List.append_nil] at hback
      exact hback ▸ List.prefix_rfl
    | cons c back =>
      have hletter : c ∈ rootMark := by
        rw [← hback]
        simp
      cases n with
      | zero => exact absurd h (by simp [bracketChars])
      | succ n =>
        rw [bracketChars_succ, List.cons_prefix_cons] at h
        rw [h.1] at hletter
        exact absurd hletter (by decide)

theorem bracket_not_mem {name : List Char} (h : ∀ c ∈ name, isNameChar c = true) :
    ']' ∉ name := by
  intro hmem
  exact absurd (h ']' hmem) (by decide)

/-! ### Steps of the grammar -/

theorem Blanks.refl (text : List Char) : Blanks text text :=
  ⟨[], fun _ hc => absurd hc List.not_mem_nil, rfl⟩

theorem Blanks.trans {text middle rest : List Char} (h : Blanks text middle)
    (hrest : Blanks middle rest) : Blanks text rest := by
  obtain ⟨front, hfront, rfl⟩ := h
  obtain ⟨back, hback, rfl⟩ := hrest
  refine ⟨front ++ back, fun c hc => ?_, (List.append_assoc ..).symm⟩
  exact (List.mem_append.1 hc).elim (hfront c) (hback c)

theorem Blanks.eq_of_solid {c : Char} {cs rest : List Char} (h : Blanks (c :: cs) rest)
    (hsolid : Text.isBlank c = false) : rest = c :: cs := by
  obtain ⟨blanks, hblanks, htext⟩ := h
  cases blanks with
  | nil => exact htext.symm
  | cons b blanks =>
    have hblank := hblanks b (List.mem_cons_self ..)
    rw [← (List.cons.inj htext).1, hsolid] at hblank
    cases hblank

theorem IsType.after_blanks {text start rest : List Char} {t : TypeRef} (h : IsType start t rest)
    (hblanks : Blanks text start) : IsType text t rest := by
  cases h with
  | intro before written gap inner behind pairs mark =>
    exact .intro (hblanks.trans before) written gap inner behind pairs mark

/-- The characters of a question mark, if there is one. -/
def markChars (nullable : Bool) : List Char := if nullable then ['?'] else []

theorem chars_eq (name : String) (arguments : List TypeRef) (nullable : Bool) (rest : List Char) :
    chars ⟨name, arguments, nullable⟩ ++ rest =
      name.toList ++ (argumentChars arguments ++ (markChars nullable ++ rest)) := by
  rw [chars, markChars, List.append_assoc, List.append_assoc]

theorem pairs_bracketChars (n : Nat) (rest : List Char) : Pairs (bracketChars n ++ rest) n rest := by
  induction n with
  | zero => exact .none
  | succ n ih =>
    rw [bracketChars_succ]
    exact .more (Blanks.refl _) (Blanks.refl _) ih

theorem Pairs.blanks_of_bracketChars {text ending : List Char} {n : Nat} (h : Pairs text n ending)
    {rest : List Char} (htext : Blanks (bracketChars n ++ rest) text) : Blanks rest ending := by
  induction h with
  | none => exact htext
  | @more inner after next n ending gap behind others ih =>
    rw [bracketChars_succ] at htext
    have hinner := (List.cons.inj (htext.eq_of_solid (by decide))).2
    rw [hinner] at gap
    have hafter := (List.cons.inj (gap.eq_of_solid (by decide))).2
    rw [hafter] at behind
    exact ih behind

theorem mark_markChars (nullable : Bool) (rest : List Char) :
    Mark (markChars nullable ++ rest) nullable rest := by
  cases nullable with
  | false => exact .absent
  | true => exact .present

theorem Mark.blanks_of_markChars {ending rest rest' : List Char} {nullable : Bool}
    (h : Mark ending nullable rest') (hending : Blanks (markChars nullable ++ rest) ending) :
    Blanks rest rest' := by
  cases h with
  | absent => exact hending
  | present =>
    have hrest := (List.cons.inj (hending.eq_of_solid (by decide))).2
    rw [hrest]
    exact Blanks.refl rest

theorem not_letter_nil : ∀ c ∈ ([] : List Char).head?, isNameChar c = false := by
  intro c hc
  cases hc

theorem not_letter_cons {c : Char} (h : isNameChar c = false) (rest : List Char) :
    ∀ d ∈ (c :: rest).head?, isNameChar d = false := by
  intro d hd
  cases hd
  exact h

/-- What follows a name in a text is no character of a name. -/
theorem head_after_name (n : Nat) (arguments : List TypeRef) (nullable : Bool) {rest : List Char}
    (hrest : ∀ c ∈ rest.head?, isNameChar c = false) :
    ∀ c ∈ (bracketChars n ++ (argumentChars arguments ++ (markChars nullable ++ rest))).head?,
      isNameChar c = false := by
  intro c hc
  cases n with
  | succ n =>
    cases hc
    decide
  | zero =>
    cases arguments with
    | cons first others =>
      cases hc
      decide
    | nil =>
      cases nullable with
      | true =>
        cases hc
        decide
      | false => exact hrest c hc

theorem head_moreChars (ts : List TypeRef) (rest : List Char) :
    ∃ c cs, moreChars ts ++ rest = c :: cs ∧ isNameChar c = false ∧ Text.isBlank c = false := by
  cases ts with
  | nil => exact ⟨'>', _, rfl, by decide, by decide⟩
  | cons t ts => exact ⟨',', _, rfl, by decide, by decide⟩

theorem head_moreChars_append (ts : List TypeRef) (rest : List Char) :
    ∀ c ∈ (moreChars ts ++ rest).head?, isNameChar c = false := by
  intro c hc
  obtain ⟨d, cs, heq, hd, -⟩ := head_moreChars ts rest
  rw [heq] at hc
  cases hc
  exact hd

/-! ### Reading the text of a reference -/

-- The induction is on the derivation that the text of a reference is read as this reference.  The
-- name ends where the text of the name ends, so it has lost no mark; and brackets that follow it
-- leave no place for arguments.
mutual

theorem clear_of_isType {text rest rest' : List Char} {t : TypeRef} (h : IsType text t rest')
    (htext : Blanks text (chars t ++ rest)) (hrest : ∀ c ∈ rest.head?, isNameChar c = false) :
    Clear t ∧ Blanks rest rest' := by
  match h with
  | @IsType.intro _ start name afterName opening arguments afterArguments paired n ending
      nullable _ before written gap inner behind pairs mark =>
    have hletters := isNameChar_of_mem_rootless written.letters
    have hnonempty : rootless name ≠ [] := by
      rw [ne_eq, rootless_eq_nil_iff, not_or]
      exact ⟨written.nonempty, written.notRoot⟩
    have htail := head_after_name n arguments nullable hrest
    rw [chars_eq, toList_bracketed, List.append_assoc] at htext
    -- the text of the reference begins where the name does, and so the name is the one in the text
    have hstart := before.trimStart_eq.symm.trans htext.trimStart_eq
    rw [written.trimStart, trimStart_letters hnonempty hletters] at hstart
    have hspan := span_letters hletters htail
    rw [← hstart, written.takeWhile.1, written.takeWhile.2] at hspan
    obtain ⟨hname, hafter⟩ := hspan
    rw [hafter] at gap
    have hroot : ¬rootMark <+: (bracketed (rootless name) n).toList := by
      rw [toList_bracketed, rootMark_prefix_append, ← hname]
      exact not_prefix_of_rootless_eq hname.symm
    match inner with
    | .none =>
      have hending := pairs.blanks_of_bracketChars (gap.trans behind)
      exact ⟨⟨hroot, fun h => absurd rfl h, True.intro⟩, mark.blanks_of_markChars hending⟩
    | @IsArguments.some text₂ first after next others _ type gap₂ more =>
      cases n with
      | succ n => cases gap.eq_of_solid (by decide)
      | zero =>
        have hopen : text₂ = chars first ++ (moreChars others ++ (markChars nullable ++ rest)) :=
          (List.cons.inj (gap.eq_of_solid (by decide))).2.trans (List.append_assoc ..)
        have hblanks : Blanks text₂
            (chars first ++ (moreChars others ++ (markChars nullable ++ rest))) :=
          ⟨[], nofun, hopen⟩
        obtain ⟨hfirst, hafter₂⟩ := clear_of_isType type hblanks (head_moreChars_append others _)
        obtain ⟨c, cs, hmore, -, hsolid⟩ := head_moreChars others (markChars nullable ++ rest)
        have hnext := hafter₂.trans gap₂
        rw [hmore] at hnext
        obtain ⟨hothers, hbehind⟩ := clear_of_isMore more rfl
          ((hnext.eq_of_solid hsolid).trans hmore.symm)
        rw [hbehind] at behind
        have hbrackets : ']' ∉ (bracketed (rootless name) 0).toList := by
          rw [toList_bracketed, bracketChars, List.replicate_zero, List.flatten_nil, List.append_nil]
          exact bracket_not_mem hletters
        have hending := pairs.blanks_of_bracketChars behind
        exact ⟨⟨hroot, fun _ => hbrackets, hfirst, hothers⟩, mark.blanks_of_markChars hending⟩

theorem clear_of_isMore {text rest rest' tail : List Char} {ts : List TypeRef}
    (h : IsMore text ts tail) (htail : tail = '>' :: rest') (htext : text = moreChars ts ++ rest) :
    AllClear ts ∧ rest' = rest := by
  match h with
  | .none =>
    rw [htext, moreChars] at htail
    exact ⟨True.intro, (List.cons.inj htail).2.symm⟩
  | @IsMore.more text₂ first after next others _ type gap more =>
    have hopen : text₂ = ' ' :: (chars first ++ (moreChars others ++ rest)) :=
      (List.cons.inj htext).2.trans (congrArg (' ' :: ·) (List.append_assoc ..))
    have hblank : Blanks text₂ (chars first ++ (moreChars others ++ rest)) :=
      ⟨[' '], List.forall_mem_singleton.2 (by decide), hopen⟩
    obtain ⟨hfirst, hafter⟩ := clear_of_isType type hblank (head_moreChars_append others rest)
    obtain ⟨c, cs, hmore, -, hsolid⟩ := head_moreChars others rest
    have hnext := hafter.trans gap
    rw [hmore] at hnext
    obtain ⟨hothers, hrest⟩ := clear_of_isMore more htail
      ((hnext.eq_of_solid hsolid).trans hmore.symm)
    exact ⟨⟨hfirst, hothers⟩, hrest⟩

end

/-! ### Plain references -/

/-- The text of a name is letters, at least one, that do not begin with the mark of the root, and
some pairs of brackets. -/
structure PlainName (name : String) (letters : List Char) (n : Nat) : Prop where
  split : name = bracketed letters n
  nonempty : letters ≠ []
  isLetter : ∀ c ∈ letters, isNameChar c = true
  notRooted : ¬rootMark <+: letters

mutual

/-- The name and those in the arguments are plain, and none has brackets in front of arguments. -/
def Plain : TypeRef → Prop
  | ⟨name, arguments, _⟩ =>
    (∃ letters n, PlainName name letters n ∧ (n ≠ 0 → arguments = [])) ∧ AllPlain arguments

/-- All references are plain. -/
def AllPlain : List TypeRef → Prop
  | [] => True
  | t :: ts => Plain t ∧ AllPlain ts

end

theorem argumentChars_cons (t : TypeRef) (ts : List TypeRef) (rest : List Char) :
    argumentChars (t :: ts) ++ rest = '<' :: (chars t ++ (moreChars ts ++ rest)) :=
  congrArg ('<' :: ·) (List.append_assoc ..)

mutual

theorem isType_chars {t : TypeRef} (h : Plain t) {rest : List Char}
    (hrest : ∀ c ∈ rest.head?, isNameChar c = false) : IsType (chars t ++ rest) t rest := by
  match t with
  | ⟨name, arguments, nullable⟩ =>
    obtain ⟨⟨letters, n, hplain, hbrackets⟩, harguments⟩ := h
    have htail := head_after_name n arguments nullable hrest
    have hnotRoot : letters ≠ rootMark := fun heq => hplain.notRooted (heq ▸ List.prefix_rfl)
    have hname := IsName.mk rfl hplain.nonempty hplain.isLetter htail hnotRoot
    rw [chars_eq, hplain.split, toList_bracketed, List.append_assoc]
    match arguments with
    | [] =>
      have htype := IsType.intro (Blanks.refl _) hname (Blanks.refl _) .none (Blanks.refl _)
        (pairs_bracketChars n (markChars nullable ++ rest)) (mark_markChars nullable rest)
      rwa [rootless_eq_self hplain.notRooted] at htype
    | first :: others =>
      obtain rfl : n = 0 := by
        cases n with
        | zero => rfl
        | succ n => cases hbrackets (Nat.succ_ne_zero n)
      have hfirst := isType_chars harguments.1
        (head_moreChars_append others (markChars nullable ++ rest))
      have hothers := isMore_chars harguments.2 (markChars nullable ++ rest)
      rw [argumentChars_cons] at hname ⊢
      have htype := IsType.intro (Blanks.refl _) hname (Blanks.refl _)
        (.some hfirst (Blanks.refl _) hothers) (Blanks.refl _) .none (mark_markChars nullable rest)
      rwa [rootless_eq_self hplain.notRooted] at htype

theorem isMore_chars {ts : List TypeRef} (h : AllPlain ts) (rest : List Char) :
    IsMore (moreChars ts ++ rest) ts ('>' :: rest) := by
  match ts with
  | [] => exact .none
  | first :: others =>
    have hfirst := isType_chars h.1 (head_moreChars_append others rest)
    have hothers := isMore_chars h.2 rest
    have hblank : Blanks (' ' :: (chars first ++ (moreChars others ++ rest)))
        (chars first ++ (moreChars others ++ rest)) :=
      ⟨[' '], List.forall_mem_singleton.2 (by decide), rfl⟩
    rw [moreChars, List.cons_append, List.cons_append, List.append_assoc]
    exact .more (hfirst.after_blanks hblank) (Blanks.refl _) hothers

end

/-- A plain reference is read back from its text. -/
theorem ofChars_chars {t : TypeRef} (h : Plain t) : ofChars (chars t) = .ok t := by
  have hback := isType_chars h not_letter_nil
  rw [List.append_nil] at hback
  exact ofChars_of_isText ⟨[], hback, Blanks.refl []⟩

-- The induction is on any derivation that gives the reference, which tells how its names are built.
mutual

theorem plain_of_isType {text rest : List Char} {t : TypeRef} (h : IsType text t rest)
    (hclear : Clear t) : Plain t := by
  match h with
  | @IsType.intro _ start name afterName opening arguments afterArguments paired n ending
      nullable _ before written gap inner behind pairs mark =>
    obtain ⟨hroot, hbrackets, harguments⟩ := hclear
    rw [toList_bracketed] at hroot hbrackets
    rw [rootMark_prefix_append] at hroot
    have hnonempty : rootless name ≠ [] := by
      rw [ne_eq, rootless_eq_nil_iff, not_or]
      exact ⟨written.nonempty, written.notRoot⟩
    have hletters := isNameChar_of_mem_rootless written.letters
    have hbare (hn : n ≠ 0) : arguments = [] := by
      obtain ⟨m, rfl⟩ := Nat.exists_eq_succ_of_ne_zero hn
      have hbracket : ']' ∈ rootless name ++ bracketChars (m + 1) := by
        simp [bracketChars_succ]
      exact Classical.byContradiction fun hsome => hbrackets hsome hbracket
    exact ⟨⟨rootless name, n, ⟨rfl, hnonempty, hletters, hroot⟩, hbare⟩,
      allPlain_of_isArguments inner harguments⟩

theorem allPlain_of_isArguments {text rest : List Char} {ts : List TypeRef}
    (h : IsArguments text ts rest) (hclear : AllClear ts) : AllPlain ts := by
  match h with
  | .none => exact True.intro
  | .some type gap more =>
    exact ⟨plain_of_isType type hclear.1, allPlain_of_isMore more hclear.2⟩

theorem allPlain_of_isMore {text rest : List Char} {ts : List TypeRef} (h : IsMore text ts rest)
    (hclear : AllClear ts) : AllPlain ts := by
  match h with
  | .none => exact True.intro
  | .more type gap more =>
    exact ⟨plain_of_isType type hclear.1, allPlain_of_isMore more hclear.2⟩

end

/-! ### Whole references -/

/-- The reference is that of some text. -/
def Written (t : TypeRef) : Prop := ∃ text, parse text = .ok t

theorem parse_eq_ok_iff (text : String) (t : TypeRef) :
    parse text = .ok t ↔ ofChars text.toList = .ok t := by
  unfold parse
  cases ofChars text.toList with
  | ok u => simp
  | error halt => simp

/-- A reference that was read is read back from its text if and only if it is clear. -/
theorem parse_text_iff {t : TypeRef} (h : Written t) : parse t.text = .ok t ↔ Clear t := by
  obtain ⟨written, hwritten⟩ := h
  obtain ⟨after, htype, -⟩ := isText_of_ofChars ((parse_eq_ok_iff written t).1 hwritten)
  rw [parse_eq_ok_iff, text, String.toList_ofList]
  constructor
  · intro hread
    obtain ⟨rest, hback, -⟩ := isText_of_ofChars hread
    have htext : Blanks (chars t) (chars t ++ []) := by
      rw [List.append_nil]
      exact Blanks.refl _
    exact (clear_of_isType hback htext not_letter_nil).1
  · intro hclear
    exact ofChars_chars (plain_of_isType htype hclear)

/-- Plain references are read back from their texts, so two of them never have the same text. -/
theorem plain_read_back :
    (∀ t, Plain t → parse t.text = .ok t) ∧
      ∀ t u, Plain t → Plain u → t.text = u.text → t = u := by
  have hread (t : TypeRef) (h : Plain t) : parse t.text = .ok t := by
    rw [parse_eq_ok_iff, text, String.toList_ofList]
    exact ofChars_chars h
  refine ⟨hread, fun t u ht hu htext => ?_⟩
  have hback := hread t ht
  rw [htext, hread u hu] at hback
  exact (Except.ok.inj hback).symm

/-- A map from sizes to lists of tables. -/
def nestedMap : TypeRef :=
  ⟨"Map", [⟨"Größe", [], true⟩, ⟨"List", [⟨"Site.Kind[][]", [], false⟩], false⟩], true⟩

theorem plain_nestedMap : Plain nestedMap := by
  have hmap : PlainName "Map" "Map".toList 0 :=
    ⟨by decide, by decide, List.all_eq_true.1 (by decide +kernel), by decide⟩
  have hsize : PlainName "Größe" "Größe".toList 0 :=
    ⟨by decide, by decide, List.all_eq_true.1 (by decide +kernel), by decide⟩
  have hlist : PlainName "List" "List".toList 0 :=
    ⟨by decide, by decide, List.all_eq_true.1 (by decide +kernel), by decide⟩
  have hkind : PlainName "Site.Kind[][]" "Site.Kind".toList 2 :=
    ⟨by decide, by decide, List.all_eq_true.1 (by decide +kernel), by decide⟩
  refine ⟨⟨_, _, hmap, nofun⟩, ⟨⟨_, _, hsize, nofun⟩, True.intro⟩, ?_, True.intro⟩
  exact ⟨⟨_, _, hlist, nofun⟩, ⟨⟨_, _, hkind, fun _ => rfl⟩, True.intro⟩, True.intro⟩

theorem plain_read_back_nestedMap :
    Plain nestedMap ∧ nestedMap.text = "Map<Größe?, List<Site.Kind[][]>>?" ∧
      parse nestedMap.text = .ok nestedMap ∧
      ∀ u, Plain u → nestedMap.text = u.text → nestedMap = u :=
  ⟨plain_nestedMap, by decide, plain_read_back.1 nestedMap plain_nestedMap,
    fun u hu => plain_read_back.2 nestedMap u plain_nestedMap hu⟩

end ContentLoom.TypeRef

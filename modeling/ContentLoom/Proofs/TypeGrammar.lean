import ContentLoom.TypeRef.Parser

/-!
# The grammar of type references

The language of type references:

    Text      = Type ws*
    Type      = ws* Name ws* [Arguments] ws* Pairs ['?']
    Arguments = '<' Type ws* (',' Type ws*)* '>'
    Pairs     = ('[' ws* ']' ws*)*

Each rule says what a text begins with and what follows.  A rule leaves open to
which of two parts the blanks between them belong and whether an optional part
is there; a name alone goes as far as it can.  The reader accepts the whole
texts of this language and no others, and each of them has one tree.
-/

namespace ContentLoom.TypeRef

/-! ### Words -/

/-- The text begins with some blanks, perhaps none, and `rest` follows. -/
def Blanks (text rest : List Char) : Prop :=
  ∃ blanks, (∀ c ∈ blanks, Text.isBlank c = true) ∧ text = blanks ++ rest

/-- The text begins with a name, and `rest` follows. -/
structure IsName (text name rest : List Char) : Prop where
  split : text = name ++ rest
  nonempty : name ≠ []
  letters : ∀ c ∈ name, isNameChar c = true
  maximal : ∀ c ∈ rest.head?, isNameChar c = false
  notRoot : name ≠ rootMark

/-- The name without the mark of the root at its beginning. -/
def rootless (name : List Char) : List Char :=
  if rootMark.isPrefixOf name then name.drop rootMark.length else name

/-- The text begins with pairs of brackets, and `rest` follows. -/
inductive Pairs : List Char → Nat → List Char → Prop
  | none {text} : Pairs text 0 text
  | more {inner after next n rest} (gap : Blanks inner (']' :: after)) (behind : Blanks after next)
      (others : Pairs next n rest) : Pairs ('[' :: inner) (n + 1) rest

/-- The text begins with a question mark, or without one, and `rest` follows. -/
inductive Mark : List Char → Bool → List Char → Prop
  | absent {text} : Mark text false text
  | present {rest} : Mark ('?' :: rest) true rest

/-! ### Types -/

mutual

/-- The text begins with a type whose tree is `t`, and `rest` follows. -/
inductive IsType : List Char → TypeRef → List Char → Prop
  | intro {text start name afterName opening arguments afterArguments brackets n ending nullable
      rest}
      (before : Blanks text start)
      (written : IsName start name afterName)
      (gap : Blanks afterName opening)
      (inner : IsArguments opening arguments afterArguments)
      (behind : Blanks afterArguments brackets)
      (pairs : Pairs brackets n ending)
      (mark : Mark ending nullable rest) :
      IsType text ⟨bracketed (rootless name) n, arguments, nullable⟩ rest

/-- The text begins with arguments, or without any, and `rest` follows. -/
inductive IsArguments : List Char → List TypeRef → List Char → Prop
  | none {text} : IsArguments text [] text
  | some {text first after next others rest}
      (type : IsType text first after)
      (gap : Blanks after next)
      (more : IsMore next others ('>' :: rest)) :
      IsArguments ('<' :: text) (first :: others) rest

/-- The text begins with further arguments, each after a comma, and `rest` follows. -/
inductive IsMore : List Char → List TypeRef → List Char → Prop
  | none {text} : IsMore text [] text
  | more {text first after next others rest}
      (type : IsType text first after)
      (gap : Blanks after next)
      (more : IsMore next others rest) :
      IsMore (',' :: text) (first :: others) rest

end

/-- The whole text is a type and blanks behind it. -/
def IsText (text : List Char) (t : TypeRef) : Prop := ∃ rest, IsType text t rest ∧ Blanks rest []

/-! ### Blanks and names -/

theorem blanks_trimStart (text : List Char) : Blanks text (Text.trimStart text) := by
  have hblanks : (text.takeWhile Text.isBlank).all Text.isBlank = true := List.all_takeWhile
  exact ⟨_, List.all_eq_true.1 hblanks, List.takeWhile_append_dropWhile.symm⟩

theorem Blanks.trimStart_eq {text rest : List Char} (h : Blanks text rest) :
    Text.trimStart text = Text.trimStart rest := by
  obtain ⟨blanks, hblanks, rfl⟩ := h
  exact List.dropWhile_append_of_pos hblanks

theorem trimStart_trimStart (text : List Char) :
    Text.trimStart (Text.trimStart text) = Text.trimStart text :=
  (blanks_trimStart text).trimStart_eq.symm

/-- Two tables none of whose ranges meet have no value in common. -/
theorem mem_eq_false_of_apart {a b : Text.RangeTable}
    (h : ∀ r ∈ a, ∀ s ∈ b, r.2 < s.1 ∨ s.2 < r.1) {n : Nat} (ha : a.mem n = true) :
    b.mem n = false := by
  obtain ⟨r, hr, hrlow, hrhigh⟩ := Text.RangeTable.exists_of_mem a n ha
  cases hb : b.mem n with
  | false => rfl
  | true =>
    obtain ⟨s, hs, hslow, hshigh⟩ := Text.RangeTable.exists_of_mem b n hb
    have hapart := h r hr s hs
    omega

theorem isNameChar_of_isBlank {c : Char} (h : Text.isBlank c = true) : isNameChar c = false := by
  have halphabetic : Text.isAlphabetic c = false :=
    mem_eq_false_of_apart (by decide +kernel) h
  have hnumeric : Text.isNumeric c = false := mem_eq_false_of_apart (by decide +kernel) h
  have hne (d : Char) (hd : Text.isBlank d = false) : (c == d) = false := by
    rw [beq_eq_false_iff_ne]
    rintro rfl
    rw [h] at hd
    cases hd
  simp [isNameChar, Text.isAlphanumeric, halphabetic, hnumeric, hne '_' (by decide),
    hne '.' (by decide), hne ':' (by decide)]

theorem afterPrefix?_eq (front cs : List Char) :
    Text.afterPrefix? front cs =
      if front.isPrefixOf cs then some (cs.drop front.length) else none := by
  induction front generalizing cs with
  | nil => rfl
  | cons f front ih =>
    cases cs with
    | nil => rfl
    | cons c cs =>
      by_cases hfirst : f = c
      · simp [Text.afterPrefix?, ih, hfirst]
      · simp [Text.afterPrefix?, hfirst]

theorem withoutRootMark_eq_rootless (name : List Char) : withoutRootMark name = rootless name := by
  unfold withoutRootMark rootless
  rw [afterPrefix?_eq]
  split <;> rfl

theorem rootless_eq_nil_iff (name : List Char) :
    rootless name = [] ↔ name = [] ∨ name = rootMark := by
  unfold rootless
  split
  · rename_i hroot
    have hprefix : rootMark <+: name := List.isPrefixOf_iff_prefix.1 hroot
    obtain ⟨rest, hrest⟩ := hprefix
    have hempty : rootMark ++ rest ≠ [] := List.append_ne_nil_of_left_ne_nil (by decide) rest
    rw [← hrest, List.drop_left]
    simp [hempty]
  · rename_i hplain
    have hother : name ≠ rootMark := by
      rintro rfl
      exact hplain (by decide)
    simp [hother]

theorem Blanks.length_le {text rest : List Char} (h : Blanks text rest) :
    rest.length ≤ text.length := by
  obtain ⟨blanks, -, rfl⟩ := h
  simp

theorem Pairs.length_le {text rest : List Char} {n : Nat} (h : Pairs text n rest) :
    rest.length ≤ text.length := by
  induction h with
  | none => exact Nat.le_refl _
  | more gap behind others ih =>
    have hinner := gap.length_le
    have hafter := behind.length_le
    simp only [List.length_cons] at hinner ⊢
    omega

theorem Mark.length_le {text rest : List Char} {nullable : Bool} (h : Mark text nullable rest) :
    rest.length ≤ text.length := by
  cases h <;> simp

theorem IsName.length_lt {text name rest : List Char} (h : IsName text name rest) :
    rest.length < text.length := by
  have hname : 0 < name.length := List.length_pos_iff.2 h.nonempty
  rw [h.split, List.length_append]
  omega

mutual

theorem IsType.length_lt {text rest : List Char} {t : TypeRef} :
    IsType text t rest → rest.length < text.length
  | .intro before written gap inner behind pairs mark => by
    have hstart := before.length_le
    have hname := written.length_lt
    have hopening := gap.length_le
    have harguments := inner.length_le
    have hbrackets := behind.length_le
    have hending := pairs.length_le
    have hrest := mark.length_le
    omega

theorem IsArguments.length_le {text rest : List Char} {ts : List TypeRef} :
    IsArguments text ts rest → rest.length ≤ text.length
  | .none => Nat.le_refl _
  | .some type gap more => by
    have hafter := type.length_lt
    have hnext := gap.length_le
    have hrest := more.length_le
    simp only [List.length_cons] at hrest ⊢
    omega

theorem IsMore.length_le {text rest : List Char} {ts : List TypeRef} :
    IsMore text ts rest → rest.length ≤ text.length
  | .none => Nat.le_refl _
  | .more type gap more => by
    have hafter := type.length_lt
    have hnext := gap.length_le
    have hrest := more.length_le
    simp only [List.length_cons]
    omega

end

/-! ### What the reader accepts -/

theorem mark_questionMark (text : List Char) :
    Mark text (questionMark text).1 (questionMark text).2 := by
  unfold questionMark
  split
  · exact .present
  · exact .absent

theorem pairs_of_brackets {fuel n : Nat} {text rest : List Char}
    (h : brackets fuel text = .ok (n, rest)) : Pairs text n rest := by
  induction fuel generalizing text n with
  | zero =>
    cases h
    exact .none
  | succ fuel ih =>
    unfold brackets at h
    split at h
    · rename_i inner
      split at h
      · rename_i after hclosed
        split at h
        · rename_i m rest' hothers
          cases h
          have hgap : Blanks inner (']' :: after) := hclosed ▸ blanks_trimStart inner
          exact .more hgap (blanks_trimStart after) (ih hothers)
        · cases h
      · cases h
    · cases h
      exact .none

theorem isName_of_takeWhile {text : List Char}
    (h : (withoutRootMark (text.takeWhile isNameChar)).isEmpty = false) :
    IsName text (text.takeWhile isNameChar) (text.dropWhile isNameChar) := by
  rw [withoutRootMark_eq_rootless, List.isEmpty_eq_false_iff, ne_eq, rootless_eq_nil_iff] at h
  obtain ⟨hnonempty, hnotRoot⟩ := not_or.1 h
  have hletters : (text.takeWhile isNameChar).all isNameChar = true := List.all_takeWhile
  refine ⟨List.takeWhile_append_dropWhile.symm, hnonempty, List.all_eq_true.1 hletters, ?_,
    hnotRoot⟩
  intro c hc
  have hstop := List.head?_dropWhile_not isNameChar text
  rw [hc] at hstop
  simpa using hstop

mutual

theorem isType_of_parseType {fuel : Nat} {text rest : List Char} {t : TypeRef}
    (h : parseType fuel text = .ok (t, rest)) : IsType text t rest := by
  match fuel with
  | 0 => cases h
  | fuel + 1 =>
    unfold parseType at h
    simp only at h
    split at h
    · cases h
    · rename_i hname
      split at h
      · cases h
      · rename_i arguments afterArguments hinner
        split at h
        · cases h
        · rename_i n afterBrackets hpairs
          cases h
          rw [withoutRootMark_eq_rootless]
          exact .intro (blanks_trimStart text) (isName_of_takeWhile (by simpa using hname))
            (blanks_trimStart _) (isArguments_of_argumentList hinner) (blanks_trimStart _)
            (pairs_of_brackets hpairs) (mark_questionMark afterBrackets)

theorem isArguments_of_argumentList {fuel : Nat} {text rest : List Char} {ts : List TypeRef}
    (h : argumentList fuel text = .ok (ts, rest)) : IsArguments text ts rest := by
  match fuel with
  | 0 =>
    cases h
    exact .none
  | fuel + 1 =>
    unfold argumentList at h
    split at h
    · obtain ⟨first, others, after, next, rfl, htype, hgap, hmore⟩ := isMore_of_argumentsFrom h
      exact .some htype hgap hmore
    · cases h
      exact .none

theorem isMore_of_argumentsFrom {fuel : Nat} {text rest : List Char} {ts : List TypeRef}
    (h : argumentsFrom fuel text = .ok (ts, rest)) :
    ∃ first others after next, ts = first :: others ∧ IsType text first after ∧
      Blanks after next ∧ IsMore next others ('>' :: rest) := by
  match fuel with
  | 0 => cases h
  | fuel + 1 =>
    unfold argumentsFrom at h
    split at h
    · cases h
    · rename_i first after hfirst
      have htype := isType_of_parseType hfirst
      have hgap := blanks_trimStart after
      split at h
      · rename_i next hcomma
        split at h
        · cases h
        · rename_i others rest' hothers
          cases h
          obtain ⟨second, others', after', next', rfl, hsecond, hgap', hmore⟩ :=
            isMore_of_argumentsFrom hothers
          exact ⟨first, _, after, _, rfl, htype, hcomma ▸ hgap, .more hsecond hgap' hmore⟩
      · rename_i next hclosed
        cases h
        exact ⟨first, [], after, _, rfl, htype, hclosed ▸ hgap, .none⟩
      · cases h

end

/-! ### What the reader has to accept -/

/-- Behind blanks, only what may follow a type follows. -/
def Stops (rest : List Char) : Prop := ∀ c ∈ (Text.trimStart rest).head?, c = ',' ∨ c = '>'

theorem stops_nil : Stops [] := by simp [Stops, Text.trimStart]

theorem stops_cons {c : Char} {rest : List Char} (h : c = ',' ∨ c = '>') : Stops (c :: rest) := by
  have hblank : Text.isBlank c = false := by
    rcases h with rfl | rfl <;> decide
  intro d hd
  rw [Text.trimStart_of_not_isBlank c rest hblank] at hd
  cases hd
  exact h

theorem Blanks.stops {text rest : List Char} (h : Blanks text rest) (hrest : Stops rest) :
    Stops text := by
  unfold Stops
  rw [h.trimStart_eq]
  exact hrest

theorem IsMore.stops {text rest : List Char} {ts : List TypeRef}
    (h : IsMore text ts ('>' :: rest)) : Stops text := by
  cases h with
  | none => exact stops_cons (Or.inr rfl)
  | more type gap more => exact stops_cons (Or.inl rfl)

theorem trimStart_letters {name : List Char} (hnonempty : name ≠ [])
    (hletters : ∀ c ∈ name, isNameChar c = true) (rest : List Char) :
    Text.trimStart (name ++ rest) = name ++ rest := by
  cases name with
  | nil => exact absurd rfl hnonempty
  | cons c name =>
    have hletter := hletters c (List.mem_cons_self ..)
    refine Text.trimStart_of_not_isBlank c _ ?_
    cases hblank : Text.isBlank c with
    | false => rfl
    | true =>
      rw [isNameChar_of_isBlank hblank] at hletter
      cases hletter

theorem span_letters {name rest : List Char} (hletters : ∀ c ∈ name, isNameChar c = true)
    (hmaximal : ∀ c ∈ rest.head?, isNameChar c = false) :
    (name ++ rest).takeWhile isNameChar = name ∧ (name ++ rest).dropWhile isNameChar = rest := by
  rw [List.takeWhile_append_of_pos hletters, List.dropWhile_append_of_pos hletters]
  cases rest with
  | nil => simp
  | cons c rest =>
    have hstop : isNameChar c = false := hmaximal c rfl
    simp [hstop]

theorem IsName.trimStart {text name rest : List Char} (h : IsName text name rest) :
    Text.trimStart text = text := by
  obtain ⟨rfl, hnonempty, hletters, -, -⟩ := h
  exact trimStart_letters hnonempty hletters rest

theorem IsName.takeWhile {text name rest : List Char} (h : IsName text name rest) :
    text.takeWhile isNameChar = name ∧ text.dropWhile isNameChar = rest := by
  obtain ⟨rfl, -, hletters, hmaximal, -⟩ := h
  exact span_letters hletters hmaximal

theorem Mark.head {text rest : List Char} {nullable : Bool} (h : Mark text nullable rest)
    (hstops : Stops rest) : ∀ c ∈ (Text.trimStart text).head?, c = '?' ∨ c = ',' ∨ c = '>' := by
  intro c hc
  cases h with
  | absent => exact Or.inr (hstops c hc)
  | present =>
    cases hc
    exact Or.inl rfl

theorem Mark.no_bracket {text rest : List Char} {nullable : Bool} (h : Mark text nullable rest)
    (hstops : Stops rest) : (Text.trimStart text).head? ≠ some '[' := by
  intro hc
  rcases h.head hstops '[' hc with heq | heq | heq <;> cases heq

theorem Pairs.no_opening {text ending rest : List Char} {n : Nat} {nullable : Bool}
    (h : Pairs text n ending) (hmark : Mark ending nullable rest) (hstops : Stops rest) :
    (Text.trimStart text).head? ≠ some '<' := by
  intro hc
  cases h with
  | none => rcases hmark.head hstops '<' hc with heq | heq | heq <;> cases heq
  | more gap behind others => cases hc

theorem brackets_of_ne (fuel : Nat) {text : List Char} (h : text.head? ≠ some '[') :
    brackets fuel text = .ok (0, text) := by
  cases fuel with
  | zero => rfl
  | succ fuel =>
    unfold brackets
    split
    · exact absurd rfl h
    · rfl

theorem brackets_of_pairs {text ending : List Char} {n : Nat} (h : Pairs text n ending)
    (hending : (Text.trimStart ending).head? ≠ some '[') (fuel : Nat)
    (hfuel : text.length ≤ fuel) :
    brackets fuel (Text.trimStart text) = .ok (n, Text.trimStart ending) := by
  induction h generalizing fuel with
  | none => exact brackets_of_ne fuel hending
  | @more inner after next n ending gap behind others ih =>
    cases fuel with
    | zero => simp at hfuel
    | succ fuel =>
      have hinner : Text.trimStart inner = ']' :: after := gap.trimStart_eq
      have hshorter : next.length ≤ fuel := by
        have hafter := gap.length_le
        have hnext := behind.length_le
        simp only [List.length_cons] at hafter hfuel
        omega
      have hopen : Text.trimStart ('[' :: inner) = '[' :: inner := rfl
      rw [hopen, brackets, hinner]
      simp only
      rw [behind.trimStart_eq, ih hending fuel hshorter]

theorem questionMark_of_mark {text rest : List Char} {nullable : Bool}
    (h : Mark text nullable rest) (hstops : Stops rest) :
    ∃ rest', questionMark (Text.trimStart text) = (nullable, rest') ∧
      Text.trimStart rest' = Text.trimStart rest := by
  cases h with
  | present => exact ⟨rest, rfl, rfl⟩
  | absent =>
    refine ⟨Text.trimStart text, ?_, trimStart_trimStart text⟩
    unfold questionMark
    split
    · rename_i behind hmark
      rcases hstops '?' (by rw [hmark]; rfl) with heq | heq <;> cases heq
    · rfl

theorem argumentList_of_ne (fuel : Nat) {text : List Char} (h : text.head? ≠ some '<') :
    argumentList fuel text = .ok ([], text) := by
  cases fuel with
  | zero => rfl
  | succ fuel =>
    unfold argumentList
    split
    · exact absurd rfl h
    · rfl

-- The reader takes the blanks behind a part at once, so what it leaves agrees with the rest that
-- the grammar names only up to blanks.  Three units of fuel for each character are enough: a bracket
-- costs three calls before the next character is due.
mutual

theorem parseType_of_isType {text rest : List Char} {t : TypeRef} (h : IsType text t rest)
    (hstops : Stops rest) (fuel : Nat) (hfuel : 3 * text.length ≤ fuel) :
    ∃ rest', parseType fuel text = .ok (t, rest') ∧
      Text.trimStart rest' = Text.trimStart rest := by
  match h with
  | @IsType.intro _ start name afterName opening arguments afterArguments bracketed n ending
      nullable _ before written gap inner behind pairs mark =>
    have hbefore := before.length_le
    have hname := written.length_lt
    have hgap := gap.length_le
    have hinner := inner.length_le
    have hbehind := behind.length_le
    cases fuel with
    | zero => omega
    | succ fuel =>
      have hnoOpening : (Text.trimStart afterArguments).head? ≠ some '<' := by
        rw [behind.trimStart_eq]
        exact pairs.no_opening mark hstops
      obtain ⟨afterInner, hread, htrim⟩ :=
        argumentList_of_isArguments inner hnoOpening fuel (by omega)
      have hpairs : brackets fuel (Text.trimStart afterInner) = .ok (n, Text.trimStart ending) := by
        rw [htrim, behind.trimStart_eq]
        exact brackets_of_pairs pairs (mark.no_bracket hstops) fuel (by omega)
      obtain ⟨rest', hmark, hrest⟩ := questionMark_of_mark mark hstops
      have hnonempty : (rootless name).isEmpty = false := by
        rw [List.isEmpty_eq_false_iff, ne_eq, rootless_eq_nil_iff, not_or]
        exact ⟨written.nonempty, written.notRoot⟩
      refine ⟨rest', ?_, hrest⟩
      unfold parseType
      simp only [before.trimStart_eq, written.trimStart, written.takeWhile.1, written.takeWhile.2,
        withoutRootMark_eq_rootless, hnonempty, Bool.false_eq_true, if_false, gap.trimStart_eq,
        hread, hpairs, hmark]

theorem argumentList_of_isArguments {text rest : List Char} {ts : List TypeRef}
    (h : IsArguments text ts rest) (hrest : (Text.trimStart rest).head? ≠ some '<') (fuel : Nat)
    (hfuel : 3 * text.length + 2 ≤ fuel) :
    ∃ rest', argumentList fuel (Text.trimStart text) = .ok (ts, rest') ∧
      Text.trimStart rest' = Text.trimStart rest := by
  match h with
  | .none => exact ⟨_, argumentList_of_ne fuel hrest, trimStart_trimStart text⟩
  | .some type gap more =>
    cases fuel with
    | zero => omega
    | succ fuel =>
      cases fuel with
      | zero => omega
      | succ fuel =>
        have htype := type.length_lt
        have hgap := gap.length_le
        simp only [List.length_cons] at hfuel
        have hstops := gap.stops more.stops
        obtain ⟨after', hfirst, htrim⟩ := parseType_of_isType type hstops fuel (by omega)
        have hread := argumentsFrom_of_isMore more rfl fuel (by omega) hfirst
          (htrim.trans gap.trimStart_eq)
        exact ⟨rest, hread, rfl⟩

theorem argumentsFrom_of_isMore {next tail : List Char} {others : List TypeRef}
    (h : IsMore next others tail) {rest : List Char} (htail : tail = '>' :: rest) (fuel : Nat)
    (hfuel : 3 * next.length ≤ fuel) {text after : List Char} {first : TypeRef}
    (hfirst : parseType fuel text = .ok (first, after))
    (hgap : Text.trimStart after = Text.trimStart next) :
    argumentsFrom (fuel + 1) text = .ok (first :: others, rest) := by
  match h with
  | .none =>
    have hclosed : Text.trimStart after = '>' :: rest := by
      rw [hgap, htail]
      rfl
    unfold argumentsFrom
    simp only [hfirst, hclosed]
  | @IsMore.more text₂ second after₂ next₂ others₂ _ type gap more =>
    have hcomma : Text.trimStart after = ',' :: text₂ := hgap
    cases fuel with
    | zero => simp at hfuel
    | succ fuel =>
      have htype := type.length_lt
      have hgap₂ := gap.length_le
      simp only [List.length_cons] at hfuel
      subst htail
      have hstops := gap.stops more.stops
      obtain ⟨after', hsecond, htrim⟩ := parseType_of_isType type hstops fuel (by omega)
      have hread := argumentsFrom_of_isMore more rfl fuel (by omega) hsecond
        (htrim.trans gap.trimStart_eq)
      rw [argumentsFrom]
      simp only [hfirst, hcomma, hread]

end

/-! ### Whole texts -/

theorem isText_of_ofChars {cs : List Char} {t : TypeRef} (h : ofChars cs = .ok t) :
    IsText cs t := by
  unfold ofChars at h
  split at h
  · cases h
  · rename_i t' rest htype
    split at h
    · rename_i hend
      cases h
      exact ⟨rest, isType_of_parseType htype, hend ▸ blanks_trimStart rest⟩
    · cases h

theorem ofChars_of_isText {cs : List Char} {t : TypeRef} (h : IsText cs t) :
    ofChars cs = .ok t := by
  obtain ⟨rest, htype, hblanks⟩ := h
  have hstops : Stops rest := hblanks.stops stops_nil
  obtain ⟨rest', hread, htrim⟩ :=
    parseType_of_isType htype hstops (3 * cs.length + 3) (Nat.le_add_right ..)
  have hend : Text.trimStart rest' = [] := htrim.trans hblanks.trimStart_eq
  unfold ofChars
  simp only [hread, hend]

theorem IsText.unique {cs : List Char} {t u : TypeRef} (ht : IsText cs t) (hu : IsText cs u) :
    t = u :=
  Except.ok.inj ((ofChars_of_isText ht).symm.trans (ofChars_of_isText hu))

/-- A text is read as a tree if and only if the grammar gives it this tree, and refused if and only
if the grammar gives it none. -/
theorem parse_iff_isText (text : String) :
    (∀ t, parse text = .ok t ↔ IsText text.toList t) ∧
      ((∃ refusal, parse text = .error refusal ∧ refusal.text = text) ↔
        ¬∃ t, IsText text.toList t) := by
  have hread (t : TypeRef) : parse text = .ok t ↔ IsText text.toList t := by
    unfold parse
    constructor
    · intro h
      split at h
      · rename_i hchars
        cases h
        exact isText_of_ofChars hchars
      · cases h
    · intro h
      rw [ofChars_of_isText h]
  refine ⟨hread, ?_, ?_⟩
  · rintro ⟨refusal, hrefused, -⟩ ⟨t, ht⟩
    rw [(hread t).2 ht] at hrefused
    cases hrefused
  · intro hnone
    cases hchars : ofChars text.toList with
    | ok t => exact absurd ⟨t, isText_of_ofChars hchars⟩ hnone
    | error halt =>
      refine ⟨⟨text, halt.1, byteLength text.toList - byteLength halt.2⟩, ?_, rfl⟩
      unfold parse
      rw [hchars]

end ContentLoom.TypeRef

import ContentLoom.Proofs.TypeGrammar

/-!
# Type references character by character

A machine that takes a type reference one character at a time.  It knows how
many angle brackets are open and in which part of a type it stands.  The reader
and the machine agree on every text: where the reader has read a type, the
machine stands at the end of one, and where the reader halts, the machine has no
step.  From every point of the machine some text leads to a whole reference.
-/

namespace ContentLoom.TypeRef

/-! ### The machine -/

/-- The part of a type that was read last. -/
inductive Part where
  /-- Nothing of the type. -/
  | start
  /-- A name, perhaps not all of it. -/
  | name (letters : List Char)
  /-- A name and a blank. -/
  | named
  /-- The opening one of two array brackets. -/
  | opened
  /-- The arguments, or a pair of brackets. -/
  | closed
  /-- The question mark. -/
  | marked
deriving DecidableEq

/-- A type may end with this part. -/
def Part.Whole : Part → Prop
  | .start | .opened => False
  | .name letters => letters ≠ rootMark
  | .named | .closed | .marked => True

/-- A point in a text: the number of open arguments and the part of the innermost type. -/
structure Scan where
  depth : Nat
  part : Part
deriving DecidableEq

namespace Scan

/-- Behind a type: another argument, or the end of the arguments. -/
def afterType : Nat → Char → Option Scan
  | depth + 1, ',' => some ⟨depth + 1, .start⟩
  | depth + 1, '>' => some ⟨depth, .closed⟩
  | _, _ => none

/-- Behind all brackets: a question mark, or what follows a type. -/
def afterBrackets (depth : Nat) (c : Char) : Option Scan :=
  if c = '?' then some ⟨depth, .marked⟩ else afterType depth c

/-- Behind the arguments: a bracket, or what follows all brackets. -/
def afterArguments (depth : Nat) (c : Char) : Option Scan :=
  if c = '[' then some ⟨depth, .opened⟩ else afterBrackets depth c

/-- Behind a name: arguments, or what follows them. -/
def afterName (depth : Nat) (c : Char) : Option Scan :=
  if c = '<' then some ⟨depth + 1, .start⟩ else afterArguments depth c

/-- The point after one more character; none where no type goes on with it. -/
def step : Scan → Char → Option Scan
  | ⟨depth, .start⟩, c =>
    if Text.isBlank c then some ⟨depth, .start⟩
    else if isNameChar c then some ⟨depth, .name [c]⟩
    else none
  | ⟨depth, .name letters⟩, c =>
    if isNameChar c then some ⟨depth, .name (letters ++ [c])⟩
    else if letters = rootMark then none
    else if Text.isBlank c then some ⟨depth, .named⟩
    else afterName depth c
  | ⟨depth, .named⟩, c =>
    if Text.isBlank c then some ⟨depth, .named⟩ else afterName depth c
  | ⟨depth, .opened⟩, c =>
    if Text.isBlank c then some ⟨depth, .opened⟩
    else if c = ']' then some ⟨depth, .closed⟩
    else none
  | ⟨depth, .closed⟩, c =>
    if Text.isBlank c then some ⟨depth, .closed⟩ else afterArguments depth c
  | ⟨depth, .marked⟩, c =>
    if Text.isBlank c then some ⟨depth, .marked⟩ else afterType depth c

/-- The point before any text. -/
def initial : Scan := ⟨0, .start⟩

/-- A whole reference may end here. -/
def Final (s : Scan) : Prop := s.depth = 0 ∧ s.part.Whole

/-! ### Runs -/

/-- The machine takes the text from one point to the other up to `rest`. -/
inductive Leads : Scan → List Char → Scan → List Char → Prop
  | refl {s text} : Leads s text s text
  | step {s next s' c text rest} (now : s.step c = some next) (later : Leads next text s' rest) :
      Leads s (c :: text) s' rest

theorem Leads.trans {s₁ s₂ s₃ : Scan} {text₁ text₂ text₃ : List Char}
    (h : Leads s₁ text₁ s₂ text₂) (hmore : Leads s₂ text₂ s₃ text₃) :
    Leads s₁ text₁ s₃ text₃ := by
  induction h with
  | refl => exact hmore
  | step now later ih => exact .step now (ih hmore)

/-- What the machine took is the front of the text, and it takes this front whatever follows. -/
theorem Leads.exists_front {s s' : Scan} {text rest : List Char} (h : Leads s text s' rest) :
    ∃ front, text = front ++ rest ∧ ∀ back, Leads s (front ++ back) s' back := by
  induction h with
  | refl => exact ⟨[], rfl, fun back => .refl⟩
  | @step s next s' c text rest now later ih =>
    obtain ⟨front, rfl, htakes⟩ := ih
    exact ⟨c :: front, rfl, fun back => .step now (htakes back)⟩

/-- Where the machine has no step before the end of a text, it does not come to the end. -/
theorem Leads.no_end {s s' last : Scan} {text rest : List Char} {c : Char}
    (h : Leads s text s' (c :: rest)) (hnone : s'.step c = none) : ¬Leads s text last [] := by
  intro hend
  generalize hbehind : c :: rest = behind at h
  induction h with
  | refl =>
    subst hbehind
    cases hend with
    | step now later =>
      rw [hnone] at now
      cases now
  | step now later ih =>
    cases hend with
    | step now' later' =>
      rw [now] at now'
      cases now'
      exact ih hnone later' hbehind

theorem Leads.eq_of_end {s s₁ s₂ : Scan} {text : List Char} (h₁ : Leads s text s₁ [])
    (h₂ : Leads s text s₂ []) : s₁ = s₂ := by
  generalize hrest : ([] : List Char) = rest at h₁
  induction h₁ with
  | refl =>
    subst hrest
    cases h₂
    rfl
  | step now later ih =>
    cases h₂ with
    | step now' later' =>
      rw [now] at now'
      cases now'
      exact ih later' hrest

/-! ### Blanks and names -/

theorem head_trimStart (text : List Char) :
    ∀ c ∈ (Text.trimStart text).head?, Text.isBlank c = false := by
  intro c hc
  have hstop := List.head?_dropWhile_not Text.isBlank text
  rw [Text.trimStart] at hc
  rw [hc] at hstop
  simpa using hstop

theorem trimStart_of_solid {text : List Char} (h : ∀ c ∈ text.head?, Text.isBlank c = false) :
    Text.trimStart text = text := by
  cases text with
  | nil => rfl
  | cons c text => exact Text.trimStart_of_not_isBlank c text (h c rfl)

/-- A text that is not `d` and a rest does not begin with `d`. -/
theorem head_ne {text : List Char} {d : Char} (h : ∀ rest, text = d :: rest → False) :
    ∀ c ∈ text.head?, c ≠ d := by
  rintro c hc rfl
  obtain ⟨rest, hrest⟩ := List.head?_eq_some_iff.1 hc
  exact h rest hrest

theorem step_blank (depth : Nat) {part : Part} (hpart : ∀ letters, part ≠ .name letters) {c : Char}
    (hc : Text.isBlank c = true) : step ⟨depth, part⟩ c = some ⟨depth, part⟩ := by
  cases part with
  | name letters => exact absurd rfl (hpart letters)
  | start => rw [step, if_pos hc]
  | named => rw [step, if_pos hc]
  | opened => rw [step, if_pos hc]
  | closed => rw [step, if_pos hc]
  | marked => rw [step, if_pos hc]

/-- Outside a name, blanks are skipped. -/
theorem leads_trimStart (depth : Nat) (part : Part) (hpart : ∀ letters, part ≠ .name letters)
    (text : List Char) : Leads ⟨depth, part⟩ text ⟨depth, part⟩ (Text.trimStart text) := by
  induction text with
  | nil => exact .refl
  | cons c text ih =>
    cases hblank : Text.isBlank c with
    | true =>
      rw [Text.trimStart, List.dropWhile_cons_of_pos hblank]
      exact .step (step_blank depth hpart hblank) ih
    | false =>
      rw [Text.trimStart_of_not_isBlank c text hblank]
      exact .refl

theorem leads_letters (depth : Nat) {letters : List Char}
    (h : ∀ c ∈ letters, isNameChar c = true) (front rest : List Char) :
    Leads ⟨depth, .name front⟩ (letters ++ rest) ⟨depth, .name (front ++ letters)⟩ rest := by
  induction letters generalizing front with
  | nil =>
    rw [List.append_nil]
    exact .refl
  | cons c letters ih =>
    obtain ⟨hc, hletters⟩ := List.forall_mem_cons.1 h
    have hstep : step ⟨depth, .name front⟩ c = some ⟨depth, .name (front ++ [c])⟩ := by
      rw [step, if_pos hc]
    have hmore := ih hletters (front ++ [c])
    rw [List.append_assoc] at hmore
    exact .step hstep hmore

theorem leads_name (depth : Nat) {letters : List Char} (hnonempty : letters ≠ [])
    (h : ∀ c ∈ letters, isNameChar c = true) (rest : List Char) :
    Leads ⟨depth, .start⟩ (letters ++ rest) ⟨depth, .name letters⟩ rest := by
  cases letters with
  | nil => exact absurd rfl hnonempty
  | cons c letters =>
    obtain ⟨hc, hletters⟩ := List.forall_mem_cons.1 h
    have hsolid : Text.isBlank c = false := by
      cases hblank : Text.isBlank c with
      | false => rfl
      | true =>
        rw [isNameChar_of_isBlank hblank] at hc
        cases hc
    have hstep : step ⟨depth, .start⟩ c = some ⟨depth, .name [c]⟩ := by
      rw [step, hsolid, if_neg Bool.false_ne_true, if_pos hc]
    exact .step hstep (leads_letters depth hletters [c] rest)

/-! ### Agreement with the reader -/

/-- A type may end here, the text goes on with no blank, and with what `next` lets follow. -/
structure Awaits (s : Scan) (next : Nat → Char → Option Scan) (rest : List Char) : Prop where
  whole : s.part.Whole
  solid : ∀ c ∈ rest.head?, Text.isBlank c = false
  step : ∀ c ∈ rest.head?, s.step c = next s.depth c

/-- There is no step, and the text has not ended with a whole reference. -/
structure Stuck (s : Scan) (rest : List Char) : Prop where
  unfinished : rest = [] → ¬s.Final
  noStep : ∀ c ∈ rest.head?, s.step c = none

/-- The machine goes with a reader from `s`: to a part that fits what was read and has `next` behind
it and behind blanks, or to where the reader halts, and is stuck there. -/
def GoesWith {α : Type} (s : Scan) (text : List Char) (depth : Nat)
    (next : Nat → Char → Option Scan) (fits : α → Part → Prop) :
    Except Halt (α × List Char) → Prop
  | .ok (value, rest) => ∃ part, fits value part ∧
      Leads s text ⟨depth, part⟩ (Text.trimStart rest) ∧
      Awaits ⟨depth, part⟩ next (Text.trimStart rest)
  | .error (_, rest) => ∃ s', Leads s text s' rest ∧ Stuck s' rest

theorem GoesWith.of_leads {α : Type} {s s' : Scan} {text text' : List Char} {depth : Nat}
    {next : Nat → Char → Option Scan} {fits : α → Part → Prop}
    {read : Except Halt (α × List Char)} (h : Leads s text s' text')
    (hread : GoesWith s' text' depth next fits read) : GoesWith s text depth next fits read := by
  cases read with
  | ok reading =>
    obtain ⟨part, hfits, hleads, hawaits⟩ := hread
    exact ⟨part, hfits, h.trans hleads, hawaits⟩
  | error halt =>
    obtain ⟨s'', hleads, hstuck⟩ := hread
    exact ⟨s'', h.trans hleads, hstuck⟩

/-- Where the text does not begin with an optional part, what may follow that part may follow. -/
theorem Awaits.absent {s : Scan} {next behind : Nat → Char → Option Scan} {text : List Char}
    (h : Awaits s next text) (hsame : ∀ c ∈ text.head?, next s.depth c = behind s.depth c) :
    Leads s text s (Text.trimStart text) ∧ Awaits s behind (Text.trimStart text) := by
  rw [trimStart_of_solid h.solid]
  exact ⟨.refl, h.whole, h.solid, fun c hc => (h.step c hc).trans (hsame c hc)⟩

theorem leads_awaits (depth : Nat) (part : Part) {next : Nat → Char → Option Scan}
    (hpart : ∀ letters, part ≠ .name letters) (hwhole : part.Whole)
    (hstep : ∀ c, Text.isBlank c = false → step ⟨depth, part⟩ c = next depth c)
    (text : List Char) :
    Leads ⟨depth, part⟩ text ⟨depth, part⟩ (Text.trimStart text) ∧
      Awaits ⟨depth, part⟩ next (Text.trimStart text) :=
  ⟨leads_trimStart depth part hpart text, hwhole, head_trimStart text,
    fun c hc => hstep c (head_trimStart text c hc)⟩

theorem leads_named (depth : Nat) (text : List Char) :
    Leads ⟨depth, .named⟩ text ⟨depth, .named⟩ (Text.trimStart text) ∧
      Awaits ⟨depth, .named⟩ afterName (Text.trimStart text) := by
  refine leads_awaits depth .named nofun True.intro (fun c hc => ?_) text
  rw [step, hc, if_neg Bool.false_ne_true]

theorem leads_closed (depth : Nat) (text : List Char) :
    Leads ⟨depth, .closed⟩ text ⟨depth, .closed⟩ (Text.trimStart text) ∧
      Awaits ⟨depth, .closed⟩ afterArguments (Text.trimStart text) := by
  refine leads_awaits depth .closed nofun True.intro (fun c hc => ?_) text
  rw [step, hc, if_neg Bool.false_ne_true]

theorem leads_marked (depth : Nat) (text : List Char) :
    Leads ⟨depth, .marked⟩ text ⟨depth, .marked⟩ (Text.trimStart text) ∧
      Awaits ⟨depth, .marked⟩ afterType (Text.trimStart text) := by
  refine leads_awaits depth .marked nofun True.intro (fun c hc => ?_) text
  rw [step, hc, if_neg Bool.false_ne_true]

theorem stuck_opened (depth : Nat) {text : List Char}
    (h : ∀ rest, Text.trimStart text = ']' :: rest → False) :
    Stuck ⟨depth, .opened⟩ (Text.trimStart text) := by
  refine ⟨fun _ hfinal => hfinal.2, fun c hc => ?_⟩
  rw [step, head_trimStart text c hc, if_neg Bool.false_ne_true, if_neg (head_ne h c hc)]

/-- Behind a name that is whole, blanks are skipped. -/
theorem leads_behind_name {depth : Nat} {letters : List Char} (hroot : letters ≠ rootMark)
    {text : List Char} (hmaximal : ∀ c ∈ text.head?, isNameChar c = false) :
    ∃ part, Leads ⟨depth, .name letters⟩ text ⟨depth, part⟩ (Text.trimStart text) ∧
      Awaits ⟨depth, part⟩ afterName (Text.trimStart text) := by
  cases text with
  | nil => exact ⟨.name letters, .refl, hroot, nofun, nofun⟩
  | cons c text =>
    have hstop : isNameChar c = false := hmaximal c rfl
    cases hblank : Text.isBlank c with
    | false =>
      rw [Text.trimStart_of_not_isBlank c text hblank]
      refine ⟨.name letters, .refl, hroot, fun d hd => ?_, fun d hd => ?_⟩
      · cases hd
        exact hblank
      · cases hd
        rw [step, hstop, if_neg Bool.false_ne_true, if_neg hroot, hblank, if_neg Bool.false_ne_true]
    | true =>
      have hnow : step ⟨depth, .name letters⟩ c = some ⟨depth, .named⟩ := by
        rw [step, hstop, if_neg Bool.false_ne_true, if_neg hroot, if_pos hblank]
      have htrim : Text.trimStart (c :: text) = Text.trimStart text :=
        List.dropWhile_cons_of_pos hblank
      obtain ⟨hlater, hawaits⟩ := leads_named depth text
      rw [htrim]
      exact ⟨.named, .step hnow hlater, hawaits⟩

/-! ### Optional parts -/

theorem trimStart_of_brackets {fuel n : Nat} {text rest : List Char}
    (h : brackets fuel text = .ok (n, rest)) (htext : Text.trimStart text = text) :
    Text.trimStart rest = rest := by
  induction fuel generalizing text n with
  | zero =>
    cases h
    exact htext
  | succ fuel ih =>
    unfold brackets at h
    split at h
    · split at h
      · split at h
        · rename_i hothers
          cases h
          exact ih hothers (trimStart_trimStart _)
        · cases h
      · cases h
    · cases h
      exact htext

theorem goesWith_brackets {depth : Nat} {part : Part} {text : List Char}
    (h : Awaits ⟨depth, part⟩ afterArguments text) (fuel : Nat) (hfuel : text.length ≤ fuel) :
    GoesWith ⟨depth, part⟩ text depth afterBrackets (fun _ _ => True) (brackets fuel text) := by
  induction fuel generalizing text part with
  | zero =>
    obtain rfl := List.length_eq_zero_iff.1 (Nat.le_zero.1 hfuel)
    exact ⟨part, True.intro, .refl, h.whole, nofun, nofun⟩
  | succ fuel ih =>
    unfold brackets
    split
    · rename_i inner
      have hopen : step ⟨depth, part⟩ '[' = some ⟨depth, .opened⟩ := h.step '[' rfl
      have hinner : Leads ⟨depth, part⟩ ('[' :: inner) ⟨depth, .opened⟩ (Text.trimStart inner) :=
        .step hopen (leads_trimStart depth .opened nofun inner)
      split
      · rename_i rest hclosed
        have hclose : step ⟨depth, .opened⟩ ']' = some ⟨depth, .closed⟩ := rfl
        have hshorter : (Text.trimStart rest).length ≤ fuel := by
          have hgap := (blanks_trimStart inner).length_le
          have hbehind := (blanks_trimStart rest).length_le
          rw [hclosed] at hgap
          simp only [List.length_cons] at hgap hfuel
          omega
        obtain ⟨hblanks, hawaits⟩ := leads_closed depth rest
        have hmore := (ih hawaits hshorter).of_leads hblanks
        rw [hclosed] at hinner
        have hall := hmore.of_leads (hinner.trans (.step hclose .refl))
        cases hothers : brackets fuel (Text.trimStart rest) with
        | ok reading =>
          rw [hothers] at hall
          exact hall
        | error halt =>
          rw [hothers] at hall
          exact hall
      · rename_i hopened
        exact ⟨⟨depth, .opened⟩, hinner, stuck_opened depth hopened⟩
    · rename_i hnone
      exact ⟨part, True.intro, h.absent fun c hc => if_neg (head_ne hnone c hc)⟩

/-- The question mark, if there is one, and the blanks behind it. -/
theorem leads_questionMark {depth : Nat} {part : Part} {text : List Char}
    (h : Awaits ⟨depth, part⟩ afterBrackets text) :
    ∃ last, ((questionMark text).1 = true → last = .marked) ∧
      Leads ⟨depth, part⟩ text ⟨depth, last⟩ (Text.trimStart (questionMark text).2) ∧
      Awaits ⟨depth, last⟩ afterType (Text.trimStart (questionMark text).2) := by
  unfold questionMark
  split
  · rename_i rest
    have hmark : step ⟨depth, part⟩ '?' = some ⟨depth, .marked⟩ := h.step '?' rfl
    obtain ⟨hblanks, hawaits⟩ := leads_marked depth rest
    exact ⟨.marked, fun _ => rfl, .step hmark hblanks, hawaits⟩
  · rename_i hnone
    exact ⟨part, nofun, h.absent fun c hc => if_neg (head_ne hnone c hc)⟩

/-! ### Missing names -/

theorem stuck_no_name (depth : Nat) {text : List Char}
    (h : text.takeWhile isNameChar = [])
    (hsolid : ∀ c ∈ text.head?, Text.isBlank c = false) : Stuck ⟨depth, .start⟩ text := by
  refine ⟨fun _ hfinal => hfinal.2, fun c hc => ?_⟩
  obtain ⟨rest, rfl⟩ := List.head?_eq_some_iff.1 hc
  have hstop : ¬isNameChar c = true := by
    intro hletter
    rw [List.takeWhile_cons_of_pos hletter] at h
    cases h
  rw [step, hsolid c rfl, if_neg Bool.false_ne_true, if_neg hstop]

theorem stuck_root (depth : Nat) {text : List Char}
    (hmaximal : ∀ c ∈ text.head?, isNameChar c = false) :
    Stuck ⟨depth, .name rootMark⟩ text := by
  refine ⟨fun _ hfinal => hfinal.2 rfl, fun c hc => ?_⟩
  rw [step, hmaximal c hc, if_neg Bool.false_ne_true, if_pos rfl]

/-- Where a name is missing, there is none or it is the mark of the root. -/
theorem stuck_of_no_name (depth : Nat) {text : List Char}
    (h : (withoutRootMark ((Text.trimStart text).takeWhile isNameChar)).isEmpty = true) :
    ∃ s, Leads ⟨depth, .start⟩ text s ((Text.trimStart text).dropWhile isNameChar) ∧
      Stuck s ((Text.trimStart text).dropWhile isNameChar) := by
  have hblanks : Leads ⟨depth, .start⟩ text ⟨depth, .start⟩ (Text.trimStart text) :=
    leads_trimStart depth .start nofun text
  have hsplit : (Text.trimStart text).takeWhile isNameChar ++
      (Text.trimStart text).dropWhile isNameChar = Text.trimStart text :=
    List.takeWhile_append_dropWhile
  rw [withoutRootMark_eq_rootless, List.isEmpty_iff, rootless_eq_nil_iff] at h
  rcases h with hnone | hroot
  · rw [hnone, List.nil_append] at hsplit
    rw [hsplit]
    exact ⟨⟨depth, .start⟩, hblanks, stuck_no_name depth hnone (head_trimStart text)⟩
  · rw [hroot] at hsplit
    have hnonempty : rootMark ≠ [] := by decide
    have hletters : ∀ c ∈ rootMark, isNameChar c = true := List.all_eq_true.1 (by decide +kernel)
    have hname := leads_name depth hnonempty hletters
      ((Text.trimStart text).dropWhile isNameChar)
    rw [hsplit] at hname
    refine ⟨⟨depth, .name rootMark⟩, hblanks.trans hname, stuck_root depth fun c hc => ?_⟩
    have hstop := List.head?_dropWhile_not isNameChar (Text.trimStart text)
    rw [hc] at hstop
    simpa using hstop

/-! ### Types -/

-- The recursion is that of the reader.  The bounds on the fuel are those under which the reader
-- accepts what it has to: three units for each character.
mutual

theorem goesWith_parseType (depth fuel : Nat) (text : List Char) (hfuel : 3 * text.length ≤ fuel) :
    GoesWith ⟨depth, .start⟩ text depth afterType
      (fun t part => t.nullable = true → part = .marked) (parseType fuel text) := by
  match fuel with
  | 0 =>
    obtain rfl := List.length_eq_zero_iff.1 (show text.length = 0 by omega)
    exact ⟨⟨depth, .start⟩, .refl, fun _ hfinal => hfinal.2, nofun⟩
  | fuel + 1 =>
    unfold parseType
    simp only
    split
    · rename_i hnone
      exact stuck_of_no_name depth hnone
    · rename_i hname
      have hblanks : Leads ⟨depth, .start⟩ text ⟨depth, .start⟩ (Text.trimStart text) :=
        leads_trimStart depth .start nofun text
      have hwritten : IsName (Text.trimStart text) ((Text.trimStart text).takeWhile isNameChar)
          ((Text.trimStart text).dropWhile isNameChar) := isName_of_takeWhile (by simpa using hname)
      have hletters := leads_name depth hwritten.nonempty hwritten.letters
        ((Text.trimStart text).dropWhile isNameChar)
      rw [← hwritten.split] at hletters
      obtain ⟨part, hgap, hawaits⟩ := leads_behind_name hwritten.notRoot hwritten.maximal
      have hroom : 3 * (Text.trimStart ((Text.trimStart text).dropWhile isNameChar)).length + 2 ≤
          fuel := by
        have hstart := (blanks_trimStart text).length_le
        have hrest := hwritten.length_lt
        have hgap := (blanks_trimStart ((Text.trimStart text).dropWhile isNameChar)).length_le
        omega
      have harguments := (goesWith_argumentList hawaits fuel hroom).of_leads
        ((hblanks.trans hletters).trans hgap)
      split
      · rename_i halt hread
        rw [hread] at harguments
        exact harguments
      · rename_i arguments afterInner hread
        rw [hread] at harguments
        obtain ⟨behind, -, hinner, hbehind⟩ := harguments
        have hshorter : (Text.trimStart afterInner).length ≤ fuel := by
          have hlength := (isArguments_of_argumentList hread).length_le
          have hgap := (blanks_trimStart afterInner).length_le
          omega
        have hbrackets := (goesWith_brackets hbehind fuel hshorter).of_leads hinner
        split
        · rename_i halt hpairs
          rw [hpairs] at hbrackets
          exact hbrackets
        · rename_i n afterPairs hpairs
          rw [hpairs] at hbrackets
          obtain ⟨paired, -, hleads, hpaired⟩ := hbrackets
          rw [trimStart_of_brackets hpairs (trimStart_trimStart afterInner)] at hleads hpaired
          obtain ⟨last, hmark, hend, hlast⟩ := leads_questionMark hpaired
          exact ⟨last, hmark, hleads.trans hend, hlast⟩

theorem goesWith_argumentList {depth : Nat} {part : Part} {text : List Char}
    (h : Awaits ⟨depth, part⟩ afterName text) (fuel : Nat) (hfuel : 3 * text.length + 2 ≤ fuel) :
    GoesWith ⟨depth, part⟩ text depth afterArguments (fun _ _ => True)
      (argumentList fuel text) := by
  match fuel with
  | 0 => omega
  | fuel + 1 =>
    unfold argumentList
    split
    · rename_i rest
      have hopen : step ⟨depth, part⟩ '<' = some ⟨depth + 1, .start⟩ := h.step '<' rfl
      have hroom : 3 * rest.length + 1 ≤ fuel := by
        rw [List.length_cons] at hfuel
        omega
      exact (goesWith_argumentsFrom depth fuel rest hroom).of_leads (.step hopen .refl)
    · rename_i hnone
      exact ⟨part, True.intro, h.absent fun c hc => if_neg (head_ne hnone c hc)⟩

theorem goesWith_argumentsFrom (depth fuel : Nat) (text : List Char)
    (hfuel : 3 * text.length + 1 ≤ fuel) :
    GoesWith ⟨depth + 1, .start⟩ text depth afterArguments (fun _ _ => True)
      (argumentsFrom fuel text) := by
  match fuel with
  | 0 => omega
  | fuel + 1 =>
    unfold argumentsFrom
    have hfirst := goesWith_parseType (depth + 1) fuel text (by omega)
    split
    · rename_i halt hread
      rw [hread] at hfirst
      exact hfirst
    · rename_i argument rest hread
      rw [hread] at hfirst
      obtain ⟨part, -, hleads, hawaits⟩ := hfirst
      have hshorter := (isType_of_parseType hread).length_lt
      have hgap := (blanks_trimStart rest).length_le
      split
      · rename_i next hcomma
        rw [hcomma] at hleads hawaits hgap
        have hnext : step ⟨depth + 1, part⟩ ',' = some ⟨depth + 1, .start⟩ := hawaits.step ',' rfl
        have hroom : 3 * next.length + 1 ≤ fuel := by
          rw [List.length_cons] at hgap
          omega
        have hmore := (goesWith_argumentsFrom depth fuel next hroom).of_leads
          (hleads.trans (.step hnext .refl))
        cases hothers : argumentsFrom fuel next with
        | ok reading =>
          rw [hothers] at hmore
          exact hmore
        | error halt =>
          rw [hothers] at hmore
          exact hmore
      · rename_i behind hclosed
        rw [hclosed] at hleads hawaits
        have hclose : step ⟨depth + 1, part⟩ '>' = some ⟨depth, .closed⟩ := hawaits.step '>' rfl
        obtain ⟨hblanks, hready⟩ := leads_closed depth behind
        exact ⟨.closed, True.intro, (hleads.trans (.step hclose .refl)).trans hblanks, hready⟩
      · rename_i hcomma hclosed
        refine ⟨⟨depth + 1, part⟩, hleads, fun _ hfinal => absurd hfinal.1 (Nat.succ_ne_zero depth),
          fun c hc => ?_⟩
        have hneComma := head_ne hcomma c hc
        have hneClosed := head_ne hclosed c hc
        rw [hawaits.step c hc]
        unfold afterType
        split
        · exact absurd rfl hneComma
        · exact absurd rfl hneClosed
        · rfl

end

/-! ### Whole texts -/

/-- The reader has read a reference: the machine is at its end, and behind a question mark where the
reference has one. -/
theorem leads_of_ofChars {text : List Char} {t : TypeRef} (h : ofChars text = .ok t) :
    ∃ part, Leads initial text ⟨0, part⟩ [] ∧ part.Whole ∧
      (t.nullable = true → part = .marked) := by
  have hread := goesWith_parseType 0 (3 * text.length + 3) text (Nat.le_add_right ..)
  unfold ofChars at h
  split at h
  · cases h
  · rename_i u rest htype
    rw [htype] at hread
    obtain ⟨part, hmark, hleads, hawaits⟩ := hread
    split at h
    · rename_i hend
      cases h
      rw [hend] at hleads
      exact ⟨part, hleads, hawaits.whole, hmark⟩
    · cases h

/-- The reader has halted: the machine is stuck there. -/
theorem stuck_of_ofChars {text rest : List Char} {expected : Expected}
    (h : ofChars text = .error (expected, rest)) :
    ∃ s, Leads initial text s rest ∧ Stuck s rest := by
  have hread := goesWith_parseType 0 (3 * text.length + 3) text (Nat.le_add_right ..)
  unfold ofChars at h
  split at h
  · rename_i halt htype
    cases h
    rw [htype] at hread
    exact hread
  · rename_i u behind htype
    rw [htype] at hread
    obtain ⟨part, -, hleads, hawaits⟩ := hread
    split at h
    · cases h
    · rename_i hmore
      cases h
      exact ⟨⟨0, part⟩, hleads, fun hend => absurd hend hmore, fun c hc => hawaits.step c hc⟩

/-- A text is a reference if and only if the machine comes to its end where a reference may end. -/
theorem accepts_iff (text : List Char) :
    (∃ t, ofChars text = .ok t) ↔ ∃ s, Leads initial text s [] ∧ s.Final := by
  constructor
  · rintro ⟨t, ht⟩
    obtain ⟨part, hleads, hwhole, -⟩ := leads_of_ofChars ht
    exact ⟨⟨0, part⟩, hleads, rfl, hwhole⟩
  · rintro ⟨last, hlast, hfinal⟩
    cases hread : ofChars text with
    | ok t => exact ⟨t, rfl⟩
    | error halt =>
      obtain ⟨s, hleads, hstuck⟩ := stuck_of_ofChars hread
      cases hrest : halt.2 with
      | nil =>
        rw [hrest] at hleads hstuck
        rw [hleads.eq_of_end hlast] at hstuck
        exact absurd hfinal (hstuck.unfinished rfl)
      | cons c rest =>
        rw [hrest] at hleads hstuck
        exact absurd hlast (hleads.no_end (hstuck.noStep c rfl))

/-! ### Completions -/

theorem step_closing {depth : Nat} {part : Part} (h : part.Whole) :
    step ⟨depth + 1, part⟩ '>' = some ⟨depth, .closed⟩ := by
  cases part with
  | start => exact absurd h id
  | opened => exact absurd h id
  | name letters =>
    have hstop : ¬isNameChar '>' = true := by decide
    have hsolid : ¬Text.isBlank '>' = true := by decide
    rw [step, if_neg hstop, if_neg h, if_neg hsolid]
    rfl
  | named => rfl
  | closed => rfl
  | marked => rfl

/-- The open arguments can be closed behind a whole type. -/
theorem exists_leads_final (depth : Nat) {part : Part} (h : part.Whole) :
    ∃ back s, Leads ⟨depth, part⟩ back s [] ∧ s.Final := by
  induction depth generalizing part with
  | zero => exact ⟨[], ⟨0, part⟩, .refl, rfl, h⟩
  | succ depth ih =>
    have hclosed : Part.closed.Whole := True.intro
    obtain ⟨back, s, hleads, hfinal⟩ := ih hclosed
    exact ⟨'>' :: back, s, .step (step_closing h) hleads, hfinal⟩

/-- At each point one character or none makes the type whole. -/
theorem exists_leads_whole (s : Scan) :
    ∃ front part, part.Whole ∧ ∀ back, Leads s (front ++ back) ⟨s.depth, part⟩ back := by
  obtain ⟨depth, part⟩ := s
  have hletter : isNameChar 'T' = true := by decide +kernel
  cases part with
  | start =>
    have hstep : step ⟨depth, .start⟩ 'T' = some ⟨depth, .name ['T']⟩ := by
      rw [step, if_neg (by decide), if_pos hletter]
    have hwhole : ['T'] ≠ rootMark := by decide
    exact ⟨['T'], .name ['T'], hwhole, fun back => .step hstep .refl⟩
  | name letters =>
    by_cases hroot : letters = rootMark
    · subst hroot
      have hstep : step ⟨depth, .name rootMark⟩ 'T' = some ⟨depth, .name (rootMark ++ ['T'])⟩ := by
        rw [step, if_pos hletter]
      have hwhole : rootMark ++ ['T'] ≠ rootMark := by decide
      exact ⟨['T'], .name (rootMark ++ ['T']), hwhole, fun back => .step hstep .refl⟩
    · exact ⟨[], .name letters, hroot, fun back => .refl⟩
  | opened => exact ⟨[']'], .closed, True.intro, fun back => .step rfl .refl⟩
  | named => exact ⟨[], .named, True.intro, fun back => .refl⟩
  | closed => exact ⟨[], .closed, True.intro, fun back => .refl⟩
  | marked => exact ⟨[], .marked, True.intro, fun back => .refl⟩

/-- From every point some text leads to the end of a reference. -/
theorem exists_completion (s : Scan) : ∃ back last, Leads s back last [] ∧ last.Final := by
  obtain ⟨front, part, hwhole, hfront⟩ := exists_leads_whole s
  obtain ⟨back, last, hback, hfinal⟩ := exists_leads_final s.depth hwhole
  exact ⟨front ++ back, last, (hfront back).trans hback, hfinal⟩

end Scan

end ContentLoom.TypeRef

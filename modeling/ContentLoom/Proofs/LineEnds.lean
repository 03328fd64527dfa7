import ContentLoom.Code.Literal
import ContentLoom.Code.Writing

/-!
# Line ends in code

A reader of code begins a new line at five characters, of which the writer puts
one behind each line.  So the lines read are the lines written exactly where no
text of a line has any of the five.  A literal has an escape for two of them; the
others it keeps as they are in its text.
-/

namespace ContentLoom.Code

/-! ### Texts on one line -/

/-- The line ends for which a literal has no escape. -/
def rawEnds : List Char := ['\u0085', '\u2028', '\u2029']

/-- The characters at which a reader of code begins a new line. -/
def lineEnds : List Char := '\n' :: '\r' :: rawEnds

/-- Whether a character ends a line. -/
def isLineEnd (c : Char) : Bool := lineEnds.contains c

/-- Whether a character ends a line and stands for itself in a literal. -/
def isRawEnd (c : Char) : Bool := rawEnds.contains c

/-- Characters of a kind to which no line end belongs are no line ends. -/
theorem not_lineEnd_of_all {p : Char → Bool} (hends : (lineEnds.all fun e => !p e) = true)
    {c : Char} (h : p c = true) : isLineEnd c = false := by
  refine Bool.eq_false_iff.2 fun hend => ?_
  have hother := List.all_eq_true.1 hends c (List.contains_iff_mem.1 hend)
  rw [h] at hother
  cases hother

theorem isLineEnd_of_isRawEnd {c : Char} (h : isRawEnd c = true) : isLineEnd c = true := by
  simp only [isLineEnd, isRawEnd, lineEnds, List.contains_iff_mem, List.mem_cons] at h ⊢
  exact Or.inr (Or.inr h)

/-- The text is on one line. -/
def OneLine (s : String) : Prop := ∀ c ∈ s.toList, isLineEnd c = false

instance (s : String) : Decidable (OneLine s) :=
  decidable_of_iff (s.toList.all (!isLineEnd ·) = true) (by simp [OneLine])

/-- A literal of the text is on one line. -/
def Quotable (s : String) : Prop := ∀ c ∈ s.toList, isRawEnd c = false

instance (s : String) : Decidable (Quotable s) :=
  decidable_of_iff (s.toList.all (!isRawEnd ·) = true) (by simp [Quotable])

@[simp] theorem oneLine_append {s t : String} : OneLine (s ++ t) ↔ OneLine s ∧ OneLine t := by
  simp only [OneLine, String.toList_append, List.forall_mem_append]

theorem quotable_append {s t : String} : Quotable (s ++ t) ↔ Quotable s ∧ Quotable t := by
  simp only [Quotable, String.toList_append, List.forall_mem_append]

theorem OneLine.quotable {s : String} (h : OneLine s) : Quotable s := by
  refine fun c hc => Bool.eq_false_iff.2 fun hraw => ?_
  have hend := isLineEnd_of_isRawEnd hraw
  rw [h c hc] at hend
  cases hend

theorem oneLine_intercalate {between : String} {ts : List String} (hbetween : OneLine between)
    (hts : ∀ t ∈ ts, OneLine t) : OneLine (between.intercalate ts) := by
  induction ts with
  | nil => exact fun c hc => nomatch hc
  | cons t ts ih =>
    obtain ⟨ht, hrest⟩ := List.forall_mem_cons.1 hts
    cases ts with
    | nil => rwa [String.intercalate_singleton]
    | cons u ts =>
      rw [String.intercalate_cons_cons]
      exact oneLine_append.2 ⟨oneLine_append.2 ⟨ht, hbetween⟩, ih hrest⟩

/-! ### Printable texts -/

/-- Whether a character is one of the printable characters of ASCII. -/
def isPrintable (c : Char) : Bool := Nat.ble 32 c.toNat && Nat.ble c.toNat 126

/-- The text is made of the printable characters of ASCII. -/
def Printable (s : String) : Prop := s.toList.all isPrintable = true

/-- A text that is written out is given with its characters: none is decoded from its bytes. -/
theorem Printable.of_eq {s : String} {cs : List Char} (hs : s = String.ofList cs)
    (hcs : cs.all isPrintable = true) : Printable s := by
  rwa [Printable, hs, String.toList_ofList]

@[simp] theorem Printable.oneLine {s : String} (h : Printable s) : OneLine s := by
  have hends : (lineEnds.all fun e => !isPrintable e) = true := by decide
  exact fun c hc => not_lineEnd_of_all hends (List.all_eq_true.1 h c hc)

theorem oneLine_of_eq {s : String} {cs : List Char} (hs : s = String.ofList cs)
    (hcs : cs.all isPrintable = true) : OneLine s := (Printable.of_eq hs hcs).oneLine

/-! ### Literals -/

/-- The characters for which a literal has an escape. -/
def escaped : List Char := ['"', '\\', '\n', '\r', '\t', '\x00']

theorem escape_of_not_mem {c : Char} (h : c ∉ escaped) : escape c = [c] := by
  simp only [escaped, List.mem_cons, List.not_mem_nil, or_false, not_or] at h
  simp only [escape, h, if_false]

theorem filter_escape (c : Char) : (escape c).filter isLineEnd = [c].filter isRawEnd := by
  by_cases hescaped : c ∈ escaped
  · have hall : (escaped.all fun e =>
        (escape e).filter isLineEnd == [e].filter isRawEnd) = true := by decide
    exact eq_of_beq (List.all_eq_true.1 hall c hescaped)
  · have hkept : isLineEnd c = isRawEnd c := by
      simp only [escaped, List.mem_cons, not_or] at hescaped
      simp [isLineEnd, isRawEnd, lineEnds, hescaped]
    rw [escape_of_not_mem hescaped, List.filter_cons, List.filter_cons, hkept]
    rfl

/-- The line ends in a literal are those of its text that have no escape. -/
theorem filter_literal (s : String) :
    (literal s).toList.filter isLineEnd = s.toList.filter isRawEnd := by
  have hquote : ['"'].filter isLineEnd = [] := by decide
  have hbody (cs : List Char) : (cs.flatMap escape).filter isLineEnd = cs.filter isRawEnd := by
    induction cs with
    | nil => rfl
    | cons c cs ih =>
      rw [List.flatMap_cons, List.filter_append, filter_escape, ih, ← List.filter_append,
        List.singleton_append]
  rw [literal, String.toList_ofList, literalChars, ← List.singleton_append, List.filter_append,
    List.filter_append, hquote, hbody, List.nil_append, List.append_nil]

theorem oneLine_iff_filter {s : String} : OneLine s ↔ s.toList.filter isLineEnd = [] := by
  simp only [OneLine, List.filter_eq_nil_iff, Bool.not_eq_true]

theorem quotable_iff_filter {s : String} : Quotable s ↔ s.toList.filter isRawEnd = [] := by
  simp only [Quotable, List.filter_eq_nil_iff, Bool.not_eq_true]

theorem oneLine_literal {s : String} : OneLine (literal s) ↔ Quotable s := by
  rw [oneLine_iff_filter, filter_literal, quotable_iff_filter]

/-! ### Lines written and lines read -/

namespace Write

/-- The text of an operation that writes one. -/
@[simp]
def text : Write → String
  | line text => text
  | openBlock header => header
  | closeBlock text => text
  | _ => ""

/-- A line as it stands in the code, without its end. -/
def placed (depth : Nat) (text : String) : List Char :=
  if text.isEmpty then [] else indentation depth ++ text.toList

/-- The lines that an operation writes at a depth. -/
def linesAt (depth : Nat) : Write → List (List Char)
  | line text => [placed depth text]
  | blank => [[]]
  | openBlock header =>
    (if header.isEmpty then [] else [placed depth header]) ++ [placed depth openBrace]
  | closeBlock text => [placed (depth - 1) text]
  | indent => []
  | dedent => []

theorem lineChars_eq (depth : Nat) (text : String) :
    lineChars depth text = placed depth text ++ ['\n'] := by
  unfold lineChars placed
  split <;> simp

theorem chars_eq (depth : Nat) (w : Write) :
    w.chars depth = (w.linesAt depth).flatMap (· ++ ['\n']) := by
  cases w with
  | openBlock header =>
    by_cases hempty : header.isEmpty = true <;> simp [chars, linesAt, hempty, lineChars_eq]
  | _ => simp [chars, linesAt, lineChars_eq]

end Write

/-- The lines that some operations write from a depth on. -/
def linesFrom : Nat → List Write → List (List Char)
  | _, [] => []
  | depth, w :: ws => w.linesAt depth ++ linesFrom (w.depthAfter depth) ws

/-- Where a reader ends a line one was written: the lines read are those written, and nothing
stands behind the last. -/
def Unbroken (ws : List Write) : Prop :=
  (render ws).toList.splitOnP isLineEnd = linesFrom 0 ws ++ [[]]

/-- The lines without an end in them, each with one behind it, are read back. -/
theorem splitOnP_lines {ls : List (List Char)} (h : ∀ l ∈ ls, ∀ c ∈ l, isLineEnd c = false) :
    (ls.flatMap (· ++ ['\n'])).splitOnP isLineEnd = ls ++ [[]] := by
  induction ls with
  | nil => exact List.splitOnP_nil
  | cons l ls ih =>
    obtain ⟨hl, hrest⟩ := List.forall_mem_cons.1 h
    have hend : isLineEnd '\n' = true := by decide
    rw [List.flatMap_cons, List.append_assoc, List.singleton_append,
      List.splitOnP_append_cons _ _ hend, List.splitOnP_eq_singleton hl, ih hrest]
    rfl

/-- No line that is read has a line end in it. -/
theorem not_lineEnd_of_mem_splitOnP {cs l : List Char} (hl : l ∈ cs.splitOnP isLineEnd) :
    ∀ c ∈ l, isLineEnd c = false := by
  induction cs generalizing l with
  | nil =>
    rw [List.splitOnP_nil, List.mem_singleton] at hl
    subst hl
    exact fun c hc => nomatch hc
  | cons c cs ih =>
    rw [List.splitOnP_cons_eq_if_modifyHead] at hl
    split at hl
    · rcases List.mem_cons.1 hl with rfl | hl
      · exact fun c hc => nomatch hc
      · exact ih hl
    · rename_i hc
      obtain ⟨first, rest, hread⟩ := List.exists_cons_of_ne_nil (List.splitOnP_ne_nil isLineEnd cs)
      rw [hread] at ih hl
      rcases List.mem_cons.1 hl with rfl | hl
      · exact List.forall_mem_cons.2 ⟨Bool.not_eq_true _ ▸ hc, ih (List.mem_cons_self ..)⟩
      · exact ih (List.mem_cons_of_mem _ hl)

theorem renderChars_eq (depth : Nat) (ws : List Write) :
    renderChars depth ws = (linesFrom depth ws).flatMap (· ++ ['\n']) := by
  induction ws generalizing depth with
  | nil => rfl
  | cons w ws ih => rw [renderChars, linesFrom, List.flatMap_append, ← ih, Write.chars_eq]

theorem unbroken_iff_linesFrom (ws : List Write) :
    Unbroken ws ↔ ∀ l ∈ linesFrom 0 ws, ∀ c ∈ l, isLineEnd c = false := by
  rw [Unbroken, render, String.toList_ofList]
  constructor
  · intro h l hl
    have hread : l ∈ (renderChars 0 ws).splitOnP isLineEnd := by
      rw [h]
      exact List.mem_append_left _ hl
    exact not_lineEnd_of_mem_splitOnP hread
  · intro h
    rw [renderChars_eq, splitOnP_lines h]

/-! ### Code whose texts are on one line -/

/-- The texts of all operations are on one line. -/
def OneLineTexts (ws : List Write) : Prop := ∀ w ∈ ws, OneLine w.text

instance (ws : List Write) : Decidable (OneLineTexts ws) :=
  inferInstanceAs (Decidable (∀ w ∈ ws, OneLine w.text))

theorem oneLine_placed {depth : Nat} {text : String} :
    (∀ c ∈ Write.placed depth text, isLineEnd c = false) ↔ OneLine text := by
  have hspaces : ∀ c ∈ Write.indentation depth, isLineEnd c = false := by
    intro c hc
    rw [List.eq_of_mem_replicate hc]
    decide
  unfold Write.placed
  split
  · rename_i hempty
    rw [String.isEmpty_iff] at hempty
    subst hempty
    exact iff_of_true (fun c hc => nomatch hc) (by decide)
  · rw [List.forall_mem_append]
    exact and_iff_right hspaces

theorem oneLine_linesAt (depth : Nat) (w : Write) :
    (∀ l ∈ w.linesAt depth, ∀ c ∈ l, isLineEnd c = false) ↔ OneLine w.text := by
  have hempty : OneLine "" := by decide
  cases w with
  | line text => simp [Write.linesAt, Write.text, oneLine_placed]
  | blank => simp [Write.linesAt, Write.text, hempty]
  | openBlock header =>
    have hbrace : OneLine openBrace := by decide
    by_cases hheader : header.isEmpty = true
    · have hnone : header = "" := String.isEmpty_iff.1 hheader
      simp [Write.linesAt, Write.text, oneLine_placed, hbrace, hnone, hempty]
    · simp [Write.linesAt, Write.text, oneLine_placed, hbrace, hheader]
  | closeBlock text => simp [Write.linesAt, Write.text, oneLine_placed]
  | indent => simp [Write.linesAt, Write.text, hempty]
  | dedent => simp [Write.linesAt, Write.text, hempty]

theorem oneLine_linesFrom (depth : Nat) (ws : List Write) :
    (∀ l ∈ linesFrom depth ws, ∀ c ∈ l, isLineEnd c = false) ↔ OneLineTexts ws := by
  induction ws generalizing depth with
  | nil => exact iff_of_true (fun l hl => nomatch hl) (fun w hw => nomatch hw)
  | cons w ws ih =>
    rw [linesFrom, List.forall_mem_append, oneLine_linesAt, ih, OneLineTexts, OneLineTexts,
      List.forall_mem_cons]

/-- The lines read are the lines written exactly where all texts are on one line. -/
theorem unbroken_iff (ws : List Write) : Unbroken ws ↔ OneLineTexts ws :=
  (unbroken_iff_linesFrom ws).trans (oneLine_linesFrom 0 ws)

instance (ws : List Write) : Decidable (Unbroken ws) := decidable_of_iff' _ (unbroken_iff ws)

example : ¬Unbroken [.line (literal "a\u2028b")] ∧ Unbroken [.line (literal "a\r\nb")] := by decide

section Pieces

-- below, the words of the code are written out: the discharger of `simp` shows them printable

variable {ws vs : List Write}

@[simp] theorem oneLineTexts_nil : OneLineTexts [] ↔ True := by simp [OneLineTexts]

@[simp] theorem oneLineTexts_cons {w : Write} :
    OneLineTexts (w :: ws) ↔ OneLine w.text ∧ OneLineTexts ws := List.forall_mem_cons

@[simp] theorem oneLineTexts_append :
    OneLineTexts (ws ++ vs) ↔ OneLineTexts ws ∧ OneLineTexts vs := List.forall_mem_append

@[simp] theorem oneLineTexts_ite {p : Prop} [Decidable p] :
    OneLineTexts (if p then ws else vs) ↔ if p then OneLineTexts ws else OneLineTexts vs := by
  split <;> rfl

theorem oneLineTexts_flatMap {α : Type} {xs : List α} {f : α → List Write} :
    OneLineTexts (xs.flatMap f) ↔ ∀ x ∈ xs, OneLineTexts (f x) := List.forall_mem_flatMap

theorem oneLineTexts_map {α : Type} {xs : List α} {f : α → Write} :
    OneLineTexts (xs.map f) ↔ ∀ x ∈ xs, OneLine (f x).text := List.forall_mem_map

@[simp] theorem oneLineTexts_lines {ts : List String} :
    OneLineTexts (lines ts) ↔ ∀ t ∈ ts, OneLine t := oneLineTexts_map

@[simp] theorem oneLineTexts_usings {namespaces : List String} :
    OneLineTexts (usings namespaces) ↔ ∀ n ∈ namespaces, OneLine n := by
  simp (disch := exact Printable.of_eq rfl rfl) only [usings, oneLineTexts_map, Write.text,
    oneLine_append, Printable.oneLine, true_and, and_true]

@[simp] theorem oneLineTexts_namespaceOf {name : String} :
    OneLineTexts (namespaceOf name) ↔ OneLine name := by
  simp (disch := exact Printable.of_eq rfl rfl) only [namespaceOf, oneLineTexts_cons,
    oneLineTexts_nil, Write.text, oneLine_append, Printable.oneLine, true_and, and_true]

@[simp] theorem oneLineTexts_summary {text : String} :
    OneLineTexts (summary text) ↔ OneLine text := by
  simp (disch := exact Printable.of_eq rfl rfl) only [summary, oneLineTexts_cons,
    oneLineTexts_nil, Write.text, oneLine_append, Printable.oneLine, true_and, and_true]

@[simp] theorem oneLineTexts_blockWith {ending header : String} :
    OneLineTexts (blockWith ending header ws) ↔
      OneLine header ∧ OneLineTexts ws ∧ OneLine ending := by
  simp only [blockWith, oneLineTexts_cons, oneLineTexts_append, oneLineTexts_nil, Write.text,
    and_true]

@[simp] theorem oneLineTexts_block {header : String} :
    OneLineTexts (block header ws) ↔ OneLine header ∧ OneLineTexts ws := by
  simp (disch := exact Printable.of_eq rfl rfl) only [block, oneLineTexts_blockWith,
    Printable.oneLine, and_true]

@[simp] theorem oneLineTexts_indented : OneLineTexts (indented ws) ↔ OneLineTexts ws := by
  simp (disch := exact Printable.of_eq rfl rfl) only [indented, oneLineTexts_cons,
    oneLineTexts_append, oneLineTexts_nil, Write.text, Printable.oneLine, true_and, and_true]

@[simp] theorem oneLineTexts_fileHead : OneLineTexts fileHead ↔ True := by
  simp (disch := exact Printable.of_eq rfl rfl) only [fileHead, lines, List.map_cons, List.map_nil,
    oneLineTexts_cons, oneLineTexts_nil, Write.text, Printable.oneLine, and_self]

@[simp] theorem oneLineTexts_file {used : List String} {ns : String} :
    OneLineTexts (file used ns ws) ↔ (∀ n ∈ used, OneLine n) ∧ OneLine ns ∧ OneLineTexts ws := by
  simp (disch := exact Printable.of_eq rfl rfl) only [file, oneLineTexts_append,
    oneLineTexts_fileHead, oneLineTexts_usings, oneLineTexts_ite, oneLineTexts_cons, oneLineTexts_nil,
    oneLineTexts_namespaceOf, Write.text, Printable.oneLine, ite_self, true_and]

@[simp] theorem oneLine_settable {head : String} : OneLine (settable head) ↔ OneLine head := by
  simp (disch := exact Printable.of_eq rfl rfl) only [settable, oneLine_append, Printable.oneLine,
    and_true]

@[simp] theorem oneLine_readable {head : String} : OneLine (readable head) ↔ OneLine head := by
  simp (disch := exact Printable.of_eq rfl rfl) only [readable, oneLine_append, Printable.oneLine,
    and_true]

end Pieces

end ContentLoom.Code

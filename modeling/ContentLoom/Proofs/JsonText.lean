import ContentLoom.Proofs.NumeralText
import ContentLoom.Proofs.StringText

/-!
# The text of JSON values

The compact and the pretty form differ in the spaces between their parts only,
and the reader passes over these.  It reads the text of a value as the document
that shows the value, where its integers have 64 bits and not too many
containers enclose one another; only a floating-point number can be read as
another.
-/

namespace ContentLoom.Json

/-! ### Spaces -/

/-- The characters may stand between the parts of a text. -/
def Space (cs : List Char) : Prop := ∀ c ∈ cs, c = ' ' ∨ c = '\n' ∨ c = '\t' ∨ c = '\r'

/-- What stands before each item and member of a level, and after a colon. -/
structure Spacing where
  line : Nat → List Char
  afterColon : List Char
  line_space : ∀ level, Space (line level)
  afterColon_space : Space afterColon

namespace Spacing

/-- No space at all. -/
def tight : Spacing where
  line _ := []
  afterColon := []
  line_space _ := nofun
  afterColon_space := nofun

/-- A line for each item and member. -/
def lines : Spacing where
  line := lineBreak
  afterColon := [' ']
  line_space level := by
    intro c hc
    rcases List.mem_cons.1 hc with rfl | hc
    · exact Or.inr (Or.inl rfl)
    · exact Or.inl (List.mem_replicate.1 hc).2
  afterColon_space := by
    intro c hc
    exact Or.inl (List.mem_singleton.1 hc)

end Spacing

/-! ### Spaced text -/

mutual

/-- The characters of a value at a level. -/
def spacedChars (s : Spacing) (level : Nat) : Json → List Char
  | .arr [] => ['[', ']']
  | .obj [] => ['{', '}']
  | .arr (item :: items) =>
    '[' :: (spacedItems s (level + 1) (item :: items) ++ s.line level ++ [']'])
  | .obj (member :: members) =>
    '{' :: (spacedMembers s (level + 1) (member :: members) ++ s.line level ++ ['}'])
  | .null => "null".toList
  | .bool true => "true".toList
  | .bool false => "false".toList
  | .int n => (toString n).toList
  | .float x => (floatText x).toList
  | .str t => quoted t

/-- Items with commas between them. -/
def spacedItems (s : Spacing) (level : Nat) : List Json → List Char
  | [] => []
  | [item] => s.line level ++ spacedChars s level item
  | item :: second :: rest =>
    s.line level ++ spacedChars s level item ++ ',' :: spacedItems s level (second :: rest)

/-- Members with commas between them. -/
def spacedMembers (s : Spacing) (level : Nat) : List (String × Json) → List Char
  | [] => []
  | [(name, value)] =>
    s.line level ++ quoted name ++ ':' :: (s.afterColon ++ spacedChars s level value)
  | (name, value) :: second :: rest =>
    s.line level ++ quoted name ++ ':' :: (s.afterColon ++ spacedChars s level value) ++
      ',' :: spacedMembers s level (second :: rest)

end

mutual

theorem compactChars_eq (level : Nat) (j : Json) :
    j.compactChars = spacedChars .tight level j := by
  cases j with
  | null => rfl
  | bool b => cases b <;> rfl
  | int n => rfl
  | float x => rfl
  | str t => rfl
  | arr items =>
    cases items with
    | nil => rfl
    | cons item items =>
      have hitems := compactItems_eq (level + 1) (item :: items)
      simp [compactChars, spacedChars, hitems, Spacing.tight]
  | obj members =>
    cases members with
    | nil => rfl
    | cons member members =>
      have hmembers := compactMembers_eq (level + 1) (member :: members)
      simp [compactChars, spacedChars, hmembers, Spacing.tight]

theorem compactItems_eq (level : Nat) (js : List Json) :
    compactItems js = spacedItems .tight level js := by
  match js with
  | [] => rfl
  | [item] =>
    have hitem := compactChars_eq level item
    simp [compactItems, spacedItems, hitem, Spacing.tight]
  | item :: second :: rest =>
    have hitem := compactChars_eq level item
    have hrest := compactItems_eq level (second :: rest)
    simp [compactItems, spacedItems, hitem, hrest, Spacing.tight]

theorem compactMembers_eq (level : Nat) (js : List (String × Json)) :
    compactMembers js = spacedMembers .tight level js := by
  match js with
  | [] => rfl
  | [(name, value)] =>
    have hvalue := compactChars_eq level value
    simp [compactMembers, spacedMembers, hvalue, Spacing.tight]
  | (name, value) :: second :: rest =>
    have hvalue := compactChars_eq level value
    have hrest := compactMembers_eq level (second :: rest)
    simp [compactMembers, spacedMembers, hvalue, hrest, Spacing.tight]

end

mutual

theorem prettyChars_eq (level : Nat) (j : Json) :
    j.prettyChars level = spacedChars .lines level j := by
  cases j with
  | null => rfl
  | bool b => cases b <;> rfl
  | int n => rfl
  | float x => rfl
  | str t => rfl
  | arr items =>
    cases items with
    | nil => rfl
    | cons item items =>
      have hitems := prettyItems_eq (level + 1) (item :: items)
      simp [prettyChars, spacedChars, hitems, Spacing.lines]
  | obj members =>
    cases members with
    | nil => rfl
    | cons member members =>
      have hmembers := prettyMembers_eq (level + 1) (member :: members)
      simp [prettyChars, spacedChars, hmembers, Spacing.lines]

theorem prettyItems_eq (level : Nat) (js : List Json) :
    prettyItems level js = spacedItems .lines level js := by
  match js with
  | [] => rfl
  | [item] =>
    have hitem := prettyChars_eq level item
    simp [prettyItems, spacedItems, hitem, Spacing.lines]
  | item :: second :: rest =>
    have hitem := prettyChars_eq level item
    have hrest := prettyItems_eq level (second :: rest)
    simp [prettyItems, spacedItems, hitem, hrest, Spacing.lines]

theorem prettyMembers_eq (level : Nat) (js : List (String × Json)) :
    prettyMembers level js = spacedMembers .lines level js := by
  match js with
  | [] => rfl
  | [(name, value)] =>
    have hvalue := prettyChars_eq level value
    simp [prettyMembers, spacedMembers, hvalue, Spacing.lines]
  | (name, value) :: second :: rest =>
    have hvalue := prettyChars_eq level value
    have hrest := prettyMembers_eq level (second :: rest)
    simp [prettyMembers, spacedMembers, hvalue, hrest, Spacing.lines]

end

/-! ### What a text can carry -/

mutual

/-- Integers have 64 bits, the names of an object are distinct, and at most `room` containers
enclose one another. -/
def Fits : Json → Nat → Prop
  | .int n, _ => Numeral.Fits64 n
  | .arr items, room => 0 < room ∧ ItemsFit items (room - 1)
  | .obj members, room =>
    0 < room ∧ (members.map Prod.fst).Nodup ∧ MembersFit members (room - 1)
  | .null, _ => True
  | .bool _, _ => True
  | .float _, _ => True
  | .str _, _ => True

/-- All items fit. -/
def ItemsFit : List Json → Nat → Prop
  | [], _ => True
  | j :: js, room => Fits j room ∧ ItemsFit js room

/-- The values of all members fit. -/
def MembersFit : List (String × Json) → Nat → Prop
  | [], _ => True
  | (_, j) :: js, room => Fits j room ∧ MembersFit js room

end

theorem itemsFit_iff (js : List Json) (room : Nat) :
    ItemsFit js room ↔ ∀ j ∈ js, j.Fits room := by
  induction js with
  | nil => simp [ItemsFit]
  | cons j js ih => simp [ItemsFit, ih]

theorem membersFit_iff (js : List (String × Json)) (room : Nat) :
    MembersFit js room ↔ ∀ e ∈ js, e.2.Fits room := by
  induction js with
  | nil => simp [MembersFit]
  | cons e js ih =>
    obtain ⟨name, j⟩ := e
    simp [MembersFit, ih]

theorem fits_arr {α : Type} {write : α → Json} {xs : List α} {room : Nat} (hroom : 0 < room)
    (h : ∀ x ∈ xs, (write x).Fits (room - 1)) : (Json.arr (xs.map write)).Fits room :=
  ⟨hroom, (itemsFit_iff _ _).2 (List.forall_mem_map.2 h)⟩

theorem fits_entries {α : Type} {write : α → Json} {es : Entries α} {room : Nat} (hroom : 0 < room)
    (hnodup : es.names.Nodup) (h : ∀ e ∈ es, (write e.2).Fits (room - 1)) :
    (Json.obj (es.map fun e => (e.1, write e.2))).Fits room := by
  refine ⟨hroom, ?_, (membersFit_iff _ _).2 (List.forall_mem_map.2 h)⟩
  rw [List.map_map]
  exact hnodup

namespace Document

/-! ### What a text is read as -/

/-- The document that a numeral is read as. -/
def ofNumeral (n : Numeral) : Document :=
  match n.toJson? with
  | some (.int n) => .int n
  | some (.float x) => .float x
  | _ => .fault true

mutual

/-- The document that the text of a value is read as. -/
def streamed : Json → Document
  | .null => .null
  | .bool b => .bool b
  | .int n => .int n
  | .float x => ofNumeral (.ofFloat x)
  | .str t => .str t
  | .arr items => .arr (streamedItems items) (.closed .streamed)
  | .obj members => .obj (streamedMembers members) (.closed .streamed)

/-- The documents of items. -/
def streamedItems : List Json → List Document
  | [] => []
  | j :: js => streamed j :: streamedItems js

/-- The documents of members. -/
def streamedMembers : List (String × Json) → List (String × Document)
  | [] => []
  | (k, j) :: js => (k, streamed j) :: streamedMembers js

end

theorem streamedItems_eq_map (js : List Json) : streamedItems js = js.map streamed := by
  induction js with
  | nil => rfl
  | cons j js ih => rw [streamedItems, ih, List.map_cons]

theorem streamedMembers_eq_map (js : List (String × Json)) :
    streamedMembers js = js.map fun e => (e.1, streamed e.2) := by
  induction js with
  | nil => rfl
  | cons e js ih =>
    obtain ⟨name, j⟩ := e
    rw [streamedMembers, ih, List.map_cons]

/-! ### Skipping -/

theorem skipSpace_append {gap : List Char} (h : Space gap) (cs : List Char) :
    skipSpace (gap ++ cs) = skipSpace cs := by
  apply List.dropWhile_append_of_pos
  intro c hc
  simpa [or_assoc] using h c hc

theorem skipSpace_skipSpace (cs : List Char) : skipSpace (skipSpace cs) = skipSpace cs := by
  have hfront : Space (cs.takeWhile fun c => c = ' ' || c = '\n' || c = '\t' || c = '\r') := by
    intro c hc
    have hspace := List.all_eq_true.1 List.all_takeWhile c hc
    simpa [or_assoc] using hspace
  have hsplit : cs.takeWhile _ ++ skipSpace cs = cs := List.takeWhile_append_dropWhile
  rw [← skipSpace_append hfront, hsplit]

/-- A character that is no space. -/
def Solid (c : Char) : Prop := c ≠ ' ' ∧ c ≠ '\n' ∧ c ≠ '\t' ∧ c ≠ '\r'

instance : DecidablePred Solid := fun c =>
  inferInstanceAs (Decidable (c ≠ ' ' ∧ c ≠ '\n' ∧ c ≠ '\t' ∧ c ≠ '\r'))

theorem skipSpace_cons {c : Char} (h : Solid c) (cs : List Char) :
    skipSpace (c :: cs) = c :: cs := by
  obtain ⟨hblank, hline, htab, hreturn⟩ := h
  simp [skipSpace, hblank, hline, htab, hreturn]

theorem skipSpace_gap {gap : List Char} (hgap : Space gap) {c : Char} (hc : Solid c)
    (cs : List Char) : skipSpace (gap ++ c :: cs) = c :: cs := by
  rw [skipSpace_append hgap, skipSpace_cons hc]

theorem readValue_skipSpace (fuel depth : Nat) (cs : List Char) :
    readValue fuel depth (skipSpace cs) = readValue fuel depth cs := by
  cases fuel with
  | zero => rw [readValue, readValue]
  | succ fuel => rw [readValue, readValue, skipSpace_skipSpace]

theorem readValue_gap (fuel depth : Nat) {gap : List Char} (h : Space gap) (cs : List Char) :
    readValue fuel depth (gap ++ cs) = readValue fuel depth cs := by
  rw [← readValue_skipSpace, skipSpace_append h, readValue_skipSpace]

theorem readItems_skipSpace (fuel depth : Nat) (cs : List Char) :
    readItems fuel depth (skipSpace cs) = readItems fuel depth cs := by
  cases fuel with
  | zero => rw [readItems, readItems]
  | succ fuel => rw [readItems, readItems, readValue_skipSpace]

theorem readMembers_skipSpace (fuel depth : Nat) (cs : List Char) :
    readMembers fuel depth (skipSpace cs) = readMembers fuel depth cs := by
  cases fuel with
  | zero => rw [readMembers, readMembers]
  | succ fuel => rw [readMembers, readMembers, skipSpace_skipSpace]

/-! ### Beginnings -/

/-- A character with which the text of a value begins. -/
def Begins (c : Char) : Prop :=
  c = '"' ∨ c = '[' ∨ c = '{' ∨ c = 'n' ∨ c = 't' ∨ c = 'f' ∨ c = '-' ∨ c.isDigit = true

theorem Begins.solid {c : Char} (h : Begins c) : Solid c ∧ c ≠ ']' := by
  have hdigit (d : Char) (hd : d.isDigit = false) (hc : c.isDigit = true) : c ≠ d := by
    rintro rfl
    rw [hd] at hc
    cases hc
  rcases h with rfl | rfl | rfl | rfl | rfl | rfl | rfl | h
  · exact ⟨by decide, by decide⟩
  · exact ⟨by decide, by decide⟩
  · exact ⟨by decide, by decide⟩
  · exact ⟨by decide, by decide⟩
  · exact ⟨by decide, by decide⟩
  · exact ⟨by decide, by decide⟩
  · exact ⟨by decide, by decide⟩
  · exact ⟨⟨hdigit ' ' rfl h, hdigit '\n' rfl h, hdigit '\t' rfl h, hdigit '\r' rfl h⟩,
      hdigit ']' rfl h⟩

theorem begins_chars {n : Numeral} (h : n.WellFormed) :
    ∃ c cs, n.chars = c :: cs ∧ Begins c ∧ (c = '-' ∨ c.isDigit = true) := by
  obtain ⟨c, cs, hchars, hc⟩ := Numeral.exists_cons_chars h
  refine ⟨c, cs, hchars, ?_, hc⟩
  unfold Begins
  rcases hc with rfl | hc
  · decide
  · simp [hc]

theorem begins_spacedChars (s : Spacing) (level : Nat) (j : Json) :
    ∃ c cs, spacedChars s level j = c :: cs ∧ Begins c := by
  have hnumeral {n : Numeral} (h : n.WellFormed) : ∃ c cs, n.chars = c :: cs ∧ Begins c := by
    obtain ⟨c, cs, hchars, hc, -⟩ := begins_chars h
    exact ⟨c, cs, hchars, hc⟩
  cases j with
  | null => exact ⟨'n', _, rfl, by unfold Begins; decide⟩
  | bool b => cases b with
    | false => exact ⟨'f', _, rfl, by unfold Begins; decide⟩
    | true => exact ⟨'t', _, rfl, by unfold Begins; decide⟩
  | int n =>
    rw [spacedChars, ← Numeral.chars_ofInt]
    exact hnumeral (Numeral.wellFormed_ofInt n)
  | float x =>
    rw [spacedChars, ← Numeral.chars_ofFloat]
    exact hnumeral (Numeral.wellFormed_ofFloat x)
  | str t => exact ⟨'"', _, rfl, Or.inl rfl⟩
  | arr items =>
    cases items with
    | nil => exact ⟨'[', _, rfl, Or.inr (Or.inl rfl)⟩
    | cons item items => exact ⟨'[', _, rfl, Or.inr (Or.inl rfl)⟩
  | obj members =>
    cases members with
    | nil => exact ⟨'{', _, rfl, Or.inr (Or.inr (Or.inl rfl))⟩
    | cons member members => exact ⟨'{', _, rfl, Or.inr (Or.inr (Or.inl rfl))⟩

/-! ### Reading -/

theorem readValue_numeral {n : Numeral} (h : n.WellFormed) {rest : List Char}
    (hrest : Numeral.Ends rest) (fuel depth : Nat) :
    readValue (fuel + 1) depth (n.chars ++ rest) = (ofNumeral n, some rest) := by
  obtain ⟨c, cs, hchars, hbegins, hfirst⟩ := begins_chars h
  have hscan := Numeral.scan_chars h hrest
  rw [hchars, List.cons_append] at hscan ⊢
  have hne (d : Char) (hminus : d ≠ '-') (hdigit : d.isDigit = false) : c ≠ d := by
    rintro rfl
    rcases hfirst with hc | hc
    · exact hminus hc
    · rw [hdigit] at hc
      cases hc
  rw [readValue, skipSpace_cons hbegins.solid.1]
  split
  · rename_i heq
    exact absurd (List.cons.inj heq).1 (hne '"' (by decide) (by decide))
  · rename_i heq
    exact absurd (List.cons.inj heq).1 (hne '[' (by decide) (by decide))
  · rename_i heq
    exact absurd (List.cons.inj heq).1 (hne '{' (by decide) (by decide))
  · rename_i heq
    exact absurd (List.cons.inj heq).1 (hne 'n' (by decide) (by decide))
  · rename_i heq
    exact absurd (List.cons.inj heq).1 (hne 't' (by decide) (by decide))
  · rename_i heq
    exact absurd (List.cons.inj heq).1 (hne 'f' (by decide) (by decide))
  · rw [hscan]
    simp only
    unfold ofNumeral
    split <;> simp_all

theorem ends_cons {c : Char} (h : c = ',' ∨ c = ']' ∨ c = '}') (rest : List Char) :
    Numeral.Ends (c :: rest) := by
  intro d hd
  cases hd
  rcases h with rfl | rfl | rfl <;> decide

theorem ends_append {gap rest : List Char} (hgap : Space gap) (hrest : Numeral.Ends rest) :
    Numeral.Ends (gap ++ rest) := by
  cases gap with
  | nil => exact hrest
  | cons c gap =>
    intro d hd
    cases hd
    rcases hgap c (List.mem_cons_self ..) with rfl | rfl | rfl | rfl <;> decide

theorem begins_spacedItems (s : Spacing) (level : Nat) (item : Json) (items : List Json) :
    ∃ gap c cs, spacedItems s level (item :: items) = gap ++ c :: cs ∧ Space gap ∧ Begins c := by
  obtain ⟨c, cs, hchars, hc⟩ := begins_spacedChars s level item
  cases items with
  | nil => exact ⟨s.line level, c, cs, by rw [spacedItems, hchars], s.line_space level, hc⟩
  | cons second rest =>
    refine ⟨s.line level, c, cs ++ ',' :: spacedItems s level (second :: rest), ?_,
      s.line_space level, hc⟩
    rw [spacedItems, hchars, List.append_assoc, List.cons_append]

theorem begins_spacedMembers (s : Spacing) (level : Nat) (member : String × Json)
    (members : List (String × Json)) :
    ∃ gap cs, spacedMembers s level (member :: members) = gap ++ '"' :: cs ∧ Space gap := by
  obtain ⟨name, value⟩ := member
  cases members with
  | nil =>
    refine ⟨s.line level, (name.toList.flatMap escape ++ ['"']) ++
      ':' :: (s.afterColon ++ spacedChars s level value), ?_, s.line_space level⟩
    rw [spacedMembers, quoted, List.append_assoc, List.cons_append]
  | cons second rest =>
    refine ⟨s.line level, (name.toList.flatMap escape ++ ['"']) ++
      (':' :: (s.afterColon ++ spacedChars s level value) ++
        ',' :: spacedMembers s level (second :: rest)), ?_, s.line_space level⟩
    rw [spacedMembers, quoted, List.append_assoc, List.append_assoc, List.cons_append]

theorem readValue_arr {fuel depth : Nat} {cs rest : List Char} {items : List Document}
    (hdepth : depth < nestingLimit) (hopen : ∀ after, skipSpace cs ≠ ']' :: after)
    (hitems : readItems fuel (depth + 1) cs = (items, .closed .streamed, some rest)) :
    readValue (fuel + 1) depth ('[' :: cs) = (.arr items (.closed .streamed), some rest) := by
  have hbracket : Solid '[' := by decide
  rw [readValue, skipSpace_cons hbracket]
  simp only [readItems_skipSpace, hitems, withinLimit, if_pos hdepth]

theorem readValue_obj {fuel depth : Nat} {cs rest : List Char}
    {members : List (String × Document)} (hdepth : depth < nestingLimit)
    (hopen : ∀ after, skipSpace cs ≠ '}' :: after)
    (hmembers : readMembers fuel (depth + 1) cs = (members, .closed .streamed, some rest)) :
    readValue (fuel + 1) depth ('{' :: cs) = (.obj members (.closed .streamed), some rest) := by
  have hbrace : Solid '{' := by decide
  rw [readValue, skipSpace_cons hbrace]
  simp only [readMembers_skipSpace, hmembers, withinLimit, if_pos hdepth]

theorem readValue_arr_nil {fuel depth : Nat} (rest : List Char) (hdepth : depth < nestingLimit) :
    readValue (fuel + 1) depth ('[' :: ']' :: rest) = (.arr [] (.closed .streamed), some rest) := by
  have hopening : Solid '[' := by decide
  have hbracket : Solid ']' := by decide
  rw [readValue]
  simp only [skipSpace_cons hopening, skipSpace_cons hbracket, withinLimit, if_pos hdepth]

theorem readValue_obj_nil {fuel depth : Nat} (rest : List Char) (hdepth : depth < nestingLimit) :
    readValue (fuel + 1) depth ('{' :: '}' :: rest) = (.obj [] (.closed .streamed), some rest) := by
  have hopening : Solid '{' := by decide
  have hbrace : Solid '}' := by decide
  rw [readValue]
  simp only [skipSpace_cons hopening, skipSpace_cons hbrace, withinLimit, if_pos hdepth]

/-- Items do not begin with the bracket that closes them. -/
theorem skipSpace_spacedItems_ne (s : Spacing) (level : Nat) (item : Json) (items : List Json)
    (rest after : List Char) :
    skipSpace (spacedItems s level (item :: items) ++ rest) ≠ ']' :: after := by
  intro heq
  obtain ⟨gap, d, ds, hchars, hgap, hd⟩ := begins_spacedItems s level item items
  rw [hchars, List.append_assoc, List.cons_append, skipSpace_gap hgap hd.solid.1] at heq
  exact hd.solid.2 (List.cons.inj heq).1

/-- Members begin with a name, and so not with the brace that closes them. -/
theorem skipSpace_spacedMembers_ne (s : Spacing) (level : Nat) (member : String × Json)
    (members : List (String × Json)) (rest after : List Char) :
    skipSpace (spacedMembers s level (member :: members) ++ rest) ≠ '}' :: after := by
  have hquote : Solid '"' := by decide
  intro heq
  obtain ⟨gap, ds, hchars, hgap⟩ := begins_spacedMembers s level member members
  rw [hchars, List.append_assoc, List.cons_append, skipSpace_gap hgap hquote] at heq
  exact absurd (List.cons.inj heq).1 (by decide)

theorem readMembers_last {fuel depth : Nat} {gap after cs rest : List Char} {name : String}
    {value : Document} (hgap : Space gap) (hafter : Space after)
    (hvalue : readValue fuel depth cs = (value, some (after ++ '}' :: rest))) :
    readMembers (fuel + 1) depth (gap ++ (quoted name ++ ':' :: cs)) =
      ([(name, value)], .closed .streamed, some rest) := by
  have hquote : Solid '"' := by decide
  have hcolon : Solid ':' := by decide
  have hbrace : Solid '}' := by decide
  rw [readMembers, quoted, List.cons_append, skipSpace_gap hgap hquote, List.append_assoc,
    List.singleton_append]
  simp only [readString_quoted, skipSpace_cons hcolon, hvalue, skipSpace_gap hafter hbrace]

theorem readMembers_next {fuel depth : Nat} {gap cs rest : List Char} {name : String}
    {value : Document} (hgap : Space gap)
    (hvalue : readValue fuel depth cs = (value, some (',' :: rest))) :
    readMembers (fuel + 1) depth (gap ++ (quoted name ++ ':' :: cs)) =
      match readMembers fuel depth rest with
      | (members, stop, rest) => ((name, value) :: members, stop, rest) := by
  have hquote : Solid '"' := by decide
  have hcolon : Solid ':' := by decide
  have hcomma : Solid ',' := by decide
  rw [readMembers, quoted, List.cons_append, skipSpace_gap hgap hquote, List.append_assoc,
    List.singleton_append]
  simp only [readString_quoted, skipSpace_cons hcolon, hvalue, skipSpace_cons hcomma]

-- Two units of fuel for each character are enough: a bracket, a comma or a colon stands between two
-- values, and each of these costs one call beside that of the value.
mutual

theorem readValue_spaced (s : Spacing) (j : Json) (level room depth fuel : Nat) {rest : List Char}
    (hfits : j.Fits room) (hroom : room + depth ≤ nestingLimit) (hrest : Numeral.Ends rest)
    (hfuel : 2 * (spacedChars s level j).length ≤ fuel) :
    readValue fuel depth (spacedChars s level j ++ rest) = (streamed j, some rest) := by
  obtain ⟨c, cs, hbegin, -⟩ := begins_spacedChars s level j
  obtain ⟨fuel, rfl⟩ : ∃ f, fuel = f + 1 := by
    rw [hbegin, List.length_cons] at hfuel
    exact ⟨fuel - 1, by omega⟩
  have hquote : Solid '"' := by decide
  match j with
  | .null => rfl
  | .bool true => rfl
  | .bool false => rfl
  | .int n =>
    rw [spacedChars, ← Numeral.chars_ofInt,
      readValue_numeral (Numeral.wellFormed_ofInt n) hrest, ofNumeral, Numeral.toJson?_ofInt hfits]
    rfl
  | .float x =>
    rw [spacedChars, ← Numeral.chars_ofFloat,
      readValue_numeral (Numeral.wellFormed_ofFloat x) hrest]
    rfl
  | .str t =>
    rw [spacedChars, quoted, List.cons_append, List.append_assoc, List.singleton_append, readValue,
      skipSpace_cons hquote]
    simp only [readString_quoted]
    rfl
  | .arr [] =>
    have hpos := hfits.1
    rw [spacedChars, List.cons_append, List.cons_append, List.nil_append,
      readValue_arr_nil rest (by omega)]
    rfl
  | .arr (item :: items) =>
    obtain ⟨hpos, hitems⟩ := hfits
    have hdepth : depth < nestingLimit := by omega
    have hlength : 2 * (spacedItems s (level + 1) (item :: items)).length + 1 ≤ fuel := by
      simp only [spacedChars, List.length_cons, List.length_append, List.length_nil] at hfuel
      omega
    have hread := readItems_spaced s (item :: items) (level + 1) (room - 1) (depth + 1) fuel rest
      (by simp) hitems (by omega) (s.line_space level) hlength
    rw [spacedChars, List.cons_append, List.append_assoc, List.append_assoc, List.singleton_append,
      streamed]
    exact readValue_arr hdepth (skipSpace_spacedItems_ne s (level + 1) item items _) hread
  | .obj [] =>
    have hpos := hfits.1
    rw [spacedChars, List.cons_append, List.cons_append, List.nil_append,
      readValue_obj_nil rest (by omega)]
    rfl
  | .obj (member :: members) =>
    obtain ⟨hpos, -, hmembers⟩ := hfits
    have hdepth : depth < nestingLimit := by omega
    have hlength : 2 * (spacedMembers s (level + 1) (member :: members)).length + 1 ≤ fuel := by
      simp only [spacedChars, List.length_cons, List.length_append, List.length_nil] at hfuel
      omega
    have hread := readMembers_spaced s (member :: members) (level + 1) (room - 1) (depth + 1) fuel rest
      (by simp) hmembers (by omega) (s.line_space level) hlength
    rw [spacedChars, List.cons_append, List.append_assoc, List.append_assoc, List.singleton_append,
      streamed]
    exact readValue_obj hdepth (skipSpace_spacedMembers_ne s (level + 1) member members _) hread

theorem readItems_spaced (s : Spacing) (items : List Json) (level room depth fuel : Nat)
    {gap : List Char} (rest : List Char) (hnonempty : items ≠ []) (hfits : ItemsFit items room)
    (hroom : room + depth ≤ nestingLimit) (hgap : Space gap)
    (hfuel : 2 * (spacedItems s level items).length + 1 ≤ fuel) :
    readItems fuel depth (spacedItems s level items ++ (gap ++ ']' :: rest)) =
      (streamedItems items, .closed .streamed, some rest) := by
  obtain ⟨fuel, rfl⟩ : ∃ f, fuel = f + 1 := ⟨fuel - 1, by omega⟩
  have hbracket : Solid ']' := by decide
  have hcomma : Solid ',' := by decide
  match items with
  | [] => exact absurd rfl hnonempty
  | [item] =>
    have hlength : 2 * (spacedChars s level item).length ≤ fuel := by
      simp only [spacedItems, List.length_append] at hfuel
      omega
    have hitem := readValue_spaced s item level room depth fuel hfits.1 hroom
      (ends_append hgap (ends_cons (Or.inr (Or.inl rfl)) rest)) hlength
    rw [spacedItems, List.append_assoc, readItems, readValue_gap _ _ (s.line_space level), hitem]
    simp only [skipSpace_gap hgap hbracket]
    rfl
  | item :: second :: others =>
    have hlength : 2 * (spacedChars s level item).length ≤ fuel ∧
        2 * (spacedItems s level (second :: others)).length + 1 ≤ fuel := by
      simp only [spacedItems, List.length_append, List.length_cons] at hfuel ⊢
      omega
    have hitem := readValue_spaced s item level room depth fuel hfits.1 hroom
      (ends_cons (Or.inl rfl) (spacedItems s level (second :: others) ++ (gap ++ ']' :: rest)))
      hlength.1
    have hothers := readItems_spaced s (second :: others) level room depth fuel rest (by simp) hfits.2
      hroom hgap hlength.2
    rw [spacedItems, List.append_assoc, List.append_assoc, List.cons_append, readItems,
      readValue_gap _ _ (s.line_space level), hitem]
    simp only [skipSpace_cons hcomma, hothers]
    rfl

theorem readMembers_spaced (s : Spacing) (members : List (String × Json))
    (level room depth fuel : Nat) {gap : List Char} (rest : List Char) (hnonempty : members ≠ [])
    (hfits : MembersFit members room) (hroom : room + depth ≤ nestingLimit) (hgap : Space gap)
    (hfuel : 2 * (spacedMembers s level members).length + 1 ≤ fuel) :
    readMembers fuel depth (spacedMembers s level members ++ (gap ++ '}' :: rest)) =
      (streamedMembers members, .closed .streamed, some rest) := by
  obtain ⟨fuel, rfl⟩ : ∃ f, fuel = f + 1 := ⟨fuel - 1, by omega⟩
  match members with
  | [] => exact absurd rfl hnonempty
  | [(name, value)] =>
    have hlength : 2 * (spacedChars s level value).length ≤ fuel := by
      simp only [spacedMembers, List.length_append, List.length_cons] at hfuel
      omega
    have hvalue := readValue_spaced s value level room depth fuel hfits.1 hroom
      (ends_append hgap (ends_cons (Or.inr (Or.inr rfl)) rest)) hlength
    rw [spacedMembers, List.append_assoc, List.append_assoc, List.cons_append, List.append_assoc,
      readMembers_last (s.line_space level) hgap
        ((readValue_gap _ _ s.afterColon_space _).trans hvalue)]
    rfl
  | (name, value) :: second :: others =>
    have hlength : 2 * (spacedChars s level value).length ≤ fuel ∧
        2 * (spacedMembers s level (second :: others)).length + 1 ≤ fuel := by
      simp only [spacedMembers, List.length_append, List.length_cons] at hfuel ⊢
      omega
    have hvalue := readValue_spaced s value level room depth fuel hfits.1 hroom
      (ends_cons (Or.inl rfl) (spacedMembers s level (second :: others) ++ (gap ++ '}' :: rest)))
      hlength.1
    have hothers := readMembers_spaced s (second :: others) level room depth fuel rest (by simp)
      hfits.2 hroom hgap hlength.2
    rw [spacedMembers, List.append_assoc, List.append_assoc, List.append_assoc, List.cons_append,
      List.append_assoc, List.cons_append,
      readMembers_next (s.line_space level) ((readValue_gap _ _ s.afterColon_space _).trans hvalue),
      hothers]
    rfl

end

/-! ### Whole texts -/

theorem skipSpace_space {gap : List Char} (h : Space gap) : skipSpace gap = [] := by
  rw [← List.append_nil gap, skipSpace_append h]
  rfl

/-- The text of a value is read as the document that shows the value, and nothing but space is left
after it. -/
theorem ofText_spaced (s : Spacing) {j : Json} (hfits : j.Fits nestingLimit) {tail : List Char}
    (htail : Space tail) :
    ofText (String.ofList (spacedChars s 0 j ++ tail)) = (streamed j, true) := by
  have hends : Numeral.Ends tail := by
    rw [← List.append_nil tail]
    exact ends_append htail (fun c hc => nomatch hc)
  have hread := readValue_spaced s j 0 nestingLimit 0
    (2 * (spacedChars s 0 j ++ tail).length + 2) hfits (Nat.le_refl _) hends
    (by rw [List.length_append]; omega)
  rw [ofText, String.toList_ofList]
  simp only [hread, skipSpace_space htail]
  rfl

theorem ofText_compact {j : Json} (hfits : j.Fits nestingLimit) :
    ofText j.compact = (streamed j, true) := by
  rw [compact, compactChars_eq 0, ← List.append_nil (spacedChars _ _ _)]
  exact ofText_spaced .tight hfits (fun c hc => nomatch hc)

theorem ofText_pretty_line {j : Json} (hfits : j.Fits nestingLimit) :
    ofText (j.pretty ++ "\n") = (streamed j, true) := by
  have hline : Space ['\n'] := fun c hc => Or.inr (Or.inl (List.mem_singleton.1 hc))
  have htext : j.pretty ++ "\n" = String.ofList (spacedChars .lines 0 j ++ ['\n']) := by
    rw [pretty, prettyChars_eq, String.ofList_append]
  rw [htext]
  exact ofText_spaced .lines hfits hline

end Document

end ContentLoom.Json

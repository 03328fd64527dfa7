import ContentLoom.ContentClass
import ContentLoom.Proofs.ReadBack

/-!
# Reading back content classes

The JSON of a content class is decoded to the class again, whether it comes as a
value or as a text, and whatever its texts are.  The arguments of a converter
are told from none at all even where there are no entries in them.
-/

namespace ContentLoom

namespace Json

namespace Document

/-! ### Documents of one manner -/

mutual

/-- The document of a value whose containers all come in one manner. -/
def given (manner : Manner) : Json → Document
  | .null => .null
  | .bool b => .bool b
  | .int n => .int n
  | .float x => .float x
  | .str t => .str t
  | .arr items => .arr (givenItems manner items) (.closed manner)
  | .obj members => .obj (givenMembers manner members) (.closed manner)

/-- The documents of items. -/
def givenItems (manner : Manner) : List Json → List Document
  | [] => []
  | j :: js => given manner j :: givenItems manner js

/-- The documents of members. -/
def givenMembers (manner : Manner) : List (String × Json) → List (String × Document)
  | [] => []
  | (k, j) :: js => (k, given manner j) :: givenMembers manner js

end

theorem givenItems_eq_map (manner : Manner) (js : List Json) :
    givenItems manner js = js.map (given manner) := by
  induction js with
  | nil => rfl
  | cons j js ih => rw [givenItems, ih, List.map_cons]

theorem givenMembers_eq_map (manner : Manner) (js : List (String × Json)) :
    givenMembers manner js = js.map fun e => (e.1, given manner e.2) := by
  induction js with
  | nil => rfl
  | cons e js ih =>
    obtain ⟨name, j⟩ := e
    rw [givenMembers, ih, List.map_cons]

mutual

theorem ofJson_eq_given (j : Json) : ofJson j = given .held j := by
  match j with
  | .null => rfl
  | .bool b => rfl
  | .int n => rfl
  | .float x => rfl
  | .str t => rfl
  | .arr items => rw [ofJson, given, itemsOfJson_eq_given]
  | .obj members => rw [ofJson, given, membersOfJson_eq_given]

theorem itemsOfJson_eq_given (js : List Json) : itemsOfJson js = givenItems .held js := by
  match js with
  | [] => rfl
  | j :: js => rw [itemsOfJson, givenItems, ofJson_eq_given j, itemsOfJson_eq_given js]

theorem membersOfJson_eq_given (js : List (String × Json)) :
    membersOfJson js = givenMembers .held js := by
  match js with
  | [] => rfl
  | (k, j) :: js => rw [membersOfJson, givenMembers, ofJson_eq_given j, membersOfJson_eq_given js]

end

mutual

/-- A text without floating-point numbers is read as the value that it shows. -/
theorem streamed_eq_given {j : Json} (h : j.floats = []) : streamed j = given .streamed j := by
  match j with
  | .null => rfl
  | .bool b => rfl
  | .int n => rfl
  | .float x => cases h
  | .str t => rfl
  | .arr items => rw [streamed, given, streamedItems_eq_given h]
  | .obj members => rw [streamed, given, streamedMembers_eq_given h]

theorem streamedItems_eq_given {js : List Json} (h : itemsFloats js = []) :
    streamedItems js = givenItems .streamed js := by
  match js with
  | [] => rfl
  | j :: js =>
    obtain ⟨hj, hjs⟩ := List.append_eq_nil_iff.1 h
    rw [streamedItems, givenItems, streamed_eq_given hj, streamedItems_eq_given hjs]

theorem streamedMembers_eq_given {js : List (String × Json)} (h : membersFloats js = []) :
    streamedMembers js = givenMembers .streamed js := by
  match js with
  | [] => rfl
  | (k, j) :: js =>
    obtain ⟨hj, hjs⟩ := List.append_eq_nil_iff.1 h
    rw [streamedMembers, givenMembers, streamed_eq_given hj, streamedMembers_eq_given hjs]

end

/-! ### Values without floating-point numbers -/

end Document

theorem itemsFloats_eq_nil {js : List Json} (h : ∀ j ∈ js, j.floats = []) :
    itemsFloats js = [] := by
  induction js with
  | nil => rfl
  | cons j js ih =>
    obtain ⟨hj, hjs⟩ := List.forall_mem_cons.1 h
    rw [itemsFloats, hj, ih hjs, List.append_nil]

theorem membersFloats_eq_nil {js : List (String × Json)} (h : ∀ e ∈ js, e.2.floats = []) :
    membersFloats js = [] := by
  induction js with
  | nil => rfl
  | cons e js ih =>
    obtain ⟨he, hjs⟩ := List.forall_mem_cons.1 h
    obtain ⟨name, j⟩ := e
    rw [membersFloats, he, ih hjs, List.append_nil]

namespace Document

/-! ### Recovered values -/

variable {α : Type}

/-- The decoder gives the value for the JSON, in whatever manner it comes. -/
def Recovers (read : Document → Except Fault α) (j : Json) (value : α) : Prop :=
  ∀ manner, read (given manner j) = .ok value

theorem recovers_text (text : String) : Recovers readText (.str text) text := fun _ => rfl

theorem recovers_int {low high n : Int} (h : low ≤ n ∧ n ≤ high) :
    Recovers (readInt low high) (.int n) n := fun _ => if_pos h

theorem readList_closed (read : Document → Except Fault α) (items : List Document)
    (manner : Manner) : readList read (.arr items (.closed manner)) = items.mapM read := by
  change (items.mapM read >>= fun values => .ok values) = _
  cases items.mapM read <;> rfl

theorem recovers_list {read : Document → Except Fault α} {write : α → Json} {xs : List α}
    (h : ∀ x ∈ xs, Recovers read (write x) x) :
    Recovers (readList read) (.arr (xs.map write)) xs := by
  intro manner
  rw [given, readList_closed, givenItems_eq_map, mapM_eq_ok_iff, List.map_map,
    List.forall₂_map_left_iff, List.forall₂_same]
  exact fun x hx => h x hx manner

theorem recovers_entries {read : Document → Except Fault α} {write : α → Json} {es : Entries α}
    (hnodup : es.names.Nodup) (h : ∀ e ∈ es, Recovers read (write e.2) e.2) :
    Recovers (readEntries read) (.obj (es.map fun e => (e.1, write e.2))) es := by
  intro manner
  have hmembers : (givenMembers manner (es.map fun e => (e.1, write e.2))).mapM (readMember read) =
      .ok es := by
    rw [givenMembers_eq_map, mapM_eq_ok_iff, List.map_map, List.forall₂_map_left_iff,
      List.forall₂_same]
    exact fun e he => readMember_eq_ok_iff.2 ⟨rfl, h e he manner⟩
  rw [given, readEntries_closed, hmembers]
  exact congrArg Except.ok (Entries.collapsed_of_nodup hnodup)

/-! ### Recovered records -/

section

variable {δ β : Type} (names : List String) (step : δ → String → Document → Except Fault δ)

/-- Takes the members of a record into a draft one after another. -/
def takeAll (draft : δ) (members : List (String × Document)) : Except Fault δ :=
  members.foldlM (fun acc (k, d) => if names.contains k then step acc k d else passOver acc d) draft

theorem readRecord_closed (draft : δ) (finish : Layout → δ → Except Fault α)
    (members : List (String × Document)) (manner : Manner) :
    readRecord names draft step finish (.obj members (.closed manner)) =
      takeAll names step draft members >>= finish .members := rfl

variable {names step}

/-- A field that was not given before takes its value. -/
theorem takeAll_field {draft : δ} {name : String} {d : Document} {value : Except Fault β} {b : β}
    {slot : Option β → δ} {finish : δ → Except Fault α} (hname : names.contains name = true)
    (hstep : step draft name d = once none name value >>= fun v => pure (slot v))
    (hvalue : value = .ok b) (rest : List (String × Document)) :
    (takeAll names step draft ((name, d) :: rest) >>= finish) =
      takeAll names step (slot (some b)) rest >>= finish := by
  rw [takeAll, List.foldlM_cons]
  simp only [hname, if_true, hstep, hvalue]
  rfl

end

end Document

end Json

open Json.Document

/-! ### Identifiers -/

namespace Identifier

theorem hexValue?_digitChar : ∀ n < 16, hexValue? (Nat.digitChar n) = some n := by decide

/-- The value of the digit at a place. -/
def valueAt (id : Identifier) (place : Nat) : Nat :=
  id.bits.toNat / Nat.pow 16 (31 - place) % 16

theorem digitAt_eq (id : Identifier) (place : Nat) :
    id.digitAt place = Nat.digitChar (id.valueAt place) := rfl

theorem valueAt_lt (id : Identifier) (place : Nat) : id.valueAt place < 16 :=
  Nat.mod_lt _ (by decide)

theorem digitAt_ne {c : Char} (h : ∀ n < 16, Nat.digitChar n ≠ c) (id : Identifier) (place : Nat) :
    id.digitAt place ≠ c := h _ (id.valueAt_lt place)

theorem mapM_hexValue? (id : Identifier) (places : List Nat) :
    (places.map id.digitAt).mapM hexValue? = some (places.map id.valueAt) := by
  induction places with
  | nil => rfl
  | cons place places ih =>
    rw [List.map_cons, List.mapM_cons, ih, digitAt_eq, hexValue?_digitChar _ (id.valueAt_lt place)]
    rfl

/-- The first digits denote the number without its last ones. -/
theorem foldl_valueAt (id : Identifier) {count : Nat} (h : count ≤ 32) :
    ((List.range count).map id.valueAt).foldl (fun n v => n * 16 + v) 0 =
      id.bits.toNat / Nat.pow 16 (32 - count) := by
  induction count with
  | zero =>
    have hbits : id.bits.toNat < 16 ^ 32 := id.bits.isLt
    exact (Nat.div_eq_of_lt hbits).symm
  | succ count ih =>
    have hpower : 32 - count = 31 - count + 1 := by omega
    have hlast : 32 - (count + 1) = 31 - count := by omega
    have hstep : Nat.pow 16 (31 - count + 1) = Nat.pow 16 (31 - count) * 16 := rfl
    rw [List.range_succ, List.map_append, List.foldl_append, ih (by omega), hpower, hlast, hstep,
      ← Nat.div_div_eq_div_mul]
    exact Nat.div_add_mod' _ _

theorem ofDigits?_digits (id : Identifier) : ofDigits? id.digits = some id := by
  have hvalues : id.digits.mapM hexValue? = some ((List.range 32).map id.valueAt) :=
    id.mapM_hexValue? _
  have hlength : ((List.range 32).map id.valueAt).length = 32 := by simp
  have hnumber := id.foldl_valueAt (Nat.le_refl 32)
  have hall : id.bits.toNat / Nat.pow 16 (32 - 32) = id.bits.toNat := Nat.div_one _
  rw [hall] at hnumber
  rw [ofDigits?, hvalues]
  simp only [Option.bind_eq_bind, Option.bind_some, if_pos hlength, hnumber]
  rw [BitVec.ofNat_toNat, BitVec.setWidth_eq]

/-- The digits from a place on. -/
def digitsFrom (id : Identifier) (first count : Nat) : List Char :=
  (List.range' first count).map id.digitAt

theorem not_mem_digitsFrom {c : Char} (h : ∀ n < 16, Nat.digitChar n ≠ c) (id : Identifier)
    (first count : Nat) : c ∉ id.digitsFrom first count := by
  intro hmem
  obtain ⟨place, -, hplace⟩ := List.mem_map.1 hmem
  exact id.digitAt_ne h place hplace

theorem hyphenated_eq (id : Identifier) :
    id.hyphenated = id.digitsFrom 0 8 ++ '-' :: (id.digitsFrom 8 4 ++ '-' ::
      (id.digitsFrom 12 4 ++ '-' :: (id.digitsFrom 16 4 ++ '-' :: id.digitsFrom 20 12))) := rfl

theorem ofHyphenated?_hyphenated (id : Identifier) : ofHyphenated? id.hyphenated = some id := by
  have hfree := id.not_mem_digitsFrom (c := '-') (by decide)
  have hdigits : id.digitsFrom 0 8 ++ id.digitsFrom 8 4 ++ id.digitsFrom 12 4 ++
      id.digitsFrom 16 4 ++ id.digitsFrom 20 12 = id.digits := rfl
  rw [ofHyphenated?, hyphenated_eq, Text.segments_append (hfree 0 8),
    Text.segments_append (hfree 8 4), Text.segments_append (hfree 12 4),
    Text.segments_append (hfree 16 4), Text.segments_of_not_mem (hfree 20 12)]
  simp only [hdigits, ofDigits?_digits]
  simp [digitsFrom]

theorem ofDigits?_of_hyphen {cs : List Char} (h : '-' ∈ cs) : ofDigits? cs = none := by
  have hnone : cs.mapM hexValue? = none := by
    induction cs with
    | nil => cases h
    | cons c cs ih =>
      rw [List.mapM_cons]
      rcases List.mem_cons.1 h with rfl | hmem
      · rfl
      · rw [ih hmem]
        cases hexValue? c <;> rfl
  rw [ofDigits?, hnone]
  rfl

theorem ofChars?_hyphenated (id : Identifier) : ofChars? id.hyphenated = some id := by
  have hbrace : id.digitAt 0 ≠ '{' := id.digitAt_ne (by decide) 0
  have hresource : Text.asciiLower (id.digitAt 0) ≠ 'u' := by
    have hdigits : ∀ n < 16, Text.asciiLower (Nat.digitChar n) ≠ 'u' := by decide
    exact hdigits _ (id.valueAt_lt 0)
  obtain ⟨rest, hfirst⟩ : ∃ rest, id.hyphenated = id.digitAt 0 :: rest := ⟨_, rfl⟩
  have hplain : ofDigits? id.hyphenated = none := by
    refine ofDigits?_of_hyphen ?_
    rw [hyphenated_eq]
    exact List.mem_append_right _ (List.mem_cons_self ..)
  have hread := id.ofHyphenated?_hyphenated
  rw [hfirst] at hplain hread ⊢
  unfold ofChars?
  -- a hyphenated identifier begins neither with a brace nor as a resource name does
  split
  · rename_i heq
    exact absurd (List.cons.inj heq).1 hbrace
  · rw [if_neg, hplain]
    · exact hread
    · intro hprefix
      exact hresource (List.cons.inj hprefix).1

theorem recovers_toJson (id : Identifier) : Recovers ofDocument id.toJson id := by
  intro manner
  have htext : id.text.toList = id.hyphenated := String.toList_ofList
  have hread : ofChars? id.text.toList = some id := by rw [htext, ofChars?_hyphenated]
  refine bind_eq_ok_iff.2 ⟨id.text, rfl, ?_⟩
  rw [hread]

end Identifier

/-! ### Properties -/

theorem Conversion.recovers_toJson (k : Conversion) : Recovers ofDocument k.toJson k := by
  intro manner
  cases k with
  | copy => rfl
  | known c => cases c <;> rfl
  | enumeration type => rfl
  | custom type => rfl

theorem ExposedType.recovers_toJson (t : ExposedType) : Recovers ofDocument t.toJson t :=
  fun _ => rfl

namespace ContentProperty

theorem recovers_config (config : ConverterConfig) :
    Recovers configOfDocument (.obj (config.entries.map fun e => (e.1, .str e.2))) config := by
  intro manner
  have hentries := recovers_entries config.increasing.nodup
    (fun e _ => recovers_text e.2) manner
  rw [configOfDocument, hentries]
  exact congrArg Except.ok (Dictionary.ofEntries_entries config)

theorem recovers_toJson (p : ContentProperty) : Recovers ofDocument p.toJson p := by
  intro manner
  obtain ⟨name, exposed, conversion, config⟩ := p
  have hname := recovers_text name manner
  have hexposed := exposed.recovers_toJson manner
  have hconversion := conversion.recovers_toJson manner
  unfold ofDocument toJson
  rw [given, readRecord_closed]
  refine (takeAll_field rfl rfl hname _).trans ?_
  refine (takeAll_field rfl rfl hexposed _).trans ?_
  refine (takeAll_field rfl rfl hconversion _).trans ?_
  cases config with
  | none => rfl
  | some config =>
    have hconfig : readOption configOfDocument
        (given manner (.obj (config.entries.map fun e => (e.1, .str e.2)))) = .ok (some config) :=
      congrArg (Except.map some) (recovers_config config manner)
    refine (takeAll_field rfl rfl hconfig _).trans ?_
    rfl

end ContentProperty

/-! ### Classes -/

namespace ContentClass

theorem recovers_order (order : Int32) : Recovers orderOfDocument (.int order.toInt) order := by
  intro manner
  have hrange : -0x80000000 ≤ order.toInt ∧ order.toInt ≤ 0x7fffffff :=
    ⟨order.le_toInt, Int.le_of_lt_add_one order.toInt_lt⟩
  rw [orderOfDocument, recovers_int hrange manner]
  exact congrArg Except.ok (Int32.ofInt_toInt order)

theorem recovers_toJson (c : ContentClass) : Recovers ofDocument c.toJson c := by
  intro manner
  have hname := recovers_text c.name manner
  have hid := c.stableId.recovers_toJson manner
  have hgroup := recovers_text c.group manner
  have horder := recovers_order c.order manner
  have hfullName := recovers_text c.fullName manner
  have hproperties : readList ContentProperty.ofDocument
      (given manner (.arr (c.properties.map ContentProperty.toJson))) = .ok c.properties :=
    recovers_list (fun p _ => p.recovers_toJson) manner
  unfold ofDocument toJson
  rw [given, readRecord_closed]
  refine (takeAll_field rfl rfl hname _).trans ?_
  refine (takeAll_field rfl rfl hid _).trans ?_
  refine (takeAll_field rfl rfl hgroup _).trans ?_
  refine (takeAll_field rfl rfl horder _).trans ?_
  refine (takeAll_field rfl rfl hfullName _).trans ?_
  refine (takeAll_field rfl rfl hproperties _).trans ?_
  rfl

end ContentClass

/-! ### Texts of classes -/

theorem Conversion.floats_toJson (k : Conversion) : k.toJson.floats = [] := by
  cases k <;> rfl

theorem Conversion.fits_toJson (k : Conversion) {room : Nat} (h : 0 < room) :
    k.toJson.Fits room := by
  cases k with
  | copy => exact ⟨h, by simp, True.intro, True.intro⟩
  | known c => exact ⟨h, by simp, True.intro, True.intro, True.intro⟩
  | enumeration type => exact ⟨h, by simp, True.intro, True.intro, True.intro⟩
  | custom type => exact ⟨h, by simp, True.intro, True.intro, True.intro⟩

theorem ExposedType.fits_toJson (t : ExposedType) {room : Nat} (h : 0 < room) :
    t.toJson.Fits room := ⟨h, by simp, True.intro, True.intro, True.intro⟩

namespace ContentProperty

theorem floats_toJson (p : ContentProperty) : p.toJson.floats = [] := by
  obtain ⟨name, exposed, conversion, config⟩ := p
  refine Json.membersFloats_eq_nil fun e he => ?_
  rcases List.mem_append.1 he with he | he
  · simp only [List.mem_cons, List.not_mem_nil, or_false] at he
    rcases he with rfl | rfl | rfl
    · rfl
    · rfl
    · exact conversion.floats_toJson
  · cases config with
    | none => cases he
    | some config =>
      obtain rfl := List.mem_singleton.1 he
      refine Json.membersFloats_eq_nil fun entry hentry => ?_
      obtain ⟨e, -, rfl⟩ := List.mem_map.1 hentry
      rfl

theorem fits_toJson (p : ContentProperty) {room : Nat} (h : 2 ≤ room) : p.toJson.Fits room := by
  obtain ⟨name, exposed, conversion, config⟩ := p
  have hroom : 0 < room - 1 := by omega
  have hexposed := exposed.fits_toJson hroom
  have hconversion := conversion.fits_toJson hroom
  cases config with
  | none => exact ⟨by omega, by simp, True.intro, hexposed, hconversion, True.intro⟩
  | some config =>
    have hconfig : (Json.obj (config.entries.map fun e => (e.1, .str e.2))).Fits (room - 1) :=
      Json.fits_entries hroom config.increasing.nodup fun _ _ => True.intro
    exact ⟨by omega, by simp, True.intro, hexposed, hconversion, hconfig, True.intro⟩

end ContentProperty

namespace ContentClass

theorem floats_toJson (c : ContentClass) : c.toJson.floats = [] := by
  have hproperties : Json.itemsFloats (c.properties.map ContentProperty.toJson) = [] := by
    apply Json.itemsFloats_eq_nil
    intro j hj
    obtain ⟨p, -, rfl⟩ := List.mem_map.1 hj
    exact p.floats_toJson
  simp [toJson, Identifier.toJson, Json.floats, Json.membersFloats, hproperties]

theorem fits_toJson (c : ContentClass) : c.toJson.Fits nestingLimit := by
  have hnames : (["name", "stable_id", "group", "order", "fully_qualified_name",
      "properties"] : List String).Nodup := by decide
  have horder : Json.Numeral.Fits64 c.order.toInt := by
    have hlow := c.order.le_toInt
    have hhigh := c.order.toInt_lt
    constructor <;> omega
  have hproperties : (Json.arr (c.properties.map ContentProperty.toJson)).Fits 126 :=
    Json.fits_arr (by decide) fun p _ => p.fits_toJson (by decide)
  exact ⟨by decide, hnames, True.intro, True.intro, True.intro, horder, True.intro,
    hproperties, True.intro⟩

/-- A class is read back from its text. -/
theorem decodeText_compact (c : ContentClass) :
    decodeText ofDocument c.toJson.compact = .ok c := by
  rw [decodeText_of_ofText (ofText_compact c.fits_toJson), streamed_eq_given c.floats_toJson]
  exact c.recovers_toJson .streamed

end ContentClass

end ContentLoom

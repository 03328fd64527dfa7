import ContentLoom.Content.Document
import ContentLoom.Proofs.ClassText
import ContentLoom.Proofs.DecodedValues

/-!
# Reading back content

The JSON of a value of content without floating-point numbers is decoded to the
value again, and that of an item to the item, however deep they are nested.  A
text carries them as long as no more than 127 containers of its JSON enclose one
another.
-/

namespace ContentLoom

open Json.Document

/-! ### Values and items as they are stored -/

namespace ContentValue

mutual

/-- The names of the properties increase in every item of the value. -/
def Ordered : ContentValue → Prop
  | .block item => ItemOrdered item
  | .list values => ListOrdered values
  | .null => True
  | .bool _ => True
  | .integer _ => True
  | .float _ => True
  | .text _ => True
  | .enumeration _ => True
  | .url _ => True
  | .reference _ => True
  | .area _ => True
  | .xhtml _ => True

/-- The names of the properties increase in the item and in every item within. -/
def ItemOrdered : ContentItem → Prop
  | ⟨_, _, properties⟩ => Entries.Increasing properties ∧ PropertiesOrdered properties

/-- All values are ordered. -/
def ListOrdered : List ContentValue → Prop
  | [] => True
  | v :: vs => Ordered v ∧ ListOrdered vs

/-- The values of all properties are ordered. -/
def PropertiesOrdered : List (String × ContentValue) → Prop
  | [] => True
  | (_, v) :: rest => Ordered v ∧ PropertiesOrdered rest

end

mutual

/-- No floating-point number is in the value. -/
def FloatFree : ContentValue → Prop
  | .float _ => False
  | .block item => ItemFloatFree item
  | .list values => ListFloatFree values
  | .null => True
  | .bool _ => True
  | .integer _ => True
  | .text _ => True
  | .enumeration _ => True
  | .url _ => True
  | .reference _ => True
  | .area _ => True
  | .xhtml _ => True

/-- No floating-point number is in a property of the item. -/
def ItemFloatFree : ContentItem → Prop
  | ⟨_, _, properties⟩ => PropertiesFloatFree properties

/-- No floating-point number is in one of the values. -/
def ListFloatFree : List ContentValue → Prop
  | [] => True
  | v :: vs => FloatFree v ∧ ListFloatFree vs

/-- No floating-point number is in a value of the properties. -/
def PropertiesFloatFree : List (String × ContentValue) → Prop
  | [] => True
  | (_, v) :: rest => FloatFree v ∧ PropertiesFloatFree rest

end

theorem propertiesToJson_eq_map (ps : List (String × ContentValue)) :
    propertiesToJson ps = ps.map fun e => (e.1, toJson e.2) := by
  induction ps with
  | nil => rfl
  | cons e ps ih =>
    obtain ⟨name, v⟩ := e
    rw [propertiesToJson, ih, List.map_cons]

end ContentValue

/-! ### Plain parts -/

theorem ContentReference.recovers_id (r : ContentReference) :
    Recovers ofDocument (.int r.id.toNat) r := by
  intro manner
  have hrange : (0 : Int) ≤ r.id.toNat ∧ (r.id.toNat : Int) ≤ 0xffffffffffffffff := by
    have hbound := r.id.toNat_lt
    constructor <;> omega
  rw [ofDocument, readNat64, recovers_int hrange manner]
  have hid : UInt64.ofNat (Int.toNat r.id.toNat) = r.id := UInt64.ofNat_toNat
  exact congrArg (fun id => Except.ok (ContentReference.mk id)) hid

theorem ContentValue.recovers_integer (n : Int64) :
    Recovers integerOfDocument (.int n.toInt) n := by
  intro manner
  have hrange : -0x8000000000000000 ≤ n.toInt ∧ n.toInt ≤ 0x7fffffffffffffff :=
    ⟨n.le_toInt, Int.le_of_lt_add_one n.toInt_lt⟩
  rw [integerOfDocument, recovers_int hrange manner]
  exact congrArg Except.ok (Int64.ofInt_toInt n)

namespace AreaEntry

theorem recovers_toJson (e : AreaEntry) : Recovers ofDocument e.toJson e := by
  intro manner
  obtain ⟨r, displayOption⟩ := e
  have hreference := r.recovers_id manner
  unfold ofDocument toJson
  rw [given, readRecord_closed]
  refine (takeAll_field rfl rfl hreference _).trans ?_
  cases displayOption with
  | none => rfl
  | some option =>
    have hoption : readOption readText (given manner (.str option)) = .ok (some option) := rfl
    refine (takeAll_field rfl rfl hoption _).trans ?_
    rfl

theorem recovers_area (entries : List AreaEntry) :
    Recovers areaOfDocument (.obj [("items", .arr (entries.map toJson))]) entries := by
  intro manner
  have hentries : readList ofDocument (given manner (.arr (entries.map toJson))) = .ok entries :=
    recovers_list (fun e _ => e.recovers_toJson) manner
  unfold areaOfDocument
  rw [given, readRecord_closed]
  refine (takeAll_field rfl (bind_pure _).symm hentries _).trans ?_
  rfl

end AreaEntry

/-! ### Kinds with their values -/

namespace Json.Document

theorem height_pos (d : Document) : 0 < d.height := by
  cases d <;> simp [height]

variable {κ α : Type} {tag content : String} {variants : List (String × κ)}
  {read : κ → Document → Except Fault α} {absent? : κ → Option α} {variant : Document} {k : κ}

theorem readAdjacent_closed (members : List (String × Document)) (manner : Manner) :
    readAdjacent tag content variants read absent? (.obj members (.closed manner)) =
      members.foldlM (readAdjacent.step tag content variants read) .unread >>=
        readAdjacent.finish tag content absent? := rfl

theorem step_variant (hvariant : readVariant variants variant = .ok k) :
    readAdjacent.step tag content variants read .unread (tag, variant) = .ok (.tagged k) := by
  simp only [readAdjacent.step, if_true, hvariant]
  rfl

theorem readAdjacent_content (hne : content ≠ tag) (hvariant : readVariant variants variant = .ok k)
    (d : Document) (manner : Manner) :
    readAdjacent tag content variants read absent?
      (.obj [(tag, variant), (content, d)] (.closed manner)) = read k d := by
  have hcontent : readAdjacent.step tag content variants read (.tagged k) (content, d) =
      (read k d).map .complete := by
    simp only [readAdjacent.step, if_neg hne, if_true]
  rw [readAdjacent_closed, List.foldlM_cons, step_variant hvariant]
  change (readAdjacent.step tag content variants read (.tagged k) (content, d) >>= _) >>= _ = _
  rw [hcontent]
  cases read k d <;> rfl

theorem readAdjacent_bare {value : α} (hvariant : readVariant variants variant = .ok k)
    (habsent : absent? k = some value) (manner : Manner) :
    readAdjacent tag content variants read absent? (.obj [(tag, variant)] (.closed manner)) =
      .ok value := by
  rw [readAdjacent_closed, List.foldlM_cons, step_variant hvariant]
  change readAdjacent.finish tag content absent? (.tagged k) = _
  rw [readAdjacent.finish, habsent]
  rfl

end Json.Document

/-! ### Values -/

namespace ContentValue

theorem readVariant_kind {kind : String} {k : Kind} (hkind : kinds.lookup kind = some k)
    (manner : Json.Manner) : readVariant kinds (given manner (.str kind)) = .ok k := by
  change findVariant kinds kind = .ok k
  rw [findVariant, hkind]

/-- A kind with its value is decoded as that kind is. -/
theorem readTo_tagged {depth : Nat} (kind : String) {k : Kind}
    (hkind : kinds.lookup kind = some k) (j : Json) (manner : Json.Manner) :
    readTo (depth + 1) (given manner (tagged kind j)) =
      readKind (readTo depth) k (given manner j) :=
  readAdjacent_content (by decide) (readVariant_kind hkind manner) _ manner

theorem height_tagged (kind : String) (j : Json) (manner : Json.Manner) :
    (given manner j).height + 1 ≤ (given manner (tagged kind j)).height := by
  simp only [tagged, given, givenMembers, height, membersHeight]
  omega

-- The induction is on the value; the depth that is left only has to reach the height of its
-- document.
mutual

theorem readTo_given {v : ContentValue} (hordered : v.Ordered) (hfloats : v.FloatFree)
    (manner : Json.Manner) {depth : Nat} (hdepth : (given manner v.toJson).height ≤ depth) :
    readTo depth (given manner v.toJson) = .ok v := by
  obtain ⟨depth, rfl⟩ : ∃ d, depth = d + 1 := by
    have hpos := (given manner v.toJson).height_pos
    exact ⟨depth - 1, by omega⟩
  match v with
  | .null =>
    have hkind : kinds.lookup "null" = some .null := rfl
    have habsent : absent? .null = some null := rfl
    exact readAdjacent_bare (readVariant_kind hkind manner) habsent manner
  | .bool b => exact readTo_tagged "bool" rfl (.bool b) manner
  | .integer n =>
    rw [toJson, readTo_tagged "integer" rfl]
    exact congrArg (Except.map integer) (recovers_integer n manner)
  | .float x => exact hfloats.elim
  | .text s => exact readTo_tagged "string" rfl (.str s) manner
  | .enumeration variant => exact readTo_tagged "enum" rfl (.str variant) manner
  | .url address => exact readTo_tagged "url" rfl (.str address) manner
  | .reference target =>
    rw [toJson, readTo_tagged "reference" rfl]
    exact congrArg (Except.map reference) (target.recovers_id manner)
  | .area entries =>
    rw [toJson, readTo_tagged "area" rfl]
    exact congrArg (Except.map area) (AreaEntry.recovers_area entries manner)
  | .xhtml markup => exact readTo_tagged "xhtml" rfl (.str markup) manner
  | .block item =>
    have hitem : (given manner (itemToJson item)).height ≤ depth :=
      Nat.le_of_succ_le_succ (Nat.le_trans (height_tagged "block" _ manner) hdepth)
    rw [toJson, readTo_tagged "block" rfl]
    exact congrArg (Except.map block) (readWith_given hordered hfloats manner hitem)
  | .list values =>
    have hvalues : (given manner (.arr (valuesToJson values))).height ≤ depth :=
      Nat.le_of_succ_le_succ (Nat.le_trans (height_tagged "list" _ manner) hdepth)
    rw [toJson, readTo_tagged "list" rfl]
    exact congrArg (Except.map list) (readTo_givenItems hordered hfloats manner
      (Nat.le_of_succ_le hvalues))

theorem readWith_given {item : ContentItem} (hordered : ItemOrdered item)
    (hfloats : ItemFloatFree item) (manner : Json.Manner) {depth : Nat}
    (hdepth : (given manner (itemToJson item)).height ≤ depth) :
    ContentItem.readWith (readTo depth) (given manner (itemToJson item)) = .ok item := by
  obtain ⟨contentType, r, properties⟩ := item
  have htype := recovers_text contentType manner
  have hreference := r.recovers_id manner
  have hvalues : membersHeight (givenMembers manner (propertiesToJson properties)) ≤ depth := by
    simp only [itemToJson, given, givenMembers, height, membersHeight] at hdepth
    omega
  have hproperties : (readEntries (readTo depth)
      (given manner (.obj (propertiesToJson properties)))).map Entries.sorted = .ok properties := by
    have hnodup := Entries.Increasing.nodup hordered.1
    have hread := readTo_givenMembers hordered.2 hfloats manner hvalues
    rw [given, readEntries_closed, hread]
    have hcollapsed : Entries.collapsed properties = properties :=
      Entries.collapsed_of_nodup hnodup
    have hsorted : Entries.sorted properties = properties := Entries.Increasing.sorted hordered.1
    change Except.ok (Entries.sorted (Entries.collapsed properties)) = _
    rw [hcollapsed, hsorted]
  unfold ContentItem.readWith itemToJson
  rw [given, readRecord_closed]
  refine (takeAll_field rfl rfl htype _).trans ?_
  refine (takeAll_field rfl rfl hreference _).trans ?_
  refine (takeAll_field rfl rfl hproperties _).trans ?_
  rfl

theorem readTo_givenItems {vs : List ContentValue} (hordered : ListOrdered vs)
    (hfloats : ListFloatFree vs) (manner : Json.Manner) {depth : Nat}
    (hdepth : itemsHeight (givenItems manner (valuesToJson vs)) ≤ depth) :
    readList (readTo depth) (given manner (.arr (valuesToJson vs))) = .ok vs := by
  rw [given, readList_closed]
  match vs with
  | [] => rfl
  | v :: vs =>
    simp only [valuesToJson, givenItems, itemsHeight, Nat.max_le] at hdepth
    have hfirst := readTo_given hordered.1 hfloats.1 manner hdepth.1
    have hrest := readTo_givenItems hordered.2 hfloats.2 manner hdepth.2
    rw [given, readList_closed] at hrest
    rw [valuesToJson, givenItems, List.mapM_cons, hfirst, hrest]
    rfl

theorem readTo_givenMembers {ps : List (String × ContentValue)} (hordered : PropertiesOrdered ps)
    (hfloats : PropertiesFloatFree ps) (manner : Json.Manner) {depth : Nat}
    (hdepth : membersHeight (givenMembers manner (propertiesToJson ps)) ≤ depth) :
    (givenMembers manner (propertiesToJson ps)).mapM (readMember (readTo depth)) = .ok ps := by
  match ps with
  | [] => rfl
  | (name, v) :: ps =>
    simp only [propertiesToJson, givenMembers, membersHeight, Nat.max_le] at hdepth
    have hfirst : readMember (readTo depth) (name, given manner v.toJson) = .ok (name, v) :=
      readMember_eq_ok_iff.2 ⟨rfl, readTo_given hordered.1 hfloats.1 manner hdepth.1⟩
    have hrest := readTo_givenMembers hordered.2 hfloats.2 manner hdepth.2
    rw [propertiesToJson, givenMembers, List.mapM_cons, hfirst, hrest]
    rfl

end

end ContentValue

/-! ### Nesting -/

namespace Json

mutual

/-- The number of containers on the longest way into the value. -/
def nesting : Json → Nat
  | .arr items => itemsNesting items + 1
  | .obj members => membersNesting members + 1
  | .null => 0
  | .bool _ => 0
  | .int _ => 0
  | .float _ => 0
  | .str _ => 0

/-- The greatest nesting of the items. -/
def itemsNesting : List Json → Nat
  | [] => 0
  | j :: js => max (nesting j) (itemsNesting js)

/-- The greatest nesting of the members. -/
def membersNesting : List (String × Json) → Nat
  | [] => 0
  | (_, j) :: js => max (nesting j) (membersNesting js)

end

theorem nesting_le_itemsNesting {js : List Json} {j : Json} (h : j ∈ js) :
    j.nesting ≤ itemsNesting js := by
  induction js with
  | nil => cases h
  | cons first js ih =>
    rw [itemsNesting]
    rcases List.mem_cons.1 h with rfl | hmem
    · exact Nat.le_max_left _ _
    · exact Nat.le_trans (ih hmem) (Nat.le_max_right _ _)

end Json

theorem AreaEntry.floats_toJson (e : AreaEntry) : e.toJson.floats = [] := by
  obtain ⟨r, displayOption⟩ := e
  cases displayOption <;> rfl

theorem ContentReference.fits_id (r : ContentReference) (room : Nat) :
    (Json.int r.id.toNat).Fits room := by
  have hbound := r.id.toNat_lt
  change Json.Numeral.Fits64 _
  constructor <;> omega

theorem AreaEntry.fits_toJson (e : AreaEntry) {room : Nat} (h : e.toJson.nesting ≤ room) :
    e.toJson.Fits room := by
  obtain ⟨r, displayOption⟩ := e
  have hreference := ContentReference.fits_id r
  have hroom : 0 < room := Nat.lt_of_lt_of_le (Nat.succ_pos _) h
  cases displayOption with
  | none => exact ⟨hroom, by simp, hreference _, True.intro⟩
  | some option => exact ⟨hroom, by simp, hreference _, True.intro, True.intro⟩

namespace ContentValue

mutual

theorem floats_toJson {v : ContentValue} (h : v.FloatFree) : v.toJson.floats = [] := by
  match v with
  | .null => rfl
  | .bool b => rfl
  | .integer n => rfl
  | .float x => exact h.elim
  | .text s => rfl
  | .enumeration variant => rfl
  | .url address => rfl
  | .reference target => rfl
  | .area entries =>
    have hentries : Json.itemsFloats (entries.map AreaEntry.toJson) = [] :=
      Json.itemsFloats_eq_nil (List.forall_mem_map.2 fun e _ => e.floats_toJson)
    simp only [toJson, tagged, Json.floats, Json.membersFloats, hentries, List.append_nil]
  | .xhtml markup => rfl
  | .block item =>
    have hitem := itemFloats_toJson h
    simp only [toJson, tagged, Json.floats, Json.membersFloats, hitem, List.append_nil]
  | .list values =>
    have hvalues := floats_valuesToJson h
    simp only [toJson, tagged, Json.floats, Json.membersFloats, hvalues, List.append_nil]

theorem itemFloats_toJson {item : ContentItem} (h : ItemFloatFree item) :
    (itemToJson item).floats = [] := by
  obtain ⟨contentType, r, properties⟩ := item
  have hproperties := floats_propertiesToJson h
  simp only [itemToJson, Json.floats, Json.membersFloats, hproperties, List.append_nil]

theorem floats_valuesToJson {vs : List ContentValue} (h : ListFloatFree vs) :
    Json.itemsFloats (valuesToJson vs) = [] := by
  match vs with
  | [] => rfl
  | v :: vs =>
    rw [valuesToJson, Json.itemsFloats, floats_toJson h.1, floats_valuesToJson h.2,
      List.append_nil]

theorem floats_propertiesToJson {ps : List (String × ContentValue)} (h : PropertiesFloatFree ps) :
    Json.membersFloats (propertiesToJson ps) = [] := by
  match ps with
  | [] => rfl
  | (name, v) :: ps =>
    rw [propertiesToJson, Json.membersFloats, floats_toJson h.1, floats_propertiesToJson h.2,
      List.append_nil]

end

theorem fits_tagged {kind : String} {j : Json} {room : Nat} (hroom : 0 < room)
    (h : j.Fits (room - 1)) : (tagged kind j).Fits room :=
  ⟨hroom, by simp, True.intro, h, True.intro⟩

theorem nesting_tagged (kind : String) (j : Json) :
    (tagged kind j).nesting = j.nesting + 1 := by
  simp only [tagged, Json.nesting, Json.membersNesting]
  omega

theorem names_propertiesToJson (ps : List (String × ContentValue)) :
    (propertiesToJson ps).map Prod.fst = Entries.names ps := by
  rw [propertiesToJson_eq_map, List.map_map]
  rfl

-- Each container takes one from the room, so the bound on the nesting is passed on with it.
mutual

theorem fits_toJson {v : ContentValue} (hordered : v.Ordered) {room : Nat}
    (h : v.toJson.nesting ≤ room) : v.toJson.Fits room := by
  have hroom : 0 < room := by
    refine Nat.lt_of_lt_of_le ?_ h
    cases v <;> exact Nat.succ_pos _
  match v with
  | .null => exact ⟨hroom, by simp, True.intro, True.intro⟩
  | .bool b => exact fits_tagged hroom True.intro
  | .integer n =>
    have hlow := n.le_toInt
    have hhigh := n.toInt_lt
    have hint : Json.Numeral.Fits64 n.toInt := by constructor <;> omega
    exact fits_tagged hroom hint
  | .float x => exact fits_tagged hroom True.intro
  | .text s => exact fits_tagged hroom True.intro
  | .enumeration variant => exact fits_tagged hroom True.intro
  | .url address => exact fits_tagged hroom True.intro
  | .reference target => exact fits_tagged hroom (target.fits_id _)
  | .area entries =>
    rw [toJson, nesting_tagged] at h
    simp only [Json.nesting, Json.membersNesting] at h
    have hentry : ∀ e ∈ entries, e.toJson.Fits (room - 1 - 1 - 1) := by
      intro e he
      have hle := Json.nesting_le_itemsNesting (List.mem_map_of_mem (f := AreaEntry.toJson) he)
      exact e.fits_toJson (by omega)
    have hitems : (Json.arr (entries.map AreaEntry.toJson)).Fits (room - 1 - 1) :=
      Json.fits_arr (by omega) hentry
    exact fits_tagged hroom ⟨by omega, by simp, hitems, True.intro⟩
  | .xhtml markup => exact fits_tagged hroom True.intro
  | .block item =>
    rw [toJson, nesting_tagged] at h
    exact fits_tagged hroom (itemFits_toJson hordered (by omega))
  | .list values =>
    rw [toJson, nesting_tagged, Json.nesting] at h
    exact fits_tagged hroom ⟨by omega, fits_valuesToJson hordered (by omega)⟩

theorem itemFits_toJson {item : ContentItem} (hordered : ItemOrdered item) {room : Nat}
    (h : (itemToJson item).nesting ≤ room) : (itemToJson item).Fits room := by
  obtain ⟨contentType, r, properties⟩ := item
  simp only [itemToJson, Json.nesting, Json.membersNesting] at h
  have hnames : ((propertiesToJson properties).map Prod.fst).Nodup := by
    rw [names_propertiesToJson]
    exact Entries.Increasing.nodup hordered.1
  have hproperties : (Json.obj (propertiesToJson properties)).Fits (room - 1) :=
    ⟨by omega, hnames, fits_propertiesToJson hordered.2 (by omega)⟩
  exact ⟨by omega, by simp, True.intro, r.fits_id _, hproperties, True.intro⟩

theorem fits_valuesToJson {vs : List ContentValue} (hordered : ListOrdered vs) {room : Nat}
    (h : Json.itemsNesting (valuesToJson vs) ≤ room) : Json.ItemsFit (valuesToJson vs) room := by
  match vs with
  | [] => exact True.intro
  | v :: vs =>
    rw [valuesToJson, Json.itemsNesting] at h
    exact ⟨fits_toJson hordered.1 (by omega), fits_valuesToJson hordered.2 (by omega)⟩

theorem fits_propertiesToJson {ps : List (String × ContentValue)} (hordered : PropertiesOrdered ps)
    {room : Nat} (h : Json.membersNesting (propertiesToJson ps) ≤ room) :
    Json.MembersFit (propertiesToJson ps) room := by
  match ps with
  | [] => exact True.intro
  | (name, v) :: ps =>
    rw [propertiesToJson, Json.membersNesting] at h
    exact ⟨fits_toJson hordered.1 (by omega), fits_propertiesToJson hordered.2 (by omega)⟩

end

end ContentValue

/-! ### Classes, values and items -/

/-- Every class is read back from its JSON and from its text.  So are values and items without
floating-point numbers from their JSON, however deep they are nested, and from a text of it if no
more than 127 containers enclose one another. -/
theorem reads_back :
    (∀ c : ContentClass, ContentClass.ofDocument (ofJson c.toJson) = .ok c ∧
      decodeText ContentClass.ofDocument c.toJson.compact = .ok c) ∧
    (∀ v : ContentValue, v.Ordered → v.FloatFree →
      ContentValue.ofDocument (ofJson v.toJson) = .ok v ∧
      (v.toJson.nesting ≤ nestingLimit →
        decodeText ContentValue.ofDocument v.toJson.compact = .ok v)) ∧
    (∀ item : ContentItem, ContentValue.ItemOrdered item → ContentValue.ItemFloatFree item →
      ContentItem.ofDocument (ofJson item.toJson) = .ok item ∧
      (item.toJson.nesting ≤ nestingLimit →
        decodeText ContentItem.ofDocument item.toJson.compact = .ok item)) := by
  refine ⟨fun c => ⟨?_, c.decodeText_compact⟩, fun v hordered hfloats => ⟨?_, fun hnesting => ?_⟩,
    fun item hordered hfloats => ⟨?_, fun hnesting => ?_⟩⟩
  · rw [ofJson_eq_given]
    exact c.recovers_toJson .held
  · rw [ofJson_eq_given]
    exact ContentValue.readTo_given hordered hfloats .held (Nat.le_refl _)
  · have htext := ofText_compact (ContentValue.fits_toJson hordered hnesting)
    rw [decodeText_of_ofText htext, streamed_eq_given (ContentValue.floats_toJson hfloats)]
    exact ContentValue.readTo_given hordered hfloats .streamed (Nat.le_refl _)
  · rw [ofJson_eq_given]
    exact ContentValue.readWith_given hordered hfloats .held (Nat.le_refl _)
  · have htext := ofText_compact (ContentValue.itemFits_toJson hordered hnesting)
    unfold ContentItem.toJson
    rw [decodeText_of_ofText htext, streamed_eq_given (ContentValue.itemFloats_toJson hfloats)]
    exact ContentValue.readWith_given hordered hfloats .streamed (Nat.le_refl _)

/-- A page with an area, a teaser and a list in it. -/
def nestedPage : ContentItem :=
  ⟨"Page", ⟨7⟩, [("area", .area [⟨⟨3⟩, some "wide"⟩, ⟨⟨4⟩, none⟩]),
    ("blocks", .list [.block ⟨"Teaser", ⟨0⟩, [("count", .integer (-2)), ("image", .null)]⟩,
      .list []])]⟩

theorem reads_back_nestedPage :
    decodeText ContentItem.ofDocument nestedPage.toJson.compact = .ok nestedPage ∧
      ContentValue.ofDocument (ofJson (ContentValue.block nestedPage).toJson) =
        .ok (.block nestedPage) := by
  have hpage : List.Pairwise (· < ·) ["area", "blocks"] := by decide
  have hteaser : List.Pairwise (· < ·) ["count", "image"] := by decide
  have hordered : ContentValue.ItemOrdered nestedPage :=
    ⟨hpage, True.intro, ⟨⟨hteaser, True.intro, True.intro, True.intro⟩, True.intro, True.intro⟩,
      True.intro⟩
  have hfloats : ContentValue.ItemFloatFree nestedPage :=
    ⟨True.intro, ⟨⟨True.intro, True.intro, True.intro⟩, True.intro, True.intro⟩, True.intro⟩
  have hnesting : nestedPage.toJson.nesting ≤ nestingLimit := by decide
  exact ⟨(reads_back.2.2 nestedPage hordered hfloats).2 hnesting,
    (reads_back.2.1 (.block nestedPage) hordered hfloats).1⟩

/-! ### Deeper values -/

namespace Json.Document

mutual

theorem within_putAside? {d aside : Document} (h : d.putAside? = some aside) {room : Nat}
    (hwithin : d.Within room) : aside.Within room := by
  match d with
  | .arr items (.closed _) =>
    obtain ⟨ds, hds, rfl⟩ := Option.map_eq_some_iff.1 h
    exact ⟨hwithin.1, within_itemsPutAside? hds hwithin.2⟩
  | .obj members (.closed _) =>
    obtain ⟨ds, hds, rfl⟩ := Option.map_eq_some_iff.1 h
    exact ⟨hwithin.1, within_membersPutAside? hds hwithin.2⟩
  | .arr _ (.cut _) => cases h
  | .obj _ (.cut _) => cases h
  | .fault _ => cases h
  | .null => exact Option.some.inj h ▸ hwithin
  | .bool _ => exact Option.some.inj h ▸ hwithin
  | .int _ => exact Option.some.inj h ▸ hwithin
  | .float _ => exact Option.some.inj h ▸ hwithin
  | .str _ => exact Option.some.inj h ▸ hwithin
  | .notFinite => exact Option.some.inj h ▸ hwithin

theorem within_itemsPutAside? {ds asides : List Document} (h : itemsPutAside? ds = some asides)
    {room : Nat} (hwithin : ItemsWithin ds room) : ItemsWithin asides room := by
  match ds with
  | [] =>
    cases h
    exact True.intro
  | d :: ds =>
    simp only [itemsPutAside?, Option.bind_eq_bind, Option.bind_eq_some_iff, Option.some.injEq] at h
    obtain ⟨first, hfirst, rest, hrest, rfl⟩ := h
    exact ⟨within_putAside? hfirst hwithin.1, within_itemsPutAside? hrest hwithin.2⟩

theorem within_membersPutAside? {ds asides : List (String × Document)}
    (h : membersPutAside? ds = some asides) {room : Nat} (hwithin : MembersWithin ds room) :
    MembersWithin asides room := by
  match ds with
  | [] =>
    cases h
    exact True.intro
  | (name, d) :: ds =>
    simp only [membersPutAside?, Option.bind_eq_bind, Option.bind_eq_some_iff, Option.some.injEq]
      at h
    obtain ⟨first, hfirst, rest, hrest, rfl⟩ := h
    exact ⟨within_putAside? hfirst hwithin.1, within_membersPutAside? hrest hwithin.2⟩

end

/-- What has been read of a record comes from content within the room. -/
def Adjacent.FromWithin {κ α : Type} (read : κ → Document → Except Fault α) (room : Nat) :
    Adjacent κ α → Prop
  | .unread => True
  | .tagged _ => True
  | .waiting c => c.Within room
  | .complete value => ∃ k inner, inner.Within room ∧ read k inner = .ok value

variable {κ α : Type} {tag content : String} {variants : List (String × κ)}
  {read : κ → Document → Except Fault α} {absent? : κ → Option α}

theorem fromWithin_step {room : Nat} {state next : Adjacent κ α} {member : String × Document}
    (hstate : state.FromWithin read room) (hmember : member.2.Within room)
    (h : readAdjacent.step tag content variants read state member = .ok next) :
    next.FromWithin read room := by
  have complete {k : κ} {inner : Document} (hinner : inner.Within room)
      (hread : (read k inner).map Adjacent.complete = .ok next) : next.FromWithin read room := by
    cases hvalue : read k inner with
    | error fault =>
      rw [hvalue] at hread
      cases hread
    | ok value =>
      rw [hvalue] at hread
      cases hread
      exact ⟨k, inner, hinner, hvalue⟩
  unfold readAdjacent.step at h
  dsimp only at h
  split at h
  · split at h
    · cases hvariant : readVariant variants member.2 with
      | error fault =>
        rw [hvariant] at h
        cases h
      | ok k =>
        rw [hvariant] at h
        cases h
        exact True.intro
    · obtain ⟨k, -, hread⟩ := bind_eq_ok_iff.1 h
      exact complete hstate hread
    · cases h
    · cases h
  · split at h
    · split at h
      · split at h
        · rename_i haside
          cases h
          exact within_putAside? haside hmember
        · cases h
      · exact complete hmember h
      · cases h
      · cases h
    · obtain rfl : state = next := Except.ok.inj (of_ite_ok h)
      exact hstate

/-- The value of a record is that of a variant without content, or is read from content that lies
in the record. -/
theorem exists_of_readAdjacent {room : Nat} {d : Document} (hwithin : d.Within room) {value : α}
    (h : readAdjacent tag content variants read absent? d = .ok value) :
    (∃ k, absent? k = some value) ∨
      ∃ k inner, 0 < room ∧ inner.Within (room - 1) ∧ read k inner = .ok value := by
  unfold readAdjacent at h
  split at h
  -- an object: the content may come before its variant and is then put aside
  · rename_i members stop
    obtain ⟨hroom, hmembers⟩ := hwithin
    obtain ⟨state, hstate, hclosed⟩ := bind_eq_ok_iff.1 h
    have hunread : (Adjacent.unread : Adjacent κ α).FromWithin read (room - 1) := True.intro
    have hfrom : state.FromWithin read (room - 1) :=
      foldlM_sound (fun e he acc next hacc hnext => fromWithin_step hacc
        ((membersWithin_iff _ _).1 hmembers e he) hnext) hunread hstate
    have hfinish := of_ite_ok hclosed
    unfold readAdjacent.finish at hfinish
    split at hfinish
    · cases hfinish
      obtain ⟨k, inner, hinner, hread⟩ := hfrom
      exact .inr ⟨k, inner, hroom, hinner, hread⟩
    · split at hfinish
      · rename_i habsent
        cases hfinish
        exact .inl ⟨_, habsent⟩
      · cases hfinish
    · cases hfinish
    · cases hfinish
  -- an array of the variant and its content
  · rename_i first second rest stop
    obtain ⟨hroom, -, hsecond, -⟩ := hwithin
    obtain ⟨k, -, hrest⟩ := bind_eq_ok_iff.1 h
    obtain ⟨v, hread, hleft⟩ := bind_eq_ok_iff.1 hrest
    obtain rfl : v = value := Except.ok.inj (of_ite_ok hleft)
    exact .inr ⟨k, second, hroom, hsecond, hread⟩
  · obtain ⟨k, -, hrest⟩ := bind_eq_ok_iff.1 h
    cases hrest
  · cases h

end Json.Document

namespace ContentValue

theorem readKind_eq_list {read : Json.Document → Except Json.Fault ContentValue} {k : Kind}
    {d : Json.Document} {vs : List ContentValue} (h : readKind read k d = .ok (.list vs)) :
    d.readList read = .ok vs := by
  have other {β : Type} {x : Except Json.Fault β} {f : β → ContentValue}
      (hf : ∀ y, f y ≠ .list vs) (hmap : x.map f = .ok (.list vs)) : d.readList read = .ok vs := by
    obtain ⟨y, -, hy⟩ := map_eq_ok_iff.1 hmap
    exact absurd hy (hf y)
  cases k with
  | list =>
    obtain ⟨values, hvalues, heq⟩ := map_eq_ok_iff.1 h
    obtain rfl : values = vs := ContentValue.list.inj heq
    exact hvalues
  | null =>
    have hnull : nullOfDocument d = .ok (.list vs) := h
    cases d <;> cases hnull
  | bool => exact other (f := bool) (fun _ => nofun) h
  | integer => exact other (f := integer) (fun _ => nofun) h
  | float => exact other (f := float) (fun _ => nofun) h
  | text => exact other (f := text) (fun _ => nofun) h
  | enumeration => exact other (f := enumeration) (fun _ => nofun) h
  | url => exact other (f := url) (fun _ => nofun) h
  | reference => exact other (f := reference) (fun _ => nofun) h
  | area => exact other (f := area) (fun _ => nofun) h
  | xhtml => exact other (f := xhtml) (fun _ => nofun) h
  | block => exact other (f := block) (fun _ => nofun) h

/-- The values of a list are decoded from two containers further in. -/
theorem exists_of_readTo_list {depth room : Nat} {d : Json.Document} (hwithin : d.Within room)
    {vs : List ContentValue} (h : readTo (depth + 1) d = .ok (.list vs)) :
    2 ≤ room ∧ ∀ v ∈ vs, ∃ item : Json.Document, item.Within (room - 2) ∧
      readTo depth item = .ok v := by
  obtain ⟨k, habsent⟩ | ⟨k, inner, hroom, hinner, hread⟩ := exists_of_readAdjacent hwithin h
  · have hnone : absent? k ≠ some (.list vs) := by cases k <;> exact nofun
    exact absurd habsent hnone
  · have hlist := readKind_eq_list hread
    unfold readList at hlist
    split at hlist
    · obtain ⟨hinside, hitems⟩ := hinner
      obtain ⟨values, hvalues, hclosed⟩ := bind_eq_ok_iff.1 hlist
      obtain rfl : values = vs := Except.ok.inj (of_ite_ok hclosed)
      refine ⟨by omega, fun v hv => ?_⟩
      obtain ⟨item, hitem, hvalue⟩ := exists_of_mapM hvalues hv
      exact ⟨item, (itemsWithin_iff _ _).1 hitems item hitem, hvalue⟩
    · cases hlist

/-- A list with nothing but a list in it, and so on to a depth. -/
def nestedLists : Nat → ContentValue
  | 0 => .list []
  | n + 1 => .list [nestedLists n]

theorem nestedLists_of_readTo {n depth room : Nat} {d : Json.Document} (hwithin : d.Within room)
    (h : readTo depth d = .ok (nestedLists n)) : 2 * (n + 1) ≤ room := by
  induction n generalizing depth room d with
  | zero =>
    cases depth with
    | zero => cases h
    | succ depth => exact (exists_of_readTo_list hwithin h).1
  | succ n ih =>
    cases depth with
    | zero => cases h
    | succ depth =>
      obtain ⟨hroom, hvalues⟩ := exists_of_readTo_list hwithin h
      obtain ⟨item, hitem, hread⟩ := hvalues _ (List.mem_singleton_self _)
      have hrest := ih hitem hread
      omega

/-- No text gives lists that are nested deeper than its containers may be. -/
theorem nestedLists_of_decodeText {n : Nat} {text : String}
    (h : decodeText ofDocument text = .ok (nestedLists n)) : 2 * (n + 1) ≤ nestingLimit := by
  obtain ⟨value, hread, hended⟩ := bind_eq_ok_iff.1 h
  obtain rfl : value = nestedLists n := Except.ok.inj (of_ite_ok hended)
  exact nestedLists_of_readTo (within_ofText text) hread

theorem ordered_nestedLists (n : Nat) : (nestedLists n).Ordered := by
  induction n with
  | zero => exact True.intro
  | succ n ih => exact ⟨ih, True.intro⟩

theorem floatFree_nestedLists (n : Nat) : (nestedLists n).FloatFree := by
  induction n with
  | zero => exact True.intro
  | succ n ih => exact ⟨ih, True.intro⟩

/-- 64 lists within one another are not read back from their text, in which each of them takes two
containers. -/
theorem nestedLists_not_read_back :
    (nestedLists 63).Ordered ∧ (nestedLists 63).FloatFree ∧
      decodeText ofDocument (nestedLists 63).toJson.compact ≠ .ok (nestedLists 63) := by
  refine ⟨ordered_nestedLists 63, floatFree_nestedLists 63, fun h => ?_⟩
  have hnesting := nestedLists_of_decodeText h
  exact absurd hnesting (by decide)

end ContentValue

end ContentLoom

import ContentLoom.Json.Decode
import ContentLoom.Proofs.Dictionaries
import ContentLoom.Proofs.JsonText
import Mathlib.Data.List.Forall2

/-!
# Reading back what was written

A decoder restores a value where it gives it for the document that the text of
its JSON is read as.  A list is restored where its items are, and named entries
where their values are.
-/

namespace ContentLoom.Json.Document

variable {α : Type}

/-- The decoder gives the value for what the text of the JSON is read as. -/
def Restores (read : Document → Except Fault α) (j : Json) (value : α) : Prop :=
  read (streamed j) = .ok value

/-! ### Plain values -/

theorem restores_text (text : String) : Restores readText (.str text) text := rfl

/-! ### Lists and entries -/

theorem bind_eq_ok_iff {ε β γ : Type} {x : Except ε β} {f : β → Except ε γ} {r : γ} :
    x >>= f = .ok r ↔ ∃ y, x = .ok y ∧ f y = .ok r := by
  cases x with
  | error e => exact ⟨nofun, fun ⟨_, h, _⟩ => nomatch h⟩
  | ok y => exact ⟨fun h => ⟨y, rfl, h⟩, fun ⟨_, hy, h⟩ => Except.ok.inj hy ▸ h⟩

theorem map_eq_ok_iff {ε β γ : Type} {f : β → γ} {x : Except ε β} {r : γ} :
    x.map f = .ok r ↔ ∃ y, x = .ok y ∧ f y = r := by
  cases x with
  | error e => exact ⟨nofun, fun ⟨_, h, _⟩ => nomatch h⟩
  | ok y =>
    constructor
    · exact fun h => ⟨y, rfl, Except.ok.inj h⟩
    · rintro ⟨z, hz, rfl⟩
      rw [Except.ok.inj hz]
      rfl

theorem mapM_eq_ok_iff {ε β γ : Type} {f : β → Except ε γ} {xs : List β} {ys : List γ} :
    xs.mapM f = .ok ys ↔ List.Forall₂ (fun x y => f x = .ok y) xs ys := by
  induction xs generalizing ys with
  | nil =>
    have hnil : ([] : List β).mapM f = .ok [] := rfl
    rw [hnil, Except.ok.injEq, List.forall₂_nil_left_iff, eq_comm]
  | cons x xs ih =>
    rw [List.mapM_cons, List.forall₂_cons_left_iff, bind_eq_ok_iff]
    simp only [bind_eq_ok_iff, ih]
    constructor
    · rintro ⟨y, hy, zs, hzs, hvalues⟩
      exact ⟨y, zs, hy, hzs, (Except.ok.inj hvalues).symm⟩
    · rintro ⟨y, zs, hy, hzs, rfl⟩
      exact ⟨y, hy, zs, hzs, rfl⟩

theorem exists_of_mapM {ε β γ : Type} {f : β → Except ε γ} {xs : List β} {ys : List γ}
    (h : xs.mapM f = .ok ys) {y : γ} (hy : y ∈ ys) : ∃ x ∈ xs, f x = .ok y := by
  induction mapM_eq_ok_iff.1 h with
  | nil => cases hy
  | @cons x z xs zs hz hzs ih =>
    rcases List.mem_cons.1 hy with rfl | hy
    · exact ⟨x, List.mem_cons_self .., hz⟩
    · obtain ⟨w, hw, hread⟩ := ih (mapM_eq_ok_iff.2 hzs) hy
      exact ⟨w, List.mem_cons_of_mem _ hw, hread⟩

theorem restores_list {read : Document → Except Fault α} {write : α → Json} {xs : List α} :
    Restores (readList read) (.arr (xs.map write)) xs ↔ ∀ x ∈ xs, Restores read (write x) x := by
  have hlist : readList read (streamed (.arr (xs.map write))) =
      (xs.map fun x => streamed (write x)).mapM read >>= .ok := by
    rw [streamed, streamedItems_eq_map, List.map_map]
    rfl
  rw [Restores, hlist, bind_eq_ok_iff]
  simp only [Except.ok.injEq, exists_eq_right]
  rw [mapM_eq_ok_iff, List.forall₂_map_left_iff, List.forall₂_same]
  exact Iff.rfl

/-- A member whose value is decoded. -/
def readMember (read : Document → Except Fault α) (member : String × Document) :
    Except Fault (String × α) := do
  let value ← read member.2
  pure (member.1, value)

theorem readMember_eq_ok_iff {read : Document → Except Fault α} {member : String × Document}
    {e : String × α} :
    readMember read member = .ok e ↔ e.1 = member.1 ∧ read member.2 = .ok e.2 := by
  rw [readMember, bind_eq_ok_iff]
  constructor
  · rintro ⟨value, hread, hpair⟩
    obtain rfl : (member.1, value) = e := Except.ok.inj hpair
    exact ⟨rfl, hread⟩
  · rintro ⟨hname, hread⟩
    exact ⟨e.2, hread, congrArg (fun name => Except.ok (name, e.2)) hname.symm⟩

theorem names_of_mapM_readMember {read : Document → Except Fault α}
    {members : List (String × Document)} {es : Entries α}
    (h : members.mapM (readMember read) = .ok es) : es.names = members.map Prod.fst := by
  induction mapM_eq_ok_iff.1 h with
  | nil => rfl
  | @cons member e members es he hes ih =>
    exact congrArg₂ List.cons (readMember_eq_ok_iff.1 he).1 (ih (mapM_eq_ok_iff.2 hes))

theorem readEntries_closed (read : Document → Except Fault α) (members : List (String × Document))
    (manner : Manner) :
    readEntries read (.obj members (.closed manner)) =
      members.mapM (readMember read) >>= fun es => .ok (Entries.collapsed es) := rfl

theorem restores_entries {read : Document → Except Fault α} {write : α → Json} {es : Entries α}
    (hnodup : es.names.Nodup) :
    Restores (readEntries read) (.obj (es.map fun e => (e.1, write e.2))) es ↔
      ∀ e ∈ es, Restores read (write e.2) e.2 := by
  have hmembers : streamed (.obj (es.map fun e => (e.1, write e.2))) =
      .obj (es.map fun e => (e.1, streamed (write e.2))) (.closed .streamed) := by
    rw [streamed, streamedMembers_eq_map, List.map_map]
    rfl
  have hvalues : (es.map fun e => (e.1, streamed (write e.2))).mapM (readMember read) = .ok es ↔
      ∀ e ∈ es, Restores read (write e.2) e.2 := by
    rw [mapM_eq_ok_iff, List.forall₂_map_left_iff, List.forall₂_same]
    simp only [readMember_eq_ok_iff, true_and]
    exact Iff.rfl
  rw [Restores, hmembers, readEntries_closed, bind_eq_ok_iff, ← hvalues]
  constructor
  · rintro ⟨values, hread, hcollapsed⟩
    have hnames : Entries.names values = es.names := by
      rw [names_of_mapM_readMember hread, List.map_map]
      rfl
    rw [hread, ← Except.ok.inj hcollapsed, Entries.collapsed_of_nodup (hnames ▸ hnodup)]
  · intro hread
    exact ⟨es, hread, congrArg Except.ok (Entries.collapsed_of_nodup hnodup)⟩

end ContentLoom.Json.Document

namespace ContentLoom.Json

/-! ### Values -/

mutual

/-- The floating-point numbers of a value. -/
def floats : Json → List Binary64
  | .float x => [x]
  | .arr items => itemsFloats items
  | .obj members => membersFloats members
  | .null => []
  | .bool _ => []
  | .int _ => []
  | .str _ => []

/-- The floating-point numbers of items. -/
def itemsFloats : List Json → List Binary64
  | [] => []
  | j :: js => floats j ++ itemsFloats js

/-- The floating-point numbers of members. -/
def membersFloats : List (String × Json) → List Binary64
  | [] => []
  | (_, j) :: js => floats j ++ membersFloats js

end

/-- The number is read back from its text. -/
def Restored (x : Binary64) : Prop := read? (floatText x) = some (.float x)

namespace Document

theorem streamed_float_iff (x : Binary64) :
    (streamed (.float x)).toJson? = some (.float x) ↔ Restored x := by
  have hfits : (Json.float x).Fits nestingLimit := True.intro
  have htext : floatText x = (Json.float x).compact := by
    rw [compact, compactChars, String.ofList_toList]
  rw [Restored, read?, htext, ofText_compact hfits]

theorem names_membersToJson? {ds : List (String × Document)} {js : List (String × Json)}
    (h : membersToJson? ds = some js) : Entries.names js = ds.map Prod.fst := by
  induction ds generalizing js with
  | nil =>
    cases h
    rfl
  | cons e ds ih =>
    obtain ⟨name, d⟩ := e
    simp only [membersToJson?, Option.bind_eq_bind, Option.bind_eq_some_iff, Option.some.injEq] at h
    obtain ⟨j, -, js, hjs, rfl⟩ := h
    exact congrArg (name :: ·) (ih hjs)

mutual

/-- A value is read back from its text if and only if its floating-point numbers are. -/
theorem toJson?_streamed_iff {j : Json} {room : Nat} (h : j.Fits room) :
    (streamed j).toJson? = some j ↔ ∀ x ∈ j.floats, Restored x := by
  match j with
  | .null => simp [streamed, toJson?, floats]
  | .bool b => simp [streamed, toJson?, floats]
  | .int n => simp [streamed, toJson?, floats]
  | .str t => simp [streamed, toJson?, floats]
  | .float x =>
    rw [streamed_float_iff, floats]
    simp
  | .arr items =>
    rw [streamed, toJson?, floats, ← itemsToJson?_streamed_iff h.2]
    simp
  | .obj members =>
    rw [streamed, toJson?, floats, ← membersToJson?_streamed_iff h.2.2]
    constructor
    · intro hvalue
      obtain ⟨back, hback, hobject⟩ := Option.map_eq_some_iff.1 hvalue
      have hnames : Entries.names back = Entries.names members := by
        rw [names_membersToJson? hback, streamedMembers_eq_map, List.map_map]
        rfl
      have hsame : Entries.collapsed back = members := Json.obj.inj hobject
      rw [Entries.collapsed_of_nodup (hnames ▸ h.2.1)] at hsame
      rw [hback, hsame]
    · intro hback
      rw [hback]
      exact congrArg (fun es => some (Json.obj es)) (Entries.collapsed_of_nodup h.2.1)

theorem itemsToJson?_streamed_iff {js : List Json} {room : Nat} (h : ItemsFit js room) :
    itemsToJson? (streamedItems js) = some js ↔ ∀ x ∈ itemsFloats js, Restored x := by
  match js with
  | [] => simp [streamedItems, itemsToJson?, itemsFloats]
  | j :: js =>
    rw [itemsFloats, List.forall_mem_append, ← toJson?_streamed_iff h.1,
      ← itemsToJson?_streamed_iff h.2]
    simp [streamedItems, itemsToJson?, Option.bind_eq_some_iff]

theorem membersToJson?_streamed_iff {js : List (String × Json)} {room : Nat}
    (h : MembersFit js room) :
    membersToJson? (streamedMembers js) = some js ↔ ∀ x ∈ membersFloats js, Restored x := by
  match js with
  | [] => simp [streamedMembers, membersToJson?, membersFloats]
  | (name, j) :: js =>
    rw [membersFloats, List.forall_mem_append, ← toJson?_streamed_iff h.1,
      ← membersToJson?_streamed_iff h.2]
    simp [streamedMembers, membersToJson?, Option.bind_eq_some_iff]

end

theorem restores_json_iff {j : Json} {room : Nat} (h : j.Fits room) :
    Restores readJson j j ↔ ∀ x ∈ j.floats, Restored x := by
  rw [← toJson?_streamed_iff h, Restores, readJson]
  cases (streamed j).toJson? <;> simp

/-! ### Whole texts -/

theorem decodeText_of_ofText {α : Type} {read : Document → Except Fault α} {text : String}
    {d : Document} (h : ofText text = (d, true)) : decodeText read text = read d := by
  unfold decodeText
  rw [h]
  change Except.bind (read d) .ok = read d
  cases read d <;> rfl

end Document

end ContentLoom.Json

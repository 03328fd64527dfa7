import ContentLoom.Proofs.RecordText

/-!
# What is decoded from a text

The reader gives a document whose integers have 64 bits and in which no more
than 127 containers enclose one another.  What a decoder takes from it keeps to
these limits when it is written again.
-/

namespace ContentLoom.Json

theorem Numeral.fits64_of_toJson? {n : Numeral} {m : Int} (h : n.toJson? = some (.int m)) :
    Fits64 m := by
  unfold toJson? at h
  unfold Fits64
  split at h
  · dsimp only at h
    split at h
    · split at h
      · rename_i hvalue
        cases h
        omega
      · simp at h
    · split at h
      · rename_i hvalue
        cases h
        unfold significandLimit at hvalue
        omega
      · simp at h
  · simp at h

namespace Document

/-! ### Documents of texts -/

mutual

/-- Integers have 64 bits, and at most `room` containers enclose one another. -/
def Within : Document → Nat → Prop
  | .int n, _ => Numeral.Fits64 n
  | .arr items _, room => 0 < room ∧ ItemsWithin items (room - 1)
  | .obj members _, room => 0 < room ∧ MembersWithin members (room - 1)
  | .null, _ => True
  | .bool _, _ => True
  | .float _, _ => True
  | .str _, _ => True
  | .notFinite, _ => True
  | .fault _, _ => True

/-- All items keep within the room. -/
def ItemsWithin : List Document → Nat → Prop
  | [], _ => True
  | d :: ds, room => Within d room ∧ ItemsWithin ds room

/-- The values of all members keep within the room. -/
def MembersWithin : List (String × Document) → Nat → Prop
  | [], _ => True
  | (_, d) :: ds, room => Within d room ∧ MembersWithin ds room

end

theorem itemsWithin_iff (ds : List Document) (room : Nat) :
    ItemsWithin ds room ↔ ∀ d ∈ ds, d.Within room := by
  induction ds with
  | nil => simp [ItemsWithin]
  | cons d ds ih => simp [ItemsWithin, ih]

theorem membersWithin_iff (ds : List (String × Document)) (room : Nat) :
    MembersWithin ds room ↔ ∀ e ∈ ds, e.2.Within room := by
  induction ds with
  | nil => simp [MembersWithin]
  | cons e ds ih =>
    obtain ⟨name, d⟩ := e
    simp [MembersWithin, ih]

theorem within_withinLimit {depth : Nat} {container : Document} (goesOn : Bool)
    (h : depth < nestingLimit → container.Within (nestingLimit - depth)) :
    (withinLimit depth container goesOn).Within (nestingLimit - depth) := by
  unfold withinLimit
  split
  · rename_i hdepth
    exact h hdepth
  · exact True.intro

-- The induction is on the fuel, as in the reader.
mutual

theorem within_readValue (fuel depth : Nat) (cs : List Char) :
    (readValue fuel depth cs).1.Within (nestingLimit - depth) := by
  match fuel with
  | 0 =>
    rw [readValue]
    exact True.intro
  | fuel + 1 =>
    rw [readValue]
    split
    · split <;> exact True.intro
    · rename_i rest _
      refine within_withinLimit _ fun hdepth => ⟨by omega, ?_⟩
      split
      · exact True.intro
      · exact within_readItems fuel (depth + 1) _
    · rename_i rest _
      refine within_withinLimit _ fun hdepth => ⟨by omega, ?_⟩
      split
      · exact True.intro
      · exact within_readMembers fuel (depth + 1) _
    · exact True.intro
    · exact True.intro
    · exact True.intro
    · split
      · split
        · rename_i hvalue
          exact Numeral.fits64_of_toJson? hvalue
        · exact True.intro
        · exact True.intro
      · exact True.intro

theorem within_readItems (fuel depth : Nat) (cs : List Char) :
    ItemsWithin (readItems fuel depth cs).1 (nestingLimit - depth) := by
  match fuel with
  | 0 =>
    rw [readItems]
    exact True.intro
  | fuel + 1 =>
    have hitem := within_readValue fuel depth cs
    rw [readItems]
    split
    · rename_i hread
      rw [hread] at hitem
      exact ⟨hitem, True.intro⟩
    · rename_i hread
      rw [hread] at hitem
      split
      · exact ⟨hitem, True.intro⟩
      · exact ⟨hitem, within_readItems fuel depth _⟩
      · exact ⟨hitem, True.intro⟩

theorem within_readMembers (fuel depth : Nat) (cs : List Char) :
    MembersWithin (readMembers fuel depth cs).1 (nestingLimit - depth) := by
  match fuel with
  | 0 =>
    rw [readMembers]
    exact True.intro
  | fuel + 1 =>
    have hvalue (rest : List Char) : Within (match skipSpace rest with
        | ':' :: rest => readValue fuel depth rest
        | _ => (.fault false, none)).1 (nestingLimit - depth) := by
      split
      · exact within_readValue fuel depth _
      · exact True.intro
    have hmembers (rest : Option (List Char)) : MembersWithin (match rest with
        | none => ([], Stop.cut false, none)
        | some rest =>
          match skipSpace rest with
          | '}' :: rest => ([], Stop.closed .streamed, some rest)
          | ',' :: rest => readMembers fuel depth rest
          | _ => ([], Stop.cut false, none)).1 (nestingLimit - depth) := by
      split
      · exact True.intro
      · split
        · exact True.intro
        · exact within_readMembers fuel depth _
        · exact True.intro
    rw [readMembers]
    split
    · split
      · exact True.intro
      · rename_i name rest _
        cases name with
        | none => exact True.intro
        | some name => exact ⟨hvalue rest, hmembers _⟩
    · exact True.intro

end

theorem within_ofText (text : String) : (ofText text).1.Within nestingLimit := by
  have hvalue := within_readValue (2 * text.toList.length + 2) 0 text.toList
  unfold ofText
  dsimp only
  split
  · rename_i hread
    rw [hread] at hvalue
    exact hvalue
  · rename_i hread
    rw [hread] at hvalue
    exact hvalue

/-! ### Values of documents -/

mutual

theorem fits_of_toJson? {d : Document} {room : Nat} (h : d.Within room) {j : Json}
    (hvalue : d.toJson? = some j) : j.Fits room := by
  match d with
  | .null =>
    cases hvalue
    exact True.intro
  | .bool b =>
    cases hvalue
    exact True.intro
  | .int n =>
    cases hvalue
    exact h
  | .float x =>
    cases hvalue
    exact True.intro
  | .str t =>
    cases hvalue
    exact True.intro
  | .notFinite =>
    cases hvalue
    exact True.intro
  | .arr items (.closed _) =>
    rw [toJson?] at hvalue
    obtain ⟨js, hjs, rfl⟩ := Option.map_eq_some_iff.1 hvalue
    exact ⟨h.1, fits_of_itemsToJson? h.2 hjs⟩
  | .obj members (.closed _) =>
    rw [toJson?] at hvalue
    obtain ⟨js, hjs, rfl⟩ := Option.map_eq_some_iff.1 hvalue
    have hmembers := (Json.membersFit_iff js _).1 (fits_of_membersToJson? h.2 hjs)
    refine ⟨h.1, Entries.nodup_collapsed js, ?_⟩
    exact (Json.membersFit_iff _ _).2 fun e he => hmembers e (Entries.mem_of_mem_collapsed he)

theorem fits_of_itemsToJson? {ds : List Document} {room : Nat} (h : ItemsWithin ds room)
    {js : List Json} (hvalue : itemsToJson? ds = some js) : Json.ItemsFit js room := by
  match ds with
  | [] =>
    cases hvalue
    exact True.intro
  | d :: ds =>
    simp only [itemsToJson?, Option.bind_eq_bind, Option.bind_eq_some_iff, Option.some.injEq]
      at hvalue
    obtain ⟨j, hj, js, hjs, rfl⟩ := hvalue
    exact ⟨fits_of_toJson? h.1 hj, fits_of_itemsToJson? h.2 hjs⟩

theorem fits_of_membersToJson? {ds : List (String × Document)} {room : Nat}
    (h : MembersWithin ds room) {js : List (String × Json)} (hvalue : membersToJson? ds = some js) :
    Json.MembersFit js room := by
  match ds with
  | [] =>
    cases hvalue
    exact True.intro
  | (name, d) :: ds =>
    simp only [membersToJson?, Option.bind_eq_bind, Option.bind_eq_some_iff, Option.some.injEq]
      at hvalue
    obtain ⟨j, hj, js, hjs, rfl⟩ := hvalue
    exact ⟨fits_of_toJson? h.1 hj, fits_of_membersToJson? h.2 hjs⟩

end

/-! ### Sound decoders -/

/-- What is read from a document has the property, and keeps to the limits of the document when it
is written. -/
def Sound {α : Type} (read : Document → Except Fault α) (write : α → Json) (P : α → Prop) : Prop :=
  ∀ room d value, d.Within room → read d = .ok value → (write value).Fits room ∧ P value

theorem sound_readJson : Sound readJson id fun j => ∃ room, j.Fits room := by
  intro room d value hwithin hread
  unfold readJson at hread
  split at hread
  · rename_i hvalue
    cases hread
    have hfits := fits_of_toJson? hwithin hvalue
    exact ⟨hfits, room, hfits⟩
  · cases hread

theorem of_ite_ok {α : Type} {c : Prop} [Decidable c] {x : Except Fault α} {fault : Fault} {r : α}
    (h : (if c then x else .error fault) = .ok r) : x = .ok r := by
  split at h
  · exact h
  · cases h

variable {α δ : Type} {read : Document → Except Fault α} {write : α → Json} {P : α → Prop}

theorem sound_readOption (h : Sound read write P) :
    Sound (readOption read) (fun slot => (slot.map write).getD .null) fun slot =>
      ∀ x ∈ slot, P x := by
  intro room d slot hwithin hread
  unfold readOption at hread
  split at hread
  · cases hread
    exact ⟨True.intro, nofun⟩
  · cases hvalue : read d with
    | error fault =>
      rw [hvalue] at hread
      cases hread
    | ok x =>
      rw [hvalue] at hread
      cases hread
      have hx := h room d x hwithin hvalue
      exact ⟨hx.1, fun y hy => Option.some.inj hy ▸ hx.2⟩

theorem sound_readList (h : Sound read write P) :
    Sound (readList read) (fun xs => .arr (xs.map write)) fun xs => ∀ x ∈ xs, P x := by
  intro room d values hwithin hread
  unfold readList at hread
  split at hread
  · rename_i items stop
    obtain ⟨hroom, hitems⟩ := hwithin
    obtain ⟨xs, hxs, hclosed⟩ := bind_eq_ok_iff.1 hread
    obtain rfl : xs = values := Except.ok.inj (of_ite_ok hclosed)
    have heach (x : α) (hx : x ∈ xs) : (write x).Fits (room - 1) ∧ P x := by
      obtain ⟨item, hitem, hvalue⟩ := exists_of_mapM hxs hx
      exact h _ item x ((itemsWithin_iff _ _).1 hitems item hitem) hvalue
    exact ⟨Json.fits_arr hroom fun x hx => (heach x hx).1, fun x hx => (heach x hx).2⟩
  · cases hread

theorem sound_readEntries (h : Sound read write P) :
    Sound (readEntries read) (fun es => .obj (es.map fun e => (e.1, write e.2))) fun es =>
      es.names.Nodup ∧ ∀ e ∈ es, P e.2 := by
  intro room d values hwithin hread
  unfold readEntries at hread
  split at hread
  · rename_i members stop
    obtain ⟨hroom, hmembers⟩ := hwithin
    obtain ⟨es, hes, hclosed⟩ := bind_eq_ok_iff.1 hread
    obtain rfl : Entries.collapsed es = values := Except.ok.inj (of_ite_ok hclosed)
    have heach (e : String × α) (he : e ∈ Entries.collapsed es) :
        (write e.2).Fits (room - 1) ∧ P e.2 := by
      obtain ⟨member, hmember, hvalue⟩ := exists_of_mapM hes (Entries.mem_of_mem_collapsed he)
      exact h _ member.2 e.2 ((membersWithin_iff _ _).1 hmembers member hmember)
        (readMember_eq_ok_iff.1 hvalue).2
    have hnodup := Entries.nodup_collapsed es
    exact ⟨Json.fits_entries hroom hnodup fun e he => (heach e he).1, hnodup,
      fun e he => (heach e he).2⟩
  · cases hread

/-! ### Sound records -/

/-- What the field holds, if it has been read, has the property and keeps to the limits when it is
written. -/
def Slot (room : Nat) (write : α → Json) (P : α → Prop) (slot : Option α) : Prop :=
  ∀ value ∈ slot, (write value).Fits room ∧ P value

theorem slot_of_once (h : Sound read write P) {room : Nat} {d : Document} (hwithin : d.Within room)
    {slot filled : Option α} {name : String} (honce : once slot name (read d) = .ok filled) :
    Slot room write P filled := by
  cases slot with
  | some _ => cases honce
  | none =>
    intro value hvalue
    cases hread : read d with
    | error fault =>
      rw [hread] at honce
      cases honce
    | ok x =>
      rw [hread] at honce
      cases honce
      cases hvalue
      exact h room d value hwithin hread

variable {names : List String} {draft : δ} {step : δ → String → Document → Except Fault δ}
  {finish : Layout → δ → Except Fault α}

theorem foldlM_sound {β : Type} {f : δ → β → Except Fault δ} {Q : δ → Prop} {xs : List β}
    (hstep : ∀ x ∈ xs, ∀ acc next, Q acc → f acc x = .ok next → Q next) {acc : δ} (hacc : Q acc)
    {r : δ} (h : xs.foldlM f acc = .ok r) : Q r := by
  induction xs generalizing acc with
  | nil =>
    cases h
    exact hacc
  | cons x xs ih =>
    obtain ⟨next, hnext, hrest⟩ := bind_eq_ok_iff.1 h
    exact ih (fun y hy => hstep y (List.mem_cons_of_mem _ hy))
      (hstep x (List.mem_cons_self ..) acc next hacc hnext) hrest

/-- A record is sound if each field leaves the draft in order, and the value of a draft in order is
right. -/
theorem sound_readRecord {Q : Nat → δ → Prop} (hdraft : ∀ room, Q room draft)
    (hstep : ∀ room acc name d next, Q room acc → d.Within room → step acc name d = .ok next →
      Q room next)
    (hfinish : ∀ room layout acc value, 0 < room → Q (room - 1) acc →
      finish layout acc = .ok value → (write value).Fits room ∧ P value) :
    Sound (readRecord names draft step finish) write P := by
  intro room d value hwithin hread
  unfold readRecord at hread
  split at hread
  · rename_i members stop
    obtain ⟨hroom, hmembers⟩ := hwithin
    obtain ⟨filled, hfilled, hclosed⟩ := bind_eq_ok_iff.1 hread
    refine hfinish room _ filled value hroom ?_ (of_ite_ok hclosed)
    refine foldlM_sound (fun e he acc next hacc hnext => ?_) (hdraft (room - 1)) hfilled
    dsimp only at hnext
    split at hnext
    · exact hstep _ acc e.1 e.2 next hacc ((membersWithin_iff _ _).1 hmembers e he) hnext
    · obtain rfl : acc = next := Except.ok.inj (of_ite_ok hnext)
      exact hacc
  · rename_i items stop
    obtain ⟨hroom, hitems⟩ := hwithin
    obtain ⟨filled, hfilled, hclosed⟩ := bind_eq_ok_iff.1 hread
    refine hfinish room _ filled value hroom ?_ (of_ite_ok hclosed)
    refine foldlM_sound (fun e he acc next hacc hnext => ?_) (hdraft (room - 1)) hfilled
    have hitem := (List.of_mem_zip (a := e.1) (b := e.2) he).2
    exact hstep _ acc e.1 e.2 next hacc ((itemsWithin_iff _ _).1 hitems e.2 hitem) hnext
  · cases hread

end Document

end ContentLoom.Json

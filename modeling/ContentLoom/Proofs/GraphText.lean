import ContentLoom.Proofs.DecodedValues
import ContentLoom.Proofs.TypeText

/-!
# The text of declaration graphs

A graph that was read from a JSON text is written as a text that is read again.
The same graph comes back unless the text of one of its references or of one
of its floating-point numbers is read as another.
-/

namespace ContentLoom

open Json.Document

/-! ### Members -/

namespace Json

theorem membersFit_append (js ks : List (String × Json)) (room : Nat) :
    MembersFit (js ++ ks) room ↔ MembersFit js room ∧ MembersFit ks room := by
  simp only [membersFit_iff, List.forall_mem_append]

end Json

section

variable {α : Type} {write : α → Json} {P : α → Prop} {room : Nat}

/-- What the field of a list holds, if it has been read, has the property and keeps to the limits
when it is written. -/
abbrev ListSlot (room : Nat) (write : α → Json) (P : α → Prop) : Option (List α) → Prop :=
  Slot room (fun xs => .arr (xs.map write)) fun xs => ∀ x ∈ xs, P x

theorem ListSlot.fits {slot : Option (List α)} (h : ListSlot room write P slot) (name : String) :
    Json.MembersFit (unlessEmpty name (slot.getD []) write) room := by
  unfold unlessEmpty
  split
  · exact True.intro
  · rename_i hitems
    cases slot with
    | none => exact absurd rfl hitems
    | some xs => exact ⟨(h xs rfl).1, True.intro⟩

theorem ListSlot.forall_mem {slot : Option (List α)} (h : ListSlot room write P slot) :
    ∀ x ∈ slot.getD [], P x := by
  cases slot with
  | none => exact nofun
  | some xs => exact (h xs rfl).2

theorem names_unlessEmpty (name : String) (items : List α) (write : α → Json) :
    ((unlessEmpty name items write).map Prod.fst).Sublist [name] := by
  unfold unlessEmpty
  split
  · exact List.nil_sublist _
  · exact List.Sublist.refl _

theorem slot_none : Slot room write P none := nofun

end

/-! ### References -/

namespace TypeRef

theorem ofDocument_eq_ok_iff (text : String) (t : TypeRef) :
    ofDocument (.str text) = .ok t ↔ parse text = .ok t := by
  unfold ofDocument readText
  dsimp only
  cases parse text <;> simp

theorem sound_ofDocument : Sound ofDocument toJson Written := by
  intro room d t hwithin hread
  cases d with
  | str text => exact ⟨True.intro, text, (ofDocument_eq_ok_iff text t).1 hread⟩
  | _ => cases hread

theorem restores_iff {t : TypeRef} (h : Written t) : Restores ofDocument t.toJson t ↔ Clear t :=
  (ofDocument_eq_ok_iff t.text t).trans (parse_text_iff h)

end TypeRef

/-! ### References and numbers -/

/-- The references and the floating-point numbers are read back from their texts. -/
def Faithful (references : List TypeRef) (numbers : List Binary64) : Prop :=
  (∀ t ∈ references, t.Clear) ∧ ∀ x ∈ numbers, Json.Restored x

theorem faithful_append (ts us : List TypeRef) (xs ys : List Binary64) :
    Faithful (ts ++ us) (xs ++ ys) ↔ Faithful ts xs ∧ Faithful us ys := by
  simp only [Faithful, List.forall_mem_append]
  exact and_and_and_comm

theorem faithful_flatMap {α : Type} (xs : List α) (references : α → List TypeRef)
    (numbers : α → List Binary64) :
    Faithful (xs.flatMap references) (xs.flatMap numbers) ↔
      ∀ x ∈ xs, Faithful (references x) (numbers x) := by
  simp only [Faithful, List.forall_mem_flatMap, forall_and]

theorem restores_references_iff {ts : List TypeRef} (h : ∀ t ∈ ts, t.Written) :
    readBack TypeRef.ofDocument TypeRef.toJson ts = .ok ts ↔ Faithful ts [] := by
  rw [readBack_iff, Faithful, and_iff_left (List.forall_mem_nil _)]
  exact forall₂_congr fun t ht => TypeRef.restores_iff (h t ht)

/-! ### Attributes -/

namespace Attribute

/-- The references in an attribute. -/
def references (a : Attribute) : List TypeRef := a.typeArguments ++ a.interfaces

/-- The floating-point numbers in the arguments. -/
def floats (a : Attribute) : List Binary64 :=
  a.positional.flatMap Json.floats ++ a.named.flatMap fun e => e.2.floats

/-- The references are those of texts, and the arguments have a text. -/
structure Readable (a : Attribute) : Prop where
  typeArguments : ∀ t ∈ a.typeArguments, t.Written
  positional : ∀ j ∈ a.positional, ∃ room, j.Fits room
  nodup : a.named.names.Nodup
  named : ∀ e ∈ a.named, ∃ room, e.2.Fits room
  interfaces : ∀ t ∈ a.interfaces, t.Written

/-- What has been read of an attribute is readable and keeps to the limits. -/
structure Draft.Ordered (room : Nat) (a : Draft) : Prop where
  typeArguments : ListSlot room TypeRef.toJson TypeRef.Written a.typeArguments
  positional : ListSlot room id (fun j => ∃ room, j.Fits room) a.positional
  named : Slot room (fun es => .obj (es.map fun e => (e.1, id e.2)))
    (fun es => es.names.Nodup ∧ ∀ e ∈ es, ∃ room, e.2.Fits room) a.named
  interfaces : ListSlot room TypeRef.toJson TypeRef.Written a.interfaces

theorem ordered_take {room : Nat} {a next : Draft} (h : a.Ordered room) {field : String}
    {d : Json.Document} (hd : d.Within room) (htake : take a field d = .ok next) :
    next.Ordered room := by
  unfold take at htake
  split at htake <;> obtain ⟨slot, hslot, hnext⟩ := bind_eq_ok_iff.1 htake <;> cases hnext
  · exact { h with }
  · exact { h with typeArguments := slot_of_once (sound_readList TypeRef.sound_ofDocument) hd hslot }
  · exact { h with positional := slot_of_once (sound_readList sound_readJson) hd hslot }
  · exact { h with named := slot_of_once (sound_readEntries sound_readJson) hd hslot }
  · exact { h with interfaces := slot_of_once (sound_readList TypeRef.sound_ofDocument) hd hslot }

theorem fits_toJson {a : Attribute} {room : Nat} (hroom : 0 < room)
    (htypes : Json.MembersFit (unlessEmpty "type_arguments" a.typeArguments TypeRef.toJson)
      (room - 1))
    (hpositional : Json.MembersFit (unlessEmpty "constructor_arguments" a.positional id) (room - 1))
    (hnamed : a.named ≠ [] → (Json.obj a.named).Fits (room - 1))
    (hinterfaces : Json.MembersFit (unlessEmpty "interfaces" a.interfaces TypeRef.toJson)
      (room - 1)) :
    a.toJson.Fits room := by
  refine ⟨hroom, ?_, True.intro, ?_⟩
  · have hnames : ((if a.named.isEmpty then [] else
        [("named_arguments", Json.obj a.named)]).map Prod.fst).Sublist ["named_arguments"] := by
      split
      · exact List.nil_sublist _
      · exact List.Sublist.refl _
    have hfields : fields.Nodup := by decide
    simp only [List.map_cons, List.map_append]
    exact hfields.sublist (((names_unlessEmpty "type_arguments" _ _).append
      ((names_unlessEmpty "constructor_arguments" _ _).append
        (hnames.append (names_unlessEmpty "interfaces" _ _)))).cons_cons "name")
  · simp only [Json.membersFit_append]
    refine ⟨htypes, hpositional, ?_, hinterfaces⟩
    split
    · exact True.intro
    · rename_i hitems
      exact ⟨hnamed fun h => hitems (List.isEmpty_iff.2 h), True.intro⟩

theorem sound_ofDocument : Sound ofDocument toJson Readable := by
  refine sound_readRecord (Q := Draft.Ordered)
    (fun room => ⟨slot_none, slot_none, slot_none, slot_none⟩)
    (fun room a field d next h hd htake => ordered_take h hd htake) ?_
  intro room layout a value hroom h hcomplete
  obtain ⟨name, -, hvalue⟩ := bind_eq_ok_iff.1 hcomplete
  cases hvalue
  have hnamed : (a.named.getD [] ≠ [] → (Json.obj (a.named.getD [])).Fits (room - 1)) ∧
      (a.named.getD []).names.Nodup ∧ ∀ e ∈ a.named.getD [], ∃ room, e.2.Fits room := by
    cases hslot : a.named with
    | none => exact ⟨fun h => absurd rfl h, List.nodup_nil, nofun⟩
    | some es =>
      obtain ⟨hfits, hes⟩ := h.named es hslot
      have hid : es.map (fun e => (e.1, id e.2)) = es := List.map_id es
      simp only [hid] at hfits
      exact ⟨fun _ => hfits, hes⟩
  exact ⟨fits_toJson hroom (h.typeArguments.fits _) (h.positional.fits _) hnamed.1
    (h.interfaces.fits _), h.typeArguments.forall_mem, h.positional.forall_mem, hnamed.2.1,
    hnamed.2.2, h.interfaces.forall_mem⟩

/-- A readable attribute is read back from its text if and only if its references are clear and its
numbers are read back from theirs. -/
theorem restores_iff {a : Attribute} (h : a.Readable) :
    Restores ofDocument a.toJson a ↔ Faithful a.references a.floats := by
  have hfields : Restores ofDocument a.toJson a ↔
      readBack TypeRef.ofDocument TypeRef.toJson a.typeArguments = .ok a.typeArguments ∧
      readBack readJson id a.positional = .ok a.positional ∧
      readEntries readJson (streamed (.obj a.named)) = .ok a.named ∧
      readBack TypeRef.ofDocument TypeRef.toJson a.interfaces = .ok a.interfaces := by
    obtain ⟨name, ts, ps, ns, is⟩ := a
    simp [Restores, ofDocument_streamed, bind_eq_ok_iff]
  have hpositional : readBack readJson id a.positional = .ok a.positional ↔
      ∀ j ∈ a.positional, ∀ x ∈ j.floats, Json.Restored x :=
    readBack_iff.trans (forall₂_congr fun j hj => restores_json_iff (h.positional j hj).choose_spec)
  have hnamed : readEntries readJson (streamed (.obj a.named)) = .ok a.named ↔
      ∀ e ∈ a.named, ∀ x ∈ e.2.floats, Json.Restored x := by
    have hsame : a.named.map (fun e => (e.1, id e.2)) = a.named := List.map_id a.named
    have hentries : Restores (readEntries readJson)
        (.obj (a.named.map fun e => (e.1, id e.2))) a.named ↔
          ∀ e ∈ a.named, Restores readJson (id e.2) e.2 := restores_entries h.nodup
    rw [hsame] at hentries
    exact hentries.trans (forall₂_congr fun e he => restores_json_iff (h.named e he).choose_spec)
  rw [hfields, restores_references_iff h.typeArguments, hpositional, hnamed,
    restores_references_iff h.interfaces, references, floats, Faithful, Faithful, Faithful,
    List.forall_mem_append, List.forall_mem_append, List.forall_mem_flatMap,
    List.forall_mem_flatMap]
  constructor
  · rintro ⟨⟨ht, -⟩, hj, he, hi, -⟩
    exact ⟨⟨ht, hi⟩, hj, he⟩
  · rintro ⟨⟨ht, hi⟩, hj, he⟩
    exact ⟨⟨ht, List.forall_mem_nil _⟩, hj, he, hi, List.forall_mem_nil _⟩

theorem restores_all_iff {as : List Attribute} (h : ∀ a ∈ as, a.Readable) :
    readBack ofDocument toJson as = .ok as ↔
      Faithful (as.flatMap references) (as.flatMap floats) := by
  rw [readBack_iff, faithful_flatMap]
  exact forall₂_congr fun a ha => restores_iff (h a ha)

end Attribute

/-! ### Properties -/

namespace Property

/-- The references in a property. -/
def references (p : Property) : List TypeRef := p.type :: p.attributes.flatMap Attribute.references

/-- The floating-point numbers in the attributes of a property. -/
def floats (p : Property) : List Binary64 := p.attributes.flatMap Attribute.floats

/-- The references are those of texts, and the arguments of attributes have a text. -/
structure Readable (p : Property) : Prop where
  type : p.type.Written
  attributes : ∀ a ∈ p.attributes, a.Readable

/-- What has been read of a property is readable and keeps to the limits. -/
structure Draft.Ordered (room : Nat) (p : Draft) : Prop where
  type : Slot room TypeRef.toJson TypeRef.Written p.type
  attributes : ListSlot room Attribute.toJson Attribute.Readable p.attributes

theorem ordered_take {room : Nat} {p next : Draft} (h : p.Ordered room) {field : String}
    {d : Json.Document} (hd : d.Within room) (htake : take p field d = .ok next) :
    next.Ordered room := by
  unfold take at htake
  split at htake <;> obtain ⟨slot, hslot, hnext⟩ := bind_eq_ok_iff.1 htake <;> cases hnext
  · exact { h with }
  · exact { h with type := slot_of_once TypeRef.sound_ofDocument hd hslot }
  · exact { h with }
  · exact { h with attributes := slot_of_once (sound_readList Attribute.sound_ofDocument) hd hslot }

theorem fits_toJson {p : Property} {room : Nat} (hroom : 0 < room)
    (hattributes : Json.MembersFit (unlessEmpty "attributes" p.attributes Attribute.toJson)
      (room - 1)) :
    p.toJson.Fits room := by
  refine ⟨hroom, ?_, ?_⟩
  · have hfields : fields.Nodup := by decide
    simp only [List.map_append]
    exact hfields.sublist ((List.Sublist.refl ["name", "type", "nullable"]).append
      (names_unlessEmpty "attributes" _ _))
  · simp only [Json.membersFit_append]
    exact ⟨⟨True.intro, True.intro, True.intro, True.intro⟩, hattributes⟩

theorem sound_ofDocument : Sound ofDocument toJson Readable := by
  refine sound_readRecord (Q := Draft.Ordered) (fun room => ⟨slot_none, slot_none⟩)
    (fun room p field d next h hd htake => ordered_take h hd htake) ?_
  intro room layout p value hroom h hcomplete
  obtain ⟨name, -, htail⟩ := bind_eq_ok_iff.1 hcomplete
  obtain ⟨type, htype, hvalue⟩ := bind_eq_ok_iff.1 htail
  cases hvalue
  have hwritten : type.Written := by
    cases hslot : p.type with
    | none =>
      rw [hslot] at htype
      cases htype
    | some t =>
      rw [hslot] at htype
      obtain rfl : t = type := Except.ok.inj htype
      exact (h.type t hslot).2
  exact ⟨fits_toJson hroom (h.attributes.fits _), hwritten, h.attributes.forall_mem⟩

theorem restores_iff {p : Property} (h : p.Readable) :
    Restores ofDocument p.toJson p ↔ Faithful p.references p.floats := by
  have hfields : Restores ofDocument p.toJson p ↔
      TypeRef.ofDocument (streamed p.type.toJson) = .ok p.type ∧
      readBack Attribute.ofDocument Attribute.toJson p.attributes = .ok p.attributes := by
    obtain ⟨name, type, nullable, as⟩ := p
    simp [Restores, ofDocument_streamed, bind_eq_ok_iff]
  have htype : TypeRef.ofDocument (streamed p.type.toJson) = .ok p.type ↔
      Faithful [p.type] [] := by
    rw [Faithful, List.forall_mem_singleton, and_iff_left (List.forall_mem_nil _)]
    exact TypeRef.restores_iff h.type
  rw [hfields, htype, Attribute.restores_all_iff h.attributes, ← faithful_append]
  exact Iff.rfl

theorem restores_all_iff {ps : List Property} (h : ∀ p ∈ ps, p.Readable) :
    readBack ofDocument toJson ps = .ok ps ↔
      Faithful (ps.flatMap references) (ps.flatMap floats) := by
  rw [readBack_iff, faithful_flatMap]
  exact forall₂_congr fun p hp => restores_iff (h p hp)

end Property

/-! ### Declarations -/

namespace Declaration

/-- The references in a declaration. -/
def references (d : Declaration) : List TypeRef :=
  d.base.toList ++ (d.interfaces ++
    (d.attributes.flatMap Attribute.references ++ d.properties.flatMap Property.references))

/-- The floating-point numbers in the attributes of a declaration. -/
def floats (d : Declaration) : List Binary64 :=
  d.attributes.flatMap Attribute.floats ++ d.properties.flatMap Property.floats

/-- The references are those of texts, and the arguments of attributes have a text. -/
structure Readable (d : Declaration) : Prop where
  base : ∀ t ∈ d.base, t.Written
  interfaces : ∀ t ∈ d.interfaces, t.Written
  attributes : ∀ a ∈ d.attributes, a.Readable
  properties : ∀ p ∈ d.properties, p.Readable

/-- What has been read of a declaration is readable and keeps to the limits. -/
structure Draft.Ordered (room : Nat) (d : Draft) : Prop where
  base : Slot room (fun slot => (slot.map TypeRef.toJson).getD .null)
    (fun slot => ∀ t ∈ slot, t.Written) d.base
  interfaces : ListSlot room TypeRef.toJson TypeRef.Written d.interfaces
  attributes : ListSlot room Attribute.toJson Attribute.Readable d.attributes
  properties : ListSlot room Property.toJson Property.Readable d.properties

theorem ordered_take {room : Nat} {t next : Draft} (h : t.Ordered room) {field : String}
    {d : Json.Document} (hd : d.Within room) (htake : take t field d = .ok next) :
    next.Ordered room := by
  unfold take at htake
  split at htake <;> obtain ⟨slot, hslot, hnext⟩ := bind_eq_ok_iff.1 htake <;> cases hnext
  · exact { h with }
  · exact { h with }
  · exact { h with }
  · exact { h with }
  · exact { h with base := slot_of_once (sound_readOption TypeRef.sound_ofDocument) hd hslot }
  · exact { h with interfaces := slot_of_once (sound_readList TypeRef.sound_ofDocument) hd hslot }
  · exact { h with attributes := slot_of_once (sound_readList Attribute.sound_ofDocument) hd hslot }
  · exact { h with properties := slot_of_once (sound_readList Property.sound_ofDocument) hd hslot }

theorem names_base (base : Option TypeRef) :
    ((match base with
      | some base => [("base_type", base.toJson)]
      | none => []).map Prod.fst).Sublist ["base_type"] := by
  cases base with
  | none => exact List.nil_sublist _
  | some base => exact List.Sublist.refl _

theorem fits_toJson {d : Declaration} {room : Nat} (hroom : 0 < room)
    (hinterfaces : Json.MembersFit (unlessEmpty "interfaces" d.interfaces TypeRef.toJson)
      (room - 1))
    (hattributes : Json.MembersFit (unlessEmpty "attributes" d.attributes Attribute.toJson)
      (room - 1))
    (hproperties : Json.MembersFit (unlessEmpty "properties" d.properties Property.toJson)
      (room - 1)) :
    d.toJson.Fits room := by
  refine ⟨hroom, ?_, ?_⟩
  · have hfields : fields.Nodup := by decide
    simp only [List.map_append]
    exact hfields.sublist ((List.Sublist.refl ["name", "namespace", "kind", "is_abstract"]).append
      ((names_base d.base).append ((names_unlessEmpty "interfaces" _ _).append
        ((names_unlessEmpty "attributes" _ _).append (names_unlessEmpty "properties" _ _)))))
  · simp only [Json.membersFit_append]
    refine ⟨⟨True.intro, True.intro, True.intro, True.intro, True.intro⟩, ?_, hinterfaces,
      hattributes, hproperties⟩
    cases d.base with
    | none => exact True.intro
    | some base => exact ⟨True.intro, True.intro⟩

theorem sound_ofDocument : Sound ofDocument toJson Readable := by
  refine sound_readRecord (Q := Draft.Ordered)
    (fun room => ⟨slot_none, slot_none, slot_none, slot_none⟩)
    (fun room t field d next h hd htake => ordered_take h hd htake) ?_
  intro room layout t value hroom h hcomplete
  obtain ⟨name, -, hvalue⟩ := bind_eq_ok_iff.1 hcomplete
  cases hvalue
  have hbase : ∀ base ∈ t.base.getD none, base.Written := by
    cases hslot : t.base with
    | none => exact nofun
    | some base => exact (h.base base hslot).2
  exact ⟨fits_toJson hroom (h.interfaces.fits _) (h.attributes.fits _) (h.properties.fits _),
    hbase, h.interfaces.forall_mem, h.attributes.forall_mem, h.properties.forall_mem⟩

theorem restores_iff {d : Declaration} (h : d.Readable) :
    Restores ofDocument d.toJson d ↔ Faithful d.references d.floats := by
  have hfields : Restores ofDocument d.toJson d ↔
      baseBack d.base = .ok d.base ∧
      readBack TypeRef.ofDocument TypeRef.toJson d.interfaces = .ok d.interfaces ∧
      readBack Attribute.ofDocument Attribute.toJson d.attributes = .ok d.attributes ∧
      readBack Property.ofDocument Property.toJson d.properties = .ok d.properties := by
    obtain ⟨name, ns, kind, isAbstract, base, is, as, ps⟩ := d
    simp [Restores, ofDocument_streamed, bind_eq_ok_iff]
  have hbase : baseBack d.base = .ok d.base ↔ Faithful d.base.toList [] := by
    rw [Faithful, and_iff_left (List.forall_mem_nil _)]
    cases hslot : d.base with
    | none => exact ⟨fun _ => List.forall_mem_nil _, fun _ => rfl⟩
    | some base =>
      have hread := TypeRef.restores_iff (h.base base hslot)
      rw [Option.toList_some, List.forall_mem_singleton, ← hread, Restores, baseBack]
      cases TypeRef.ofDocument (streamed base.toJson) <;> simp [Except.map]
  rw [hfields, hbase, restores_references_iff h.interfaces, Attribute.restores_all_iff h.attributes,
    Property.restores_all_iff h.properties, ← faithful_append, ← faithful_append,
    ← faithful_append]
  exact Iff.rfl

end Declaration

/-! ### Graphs -/

namespace Graph

/-- The references in a graph. -/
def references (g : Graph) : List TypeRef := g.types.flatMap Declaration.references

/-- The floating-point numbers in the attributes of a graph. -/
def floats (g : Graph) : List Binary64 := g.types.flatMap Declaration.floats

theorem sound_ofDocument :
    Sound ofDocument (fun g => .obj (unlessEmpty "types" g.types Declaration.toJson)) fun g =>
      ∀ d ∈ g.types, d.Readable := by
  refine sound_readRecord (Q := fun room => ListSlot room Declaration.toJson Declaration.Readable)
    (fun room => slot_none)
    (fun room types field d next h hd htake =>
      slot_of_once (sound_readList Declaration.sound_ofDocument) hd htake) ?_
  intro room layout types g hroom h hcomplete
  cases hcomplete
  have hnames : (["types"] : List String).Nodup := by decide
  exact ⟨⟨hroom, hnames.sublist (names_unlessEmpty "types" _ _), h.fits "types"⟩, h.forall_mem⟩

/-- The list of declarations is written even if it is empty, and so it takes room. -/
theorem fits_toJson {g : Graph} {room : Nat} (hroom : 2 ≤ room)
    (h : (Json.obj (unlessEmpty "types" g.types Declaration.toJson)).Fits room) :
    g.toJson.Fits room := by
  obtain ⟨hpos, -, htypes⟩ := h
  have hnames : (["types"] : List String).Nodup := by decide
  refine ⟨hpos, hnames, ?_, True.intro⟩
  unfold unlessEmpty at htypes
  split at htypes
  · rename_i hempty
    rw [List.isEmpty_iff.1 hempty]
    exact ⟨by omega, True.intro⟩
  · exact htypes.1

theorem ofText_eq_ok {text : String} {g : Graph} (h : ofText text = .ok g) :
    g.toJson.Fits nestingLimit ∧ ∀ d ∈ g.types, d.Readable := by
  obtain ⟨graph, hgraph, hended⟩ := bind_eq_ok_iff.1 h
  obtain rfl : graph = g := Except.ok.inj (of_ite_ok hended)
  obtain ⟨hfits, hreadable⟩ := sound_ofDocument _ _ graph (within_ofText text) hgraph
  exact ⟨fits_toJson (by decide) hfits, hreadable⟩

/-- A graph that was read from a text is read back from its own text if and only if no reference in
it has a root mark at the beginning of a name or brackets before arguments, and each floating-point
number in it is read back from its text. -/
theorem ofText_compact_iff {text : String} {g : Graph} (h : ofText text = .ok g) :
    ofText g.toJson.compact = .ok g ↔
      (∀ t ∈ g.references, t.Clear) ∧ ∀ x ∈ g.floats, Json.Restored x := by
  obtain ⟨hfits, hreadable⟩ := ofText_eq_ok h
  have hfields : Restores ofDocument g.toJson g ↔
      readBack Declaration.ofDocument Declaration.toJson g.types = .ok g.types := by
    obtain ⟨types⟩ := g
    simp [Restores, ofDocument_streamed, bind_eq_ok_iff]
  have htypes : readBack Declaration.ofDocument Declaration.toJson g.types = .ok g.types ↔
      Faithful g.references g.floats := by
    rw [readBack_iff, references, floats, faithful_flatMap]
    exact forall₂_congr fun d hd => Declaration.restores_iff (hreadable d hd)
  rw [ofText, decodeText_of_ofText (ofText_compact hfits)]
  exact hfields.trans htypes

/-- A class with a base. -/
def shelf (base : TypeRef) : Declaration :=
  ⟨"Shelf", "", .classType, false, some base, [], [], []⟩

theorem ofText_shelf (base : TypeRef) :
    ofText (Graph.toJson ⟨[shelf base]⟩).compact =
      (TypeRef.ofDocument (.str base.text)).map fun base => ⟨[shelf base]⟩ := by
  have hfits : (Graph.toJson ⟨[shelf base]⟩).Fits nestingLimit := by
    have hnames : (["types"] : List String).Nodup := by decide
    have hclass : (shelf base).toJson.Fits 125 :=
      Declaration.fits_toJson (by decide) True.intro True.intro True.intro
    exact ⟨by decide, hnames, ⟨by decide, hclass, True.intro⟩, True.intro⟩
  have hclass : Declaration.ofDocument (streamed (shelf base).toJson) =
      (TypeRef.ofDocument (.str base.text)).map shelf := by
    rw [Declaration.ofDocument_streamed]
    change ((TypeRef.ofDocument (.str base.text)).map some >>= _) = _
    cases TypeRef.ofDocument (.str base.text) <;> rfl
  rw [ofText, decodeText_of_ofText (ofText_compact hfits), ofDocument_streamed, readBack_singleton,
    hclass]
  cases TypeRef.ofDocument (.str base.text) <;> rfl

/-- Read with brackets behind its argument, a base is written with brackets before it. -/
theorem ofText_compact_shelf :
    ofText (Graph.toJson ⟨[shelf (.named "List<int>[]")]⟩).compact =
        .ok ⟨[shelf ⟨"List[]", [.named "int"], false⟩]⟩ ∧
      ofText (Graph.toJson ⟨[shelf ⟨"List[]", [.named "int"], false⟩]⟩).compact ≠
        .ok ⟨[shelf ⟨"List[]", [.named "int"], false⟩]⟩ := by
  have hbase : TypeRef.ofDocument (.str "List<int>[]") =
      .ok ⟨"List[]", [.named "int"], false⟩ := by
    have hread : (TypeRef.parse "List<int>[]").toOption =
        some ⟨"List[]", [.named "int"], false⟩ := by
      decide +kernel
    rw [TypeRef.ofDocument_eq_ok_iff]
    cases hparse : TypeRef.parse "List<int>[]" with
    | error refusal =>
      rw [hparse] at hread
      cases hread
    | ok t =>
      rw [hparse] at hread
      exact congrArg Except.ok (Option.some.inj hread)
  have hread : ofText (Graph.toJson ⟨[shelf (.named "List<int>[]")]⟩).compact =
      .ok ⟨[shelf ⟨"List[]", [.named "int"], false⟩]⟩ := by
    have htext : (TypeRef.named "List<int>[]").text = "List<int>[]" := by decide
    rw [ofText_shelf, htext, hbase]
    rfl
  refine ⟨hread, fun hback => ?_⟩
  have hclear := ((ofText_compact_iff hread).1 hback).1
  obtain ⟨-, hbrackets, -⟩ := hclear ⟨"List[]", [.named "int"], false⟩ (List.mem_cons_self ..)
  have hbracket : ']' ∈ "List[]".toList := by decide
  exact hbrackets (List.cons_ne_nil _ _) hbracket

end Graph

end ContentLoom

import ContentLoom.Graph.Basic
import ContentLoom.Proofs.ReadBack

/-!
# Reading back records

The text of a record leaves out its empty lists, and its decoder takes a missing
list for an empty one.  So the record is decoded as if each list were there:
field by field, in the order in which they are written.
-/

namespace ContentLoom

namespace Json.Document

variable {δ α β : Type} (names : List String) (step : δ → String → Document → Except Fault δ)

/-! ### Members -/

/-- Fills a draft from members that were written. -/
def fill (acc : δ) (members : List (String × Json)) : Except Fault δ :=
  (streamedMembers members).foldlM
    (fun acc (k, d) => if names.contains k then step acc k d else passOver acc d) acc

theorem readRecord_streamed (draft : δ) (finish : Layout → δ → Except Fault α)
    (members : List (String × Json)) :
    readRecord names draft step finish (streamed (.obj members)) =
      fill names step draft members >>= finish .members := rfl

variable (finish : δ → Except Fault α) {acc : δ}

theorem fill_cons (name : String) (hname : names.contains name = true) (j : Json)
    (rest : List (String × Json)) :
    (fill names step acc ((name, j) :: rest) >>= finish) =
      step acc name (streamed j) >>= fun next => fill names step next rest >>= finish := by
  unfold fill
  rw [streamedMembers, List.foldlM_cons]
  simp only [hname, if_true]
  cases step acc name (streamed j) <;> rfl

/-- A member that may be left out: without it the field is as if it had been given nothing. -/
theorem fill_optional (name : String) (hname : names.contains name = true) {skip : Bool} {j : Json}
    (value : Except Fault β) (slot : Option β → δ)
    (hstep : step (slot none) name (streamed j) =
      once none name value >>= fun v => pure (slot v))
    {nothing : β} (hskip : skip = true → value = .ok nothing) {rest : List (String × Json)}
    (hsame : (fill names step (slot none) rest >>= finish) =
      (fill names step (slot (some nothing)) rest >>= finish)) :
    (fill names step (slot none) ((if skip then [] else [(name, j)]) ++ rest) >>= finish) =
      value >>= fun v => fill names step (slot (some v)) rest >>= finish := by
  cases skip with
  | true =>
    rw [hskip rfl]
    exact hsame
  | false =>
    refine (fill_cons names step finish name hname j rest).trans ?_
    rw [hstep]
    cases value <;> rfl

/-- What the text of a list is read as. -/
def readBack {γ : Type} (read : Document → Except Fault β) (write : γ → Json) (items : List γ) :
    Except Fault (List β) :=
  readList read (streamed (.arr (items.map write)))

theorem readBack_iff {read : Document → Except Fault β} {write : β → Json} {items : List β} :
    readBack read write items = .ok items ↔ ∀ x ∈ items, Restores read (write x) x :=
  restores_list

theorem readBack_singleton {γ : Type} (read : Document → Except Fault β) (write : γ → Json)
    (item : γ) : readBack read write [item] = (read (streamed (write item))).map ([·]) := by
  change ([streamed (write item)].mapM read >>= fun values => .ok values) = _
  rw [List.mapM_cons]
  cases read (streamed (write item)) <;> rfl

/-- A list that is left out where it is empty is read as if it were there. -/
theorem fill_unlessEmpty {γ : Type} (name : String) (hname : names.contains name = true)
    (read : Document → Except Fault β) (write : γ → Json) (items : List γ)
    (slot : Option (List β) → δ)
    (hstep : ∀ d, step (slot none) name d =
      once none name (readList read d) >>= fun v => pure (slot v)) {rest : List (String × Json)}
    (hsame : (fill names step (slot none) rest >>= finish) =
      (fill names step (slot (some [])) rest >>= finish)) :
    (fill names step (slot none) (unlessEmpty name items write ++ rest) >>= finish) =
      readBack read write items >>= fun v => fill names step (slot (some v)) rest >>= finish := by
  refine fill_optional names step finish name hname _ slot (hstep _) ?_ hsame
  intro hempty
  rw [List.isEmpty_iff.1 hempty]
  rfl

end Json.Document

open Json.Document

/-! ### Attributes -/

namespace Attribute

-- From the last field to the first: what is read from a field on, whatever was read before it.
theorem fill_named (a : Attribute) (ts ps) :
    (fill fields take ⟨some a.name, ts, ps, none, none⟩
      ((if a.named.isEmpty then [] else [("named_arguments", .obj a.named)]) ++
        unlessEmpty "interfaces" a.interfaces TypeRef.toJson) >>= complete .members) = (do
    let ns ← readEntries readJson (streamed (.obj a.named))
    let is ← readBack TypeRef.ofDocument TypeRef.toJson a.interfaces
    .ok ⟨a.name, ts.getD [], ps.getD [], ns, is⟩) := by
  have hinterfaces (ns) :
      (fill fields take ⟨some a.name, ts, ps, ns, none⟩
        (unlessEmpty "interfaces" a.interfaces TypeRef.toJson ++ []) >>= complete .members) = (do
      let is ← readBack TypeRef.ofDocument TypeRef.toJson a.interfaces
      .ok ⟨a.name, ts.getD [], ps.getD [], ns.getD [], is⟩) :=
    fill_unlessEmpty fields take (complete .members) "interfaces" (by decide) _ _ _
      (fun is => ⟨some a.name, ts, ps, ns, is⟩) (fun _ => rfl) rfl
  rw [List.append_nil] at hinterfaces
  have hskip : a.named.isEmpty = true →
      readEntries readJson (streamed (.obj a.named)) = .ok [] := by
    intro hempty
    rw [List.isEmpty_iff.1 hempty]
    rfl
  refine (fill_optional fields take (complete .members) "named_arguments" (by decide) _
    (fun ns => ⟨some a.name, ts, ps, ns, none⟩) rfl hskip ?_).trans ?_
  · rw [hinterfaces, hinterfaces]
    rfl
  · simp only [hinterfaces]
    rfl

theorem ofDocument_streamed (a : Attribute) :
    ofDocument (streamed a.toJson) = (do
      let ts ← readBack TypeRef.ofDocument TypeRef.toJson a.typeArguments
      let ps ← readBack readJson id a.positional
      let ns ← readEntries readJson (streamed (.obj a.named))
      let is ← readBack TypeRef.ofDocument TypeRef.toJson a.interfaces
      .ok ⟨a.name, ts, ps, ns, is⟩) := by
  have hpositional (ts) :
      (fill fields take ⟨some a.name, ts, none, none, none⟩
        (unlessEmpty "constructor_arguments" a.positional id ++
          ((if a.named.isEmpty then [] else [("named_arguments", .obj a.named)]) ++
            unlessEmpty "interfaces" a.interfaces TypeRef.toJson)) >>= complete .members) = (do
      let ps ← readBack readJson id a.positional
      let ns ← readEntries readJson (streamed (.obj a.named))
      let is ← readBack TypeRef.ofDocument TypeRef.toJson a.interfaces
      .ok ⟨a.name, ts.getD [], ps, ns, is⟩) := by
    refine (fill_unlessEmpty fields take (complete .members) "constructor_arguments" (by decide)
      _ _ _ (fun ps => ⟨some a.name, ts, ps, none, none⟩) (fun _ => rfl) ?_).trans ?_
    · rw [fill_named, fill_named]
      rfl
    · simp only [fill_named]
      rfl
  have htypes := fill_unlessEmpty fields take (complete .members) "type_arguments" (by decide)
    TypeRef.ofDocument TypeRef.toJson a.typeArguments
    (fun ts => ⟨some a.name, ts, none, none, none⟩) (fun _ => rfl)
    (by rw [hpositional, hpositional]; rfl)
  rw [ofDocument, toJson, readRecord_streamed]
  refine (fill_cons fields take (complete .members) "name" (by decide) _ _).trans ?_
  refine Eq.trans htypes ?_
  simp only [hpositional]
  rfl

end Attribute

/-! ### Properties -/

namespace Property

theorem ofDocument_streamed (p : Property) :
    ofDocument (streamed p.toJson) = (do
      let type ← TypeRef.ofDocument (streamed p.type.toJson)
      let as ← readBack Attribute.ofDocument Attribute.toJson p.attributes
      .ok ⟨p.name, type, p.nullable, as⟩) := by
  have hattributes (type) :
      (fill fields take ⟨some p.name, some type, some p.nullable, none⟩
        (unlessEmpty "attributes" p.attributes Attribute.toJson ++ []) >>= complete .members) = (do
      let as ← readBack Attribute.ofDocument Attribute.toJson p.attributes
      .ok ⟨p.name, type, p.nullable, as⟩) :=
    fill_unlessEmpty fields take (complete .members) "attributes" (by decide) _ _ _
      (fun as => ⟨some p.name, some type, some p.nullable, as⟩) (fun _ => rfl) rfl
  rw [List.append_nil] at hattributes
  rw [ofDocument, toJson, readRecord_streamed]
  refine (fill_cons fields take (complete .members) "name" (by decide) _ _).trans ?_
  refine (fill_cons fields take (complete .members) "type" (by decide) _ _).trans ?_
  have htype : take ⟨some p.name, none, none, none⟩ "type" (streamed p.type.toJson) =
      TypeRef.ofDocument (streamed p.type.toJson) >>= fun type =>
        .ok ⟨some p.name, some type, none, none⟩ := by
    unfold take once
    cases TypeRef.ofDocument (streamed p.type.toJson) <;> rfl
  refine (congrArg (· >>= _) htype).trans ?_
  cases TypeRef.ofDocument (streamed p.type.toJson) with
  | error fault => rfl
  | ok type =>
    refine Eq.trans ?_ (hattributes type)
    exact fill_cons fields take (complete .members) "nullable" (by decide) _ _

end Property

/-! ### Declarations -/

theorem TypeKind.readVariant_text (kind : TypeKind) :
    readVariant TypeKind.named (.str kind.text) = .ok kind := by
  cases kind <;> decide

namespace Declaration

/-- What the base is read as from its text. -/
def baseBack (base : Option TypeRef) : Except Json.Fault (Option TypeRef) :=
  match base with
  | some base => (TypeRef.ofDocument (streamed base.toJson)).map some
  | none => .ok none

theorem fill_attributes (d : Declaration) (base interfaces) :
    (fill fields take ⟨some d.name, some d.ns, some d.kind, some d.isAbstract, base, interfaces,
        none, none⟩
      (unlessEmpty "attributes" d.attributes Attribute.toJson ++
        unlessEmpty "properties" d.properties Property.toJson) >>= complete .members) = (do
    let as ← readBack Attribute.ofDocument Attribute.toJson d.attributes
    let ps ← readBack Property.ofDocument Property.toJson d.properties
    .ok ⟨d.name, d.ns, d.kind, d.isAbstract, base.getD none, interfaces.getD [], as, ps⟩) := by
  have hproperties (as) :
      (fill fields take ⟨some d.name, some d.ns, some d.kind, some d.isAbstract, base, interfaces,
          as, none⟩
        (unlessEmpty "properties" d.properties Property.toJson ++ []) >>= complete .members) = (do
      let ps ← readBack Property.ofDocument Property.toJson d.properties
      .ok ⟨d.name, d.ns, d.kind, d.isAbstract, base.getD none, interfaces.getD [], as.getD [], ps⟩) :=
    fill_unlessEmpty fields take (complete .members) "properties" (by decide) _ _ _
      (fun ps => ⟨some d.name, some d.ns, some d.kind, some d.isAbstract, base, interfaces, as, ps⟩)
      (fun _ => rfl) rfl
  rw [List.append_nil] at hproperties
  refine (fill_unlessEmpty fields take (complete .members) "attributes" (by decide) _ _ _
    (fun as => ⟨some d.name, some d.ns, some d.kind, some d.isAbstract, base, interfaces, as, none⟩)
    (fun _ => rfl) ?_).trans ?_
  · rw [hproperties, hproperties]
    rfl
  · simp only [hproperties]
    rfl

theorem fill_base (d : Declaration) :
    (fill fields take ⟨some d.name, some d.ns, some d.kind, some d.isAbstract, none, none, none,
        none⟩
      ((match d.base with
        | some base => [("base_type", base.toJson)]
        | none => []) ++
        (unlessEmpty "interfaces" d.interfaces TypeRef.toJson ++
          (unlessEmpty "attributes" d.attributes Attribute.toJson ++
            unlessEmpty "properties" d.properties Property.toJson))) >>= complete .members) = (do
    let base ← baseBack d.base
    let is ← readBack TypeRef.ofDocument TypeRef.toJson d.interfaces
    let as ← readBack Attribute.ofDocument Attribute.toJson d.attributes
    let ps ← readBack Property.ofDocument Property.toJson d.properties
    .ok ⟨d.name, d.ns, d.kind, d.isAbstract, base, is, as, ps⟩) := by
  have hinterfaces (base) :
      (fill fields take ⟨some d.name, some d.ns, some d.kind, some d.isAbstract, base, none, none,
          none⟩
        (unlessEmpty "interfaces" d.interfaces TypeRef.toJson ++
          (unlessEmpty "attributes" d.attributes Attribute.toJson ++
            unlessEmpty "properties" d.properties Property.toJson)) >>= complete .members) = (do
      let is ← readBack TypeRef.ofDocument TypeRef.toJson d.interfaces
      let as ← readBack Attribute.ofDocument Attribute.toJson d.attributes
      let ps ← readBack Property.ofDocument Property.toJson d.properties
      .ok ⟨d.name, d.ns, d.kind, d.isAbstract, base.getD none, is, as, ps⟩) := by
    refine (fill_unlessEmpty fields take (complete .members) "interfaces" (by decide) _ _ _
      (fun is => ⟨some d.name, some d.ns, some d.kind, some d.isAbstract, base, is, none, none⟩)
      (fun _ => rfl) ?_).trans ?_
    · rw [fill_attributes, fill_attributes]
      rfl
    · simp only [fill_attributes]
      rfl
  cases d.base with
  | none => exact hinterfaces none
  | some base =>
    refine (fill_cons fields take (complete .members) "base_type" (by decide) _ _).trans ?_
    have htake : take ⟨some d.name, some d.ns, some d.kind, some d.isAbstract, none, none, none,
        none⟩ "base_type" (streamed base.toJson) =
          once none "base_type" ((TypeRef.ofDocument (streamed base.toJson)).map some) >>= fun base =>
            pure ⟨some d.name, some d.ns, some d.kind, some d.isAbstract, base, none, none, none⟩ :=
      rfl
    have hback : baseBack (some base) = (TypeRef.ofDocument (streamed base.toJson)).map some := rfl
    rw [htake, hback]
    cases TypeRef.ofDocument (streamed base.toJson) with
    | error fault => rfl
    | ok back => exact hinterfaces (some (some back))

theorem ofDocument_streamed (d : Declaration) :
    ofDocument (streamed d.toJson) = (do
      let base ← baseBack d.base
      let is ← readBack TypeRef.ofDocument TypeRef.toJson d.interfaces
      let as ← readBack Attribute.ofDocument Attribute.toJson d.attributes
      let ps ← readBack Property.ofDocument Property.toJson d.properties
      .ok ⟨d.name, d.ns, d.kind, d.isAbstract, base, is, as, ps⟩) := by
  rw [ofDocument, toJson, readRecord_streamed, ← fill_base d]
  refine (fill_cons fields take (complete .members) "name" (by decide) _ _).trans ?_
  refine (fill_cons fields take (complete .members) "namespace" (by decide) _ _).trans ?_
  refine (fill_cons fields take (complete .members) "kind" (by decide) _ _).trans ?_
  have hkind : take ⟨some d.name, some d.ns, none, none, none, none, none, none⟩ "kind"
      (streamed (.str d.kind.text)) =
        .ok ⟨some d.name, some d.ns, some d.kind, none, none, none, none, none⟩ := by
    change (once none "kind" (readVariant TypeKind.named (.str d.kind.text)) >>= _) = _
    rw [TypeKind.readVariant_text]
    rfl
  refine (congrArg (· >>= _) hkind).trans ?_
  exact fill_cons fields take (complete .members) "is_abstract" (by decide) _ _

end Declaration

/-! ### Graphs -/

theorem Graph.ofDocument_streamed (g : Graph) :
    ofDocument (streamed g.toJson) = (do
      let types ← readBack Declaration.ofDocument Declaration.toJson g.types
      .ok ⟨types⟩) := by
  have htypes : streamed g.toJson =
      .obj [("types", streamed (.arr (g.types.map Declaration.toJson)))] (.closed .streamed) := rfl
  rw [htypes, readBack]
  generalize streamed (.arr (g.types.map Declaration.toJson)) = types
  unfold ofDocument readRecord once
  simp only [List.foldlM]
  cases readList Declaration.ofDocument types <;> rfl

end ContentLoom

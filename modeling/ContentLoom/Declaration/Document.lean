import ContentLoom.Declaration.Basic

/-!
# Declarations in documents

Declarations as JSON, where empty lists are left out, and their decoders.
-/

namespace ContentLoom

open Json.Document

/-- A member that is left out where its list is empty. -/
def unlessEmpty {α : Type} (name : String) (items : List α) (write : α → Json) :
    List (String × Json) :=
  if items.isEmpty then [] else [(name, .arr (items.map write))]

namespace Attribute

/-- The attribute as JSON. -/
def toJson (a : Attribute) : Json :=
  .obj (("name", .str a.name) ::
    (unlessEmpty "type_arguments" a.typeArguments TypeRef.toJson ++
      (unlessEmpty "constructor_arguments" a.positional id ++
        ((if a.named.isEmpty then [] else [("named_arguments", .obj a.named)]) ++
          unlessEmpty "interfaces" a.interfaces TypeRef.toJson))))

/-- The fields of an attribute read so far. -/
structure Draft where
  name : Option String
  typeArguments : Option (List TypeRef)
  positional : Option (List Json)
  named : Option (Entries Json)
  interfaces : Option (List TypeRef)

/-- The names of the fields. -/
def fields : List String :=
  ["name", "type_arguments", "constructor_arguments", "named_arguments", "interfaces"]

/-- Takes one field. -/
def take (a : Draft) (field : String) (d : Json.Document) : Except Json.Fault Draft :=
  match field with
  | "name" => do pure { a with name := ← once a.name field d.readText }
  | "type_arguments" => do
    pure { a with
      typeArguments := ← once a.typeArguments field (d.readList TypeRef.ofDocument) }
  | "constructor_arguments" => do
    pure { a with positional := ← once a.positional field (d.readList readJson) }
  | "named_arguments" => do
    pure { a with named := ← once a.named field (d.readEntries readJson) }
  | _ => do
    pure { a with interfaces := ← once a.interfaces field (d.readList TypeRef.ofDocument) }

/-- The attribute of the fields. -/
def complete (layout : Layout) (a : Draft) : Except Json.Fault Attribute := do
  let name ← required layout "name" a.name
  pure ⟨name, a.typeArguments.getD [], a.positional.getD [], a.named.getD [],
    a.interfaces.getD []⟩

/-- The attribute of a document. -/
def ofDocument : Json.Document → Except Json.Fault Attribute :=
  readRecord fields ⟨none, none, none, none, none⟩ take complete

end Attribute

namespace Property

/-- The property as JSON. -/
def toJson (p : Property) : Json :=
  .obj ([("name", .str p.name), ("type", p.type.toJson), ("nullable", .bool p.nullable)] ++
    unlessEmpty "attributes" p.attributes Attribute.toJson)

/-- The fields of a property read so far. -/
structure Draft where
  name : Option String
  type : Option TypeRef
  nullable : Option Bool
  attributes : Option (List Attribute)

/-- The names of the fields. -/
def fields : List String := ["name", "type", "nullable", "attributes"]

/-- Takes one field. -/
def take (p : Draft) (field : String) (d : Json.Document) : Except Json.Fault Draft :=
  match field with
  | "name" => do pure { p with name := ← once p.name field d.readText }
  | "type" => do pure { p with type := ← once p.type field (TypeRef.ofDocument d) }
  | "nullable" => do pure { p with nullable := ← once p.nullable field d.readBool }
  | _ => do
    pure { p with attributes := ← once p.attributes field (d.readList Attribute.ofDocument) }

/-- The property of the fields. -/
def complete (layout : Layout) (p : Draft) : Except Json.Fault Property := do
  let name ← required layout "name" p.name
  let type ← required layout "type" p.type
  pure ⟨name, type, p.nullable.getD false, p.attributes.getD []⟩

/-- The property of a document. -/
def ofDocument : Json.Document → Except Json.Fault Property :=
  readRecord fields ⟨none, none, none, none⟩ take complete

end Property

namespace Declaration

/-- The declaration as JSON. -/
def toJson (d : Declaration) : Json :=
  .obj ([("name", .str d.name), ("namespace", .str d.ns), ("kind", .str d.kind.text),
      ("is_abstract", .bool d.isAbstract)] ++
    ((match d.base with
      | some base => [("base_type", base.toJson)]
      | none => []) ++
      (unlessEmpty "interfaces" d.interfaces TypeRef.toJson ++
        (unlessEmpty "attributes" d.attributes Attribute.toJson ++
          unlessEmpty "properties" d.properties Property.toJson))))

/-- The fields of a declaration read so far. -/
structure Draft where
  name : Option String
  ns : Option String
  kind : Option TypeKind
  isAbstract : Option Bool
  base : Option (Option TypeRef)
  interfaces : Option (List TypeRef)
  attributes : Option (List Attribute)
  properties : Option (List Property)

/-- The names of the fields. -/
def fields : List String :=
  ["name", "namespace", "kind", "is_abstract", "base_type", "interfaces", "attributes",
    "properties"]

/-- Takes one field. -/
def take (t : Draft) (field : String) (d : Json.Document) : Except Json.Fault Draft :=
  match field with
  | "name" => do pure { t with name := ← once t.name field d.readText }
  | "namespace" => do pure { t with ns := ← once t.ns field d.readText }
  | "kind" => do pure { t with kind := ← once t.kind field (d.readVariant TypeKind.named) }
  | "is_abstract" => do pure { t with isAbstract := ← once t.isAbstract field d.readBool }
  | "base_type" => do
    pure { t with base := ← once t.base field (d.readOption TypeRef.ofDocument) }
  | "interfaces" => do
    pure { t with interfaces := ← once t.interfaces field (d.readList TypeRef.ofDocument) }
  | "attributes" => do
    pure { t with attributes := ← once t.attributes field (d.readList Attribute.ofDocument) }
  | _ => do
    pure { t with properties := ← once t.properties field (d.readList Property.ofDocument) }

/-- The declaration of the fields. -/
def complete (layout : Layout) (t : Draft) : Except Json.Fault Declaration := do
  let name ← required layout "name" t.name
  pure ⟨name, t.ns.getD "", t.kind.getD .classType, t.isAbstract.getD false, t.base.getD none,
    t.interfaces.getD [], t.attributes.getD [], t.properties.getD []⟩

/-- The declaration of a document. -/
def ofDocument : Json.Document → Except Json.Fault Declaration :=
  readRecord fields ⟨none, none, none, none, none, none, none, none⟩ take complete

end Declaration

end ContentLoom

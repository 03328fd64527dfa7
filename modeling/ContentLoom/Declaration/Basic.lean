import ContentLoom.Json.Printer
import ContentLoom.TypeRef.Parser

/-!
# Declarations

What is known of a declared type: its kind, its base, its interfaces, the
attributes on it and its properties with theirs.  Names are taken as they are
given.
-/

namespace ContentLoom

/-! ### Attributes -/

/-- An attribute as it is applied to a type or a property. -/
structure Attribute where
  name : String
  typeArguments : List TypeRef
  positional : List Json
  named : Entries Json
  interfaces : List TypeRef
deriving Inhabited

namespace Attribute

/-- The end that the name of an attribute class may leave out where it is applied. -/
def suffix : String := "Attribute"

/-- Whether the attribute is of the class named `stem ++ "Attribute"`, written with its suffix or
without. -/
def isOf (a : Attribute) (stem : String) : Bool :=
  let simple := TypeRef.simpleOf a.name
  simple == stem ++ suffix || simple == stem

/-- Whether the attribute is of a class given by its whole name; the attribute may leave out a
suffix that the name has. -/
def isInstance (a : Attribute) (className : String) : Bool :=
  let simple := TypeRef.simpleOf a.name
  simple == className || simple ++ suffix == className

theorem isOf_eq_isInstance (a : Attribute) (stem : String) :
    a.isOf stem = a.isInstance (stem ++ suffix) := by
  have cancel (s : String) : (s ++ suffix == stem ++ suffix) = (s == stem) := by
    rw [Bool.eq_iff_iff]
    simp [← String.toList_inj]
  simp [isOf, isInstance, cancel]

/-- The first interface of the attribute class with a simple name. -/
def interface? (a : Attribute) (simple : String) : Option TypeRef :=
  a.interfaces.find? (·.simpleName == simple)

/-- The argument at a position, or else the one with a name. -/
def argument? (a : Attribute) (position : Nat) (name : String) : Option Json :=
  match a.positional[position]? with
  | some value => some value
  | none => a.named.get? name

mutual

/-- An argument as text: truth values are capitalised, the items of an array are separated by
commas, and an object stays JSON. -/
def argumentText : Json → String
  | .null => ""
  | .bool true => "True"
  | .bool false => "False"
  | .int n => toString n
  | .float x => Json.floatText x
  | .str s => s
  | .arr items => ", ".intercalate (argumentTexts items)
  | .obj members => (Json.obj members).compact

/-- The texts of the items of an array. -/
def argumentTexts : List Json → List String
  | [] => []
  | j :: js => argumentText j :: argumentTexts js

end

end Attribute

/-! ### Properties and types -/

/-- A property as it is declared. -/
structure Property where
  name : String
  type : TypeRef
  nullable : Bool
  attributes : List Attribute
deriving Inhabited

/-- Nullable by its own mark, or by the question mark of its type. -/
def Property.isNullable (p : Property) : Bool := p.nullable || p.type.nullable

/-- The kinds of types. -/
inductive TypeKind where
  | classType
  | interfaceType
  | enumType
  | structType
deriving DecidableEq, Inhabited

/-- The kinds with the words that name them. -/
def TypeKind.named : List (String × TypeKind) :=
  [("class", .classType), ("interface", .interfaceType), ("enum", .enumType),
    ("struct", .structType)]

/-- The word that names a kind. -/
def TypeKind.text : TypeKind → String
  | .classType => "class"
  | .interfaceType => "interface"
  | .enumType => "enum"
  | .structType => "struct"

/-- A declared type. -/
structure Declaration where
  name : String
  ns : String
  kind : TypeKind
  isAbstract : Bool
  base : Option TypeRef
  interfaces : List TypeRef
  attributes : List Attribute
  properties : List Property
deriving Inhabited

namespace Declaration

/-- The name with its namespace. -/
def fullName (d : Declaration) : String :=
  if d.ns.isEmpty then d.name else d.ns ++ "." ++ d.name

/-- The beginning of the namespaces that belong to the framework. -/
def frameworkNamespace : List Char := "episerver".toList

/-- Whether the type is declared by the framework itself. -/
def isFramework (d : Declaration) : Bool :=
  (d.ns.toList.take 9).map Text.asciiLower == frameworkNamespace

end Declaration

end ContentLoom

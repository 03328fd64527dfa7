import ContentLoom.Cancellation
import ContentLoom.ContentClass
import ContentLoom.Markers

/-!
# Classification of properties

A property that is not ignored is mapped by the converter that an override
names, or else by a table of declared types.  An override that cannot be
followed is reported, and the table decides.
-/

namespace ContentLoom

/-- Why an override is not followed. -/
inductive OverrideFault where
  | noType
  | undeclared (written : TypeRef)
  | noContract (written : TypeRef)
deriving DecidableEq

namespace OverrideFault

/-- The words of a fault. -/
def message : OverrideFault → String
  | noType => "converter marker does not name a converter type"
  | undeclared written => "converter type '" ++ written.text ++ "' is not declared"
  | noContract written =>
    "converter type '" ++ written.text ++
      "' does not implement IContentPropertyConverter<TProperty, TValue>"

end OverrideFault

namespace Classifier

/-- The interface of converters of one property type to one value type. -/
def converterContract : String := "IContentPropertyConverter"

/-- The interface of content that can stand inside other content. -/
def contentInterface : String := "IContentData"

/-! ### Overrides -/

/-- The type of the values that a converter gives, where it has the contract with both types. -/
def valueType? (g : Graph) (converter : TypeRef) : Option TypeRef :=
  match g.findInterface? converter.name converterContract with
  | some ⟨_, [_, value], _⟩ => some value
  | _ => none

/-- The arguments of an override as its converter is given them. -/
def configOf (a : Attribute) : Option ConverterConfig :=
  if a.named.isEmpty then none
  else some (Dictionary.ofEntries (a.named.map fun (k, v) => (k, Attribute.argumentText v)))

/-- The name under which a declared converter is asked for. -/
def converterName (written : TypeRef) (declared : Declaration) : String :=
  if written.arguments.isEmpty then declared.fullName else written.withoutNullable.text

/-- The property as its override maps it. -/
def byOverride (g : Graph) (name : String) (m : Markers) : Except OverrideFault ContentProperty :=
  match m.converterType? with
  | none => .error .noType
  | some written =>
    match g.resolve? written.name with
    | none => .error (.undeclared written)
    | some declared =>
      match valueType? g written with
      | none => .error (.noContract written)
      | some value => .ok
        { name := name
          exposed := ⟨value.withoutNullable.text, value.nullable⟩
          conversion := .custom (converterName written declared)
          config := m.converterOverride.bind configOf }

/-! ### The table of types -/

/-- What the table gives for the simple name of a type and the hint of the editor. -/
def knownType? (simple : String) (hint : Option String) : Option (String × KnownConverter) :=
  match simple with
  | "ContentReference" =>
    if hint = some "mediafile" ∨ hint = some "image" then some ("Media", .media)
    else if hint = some "block" then some ("IContentPipelineModel", .block)
    else some ("Link", .contentReference)
  | "PageReference" => some ("Link", .contentReference)
  | "ContentArea" => some ("ContentAreaPipelineModel", .contentArea)
  | "XhtmlString" => some ("string", .xhtmlString)
  | "Url" => some ("Link", .link)
  | _ => none

/-- The namespace of a type given by its full name. -/
def namespaceOf (owner : String) : String :=
  String.ofList ((Text.beforeLast? '.' owner.toList).getD [])

/-- How a type outside the table is mapped: an enumeration by its name, content as a block, and
anything else as it is. -/
def byDeclaration (g : Graph) (owner : String) (p : Property) : ContentProperty :=
  let resolved := g.resolveIn? p.type.name (namespaceOf owner)
  let lookup := (resolved.map (·.fullName)).getD p.type.name
  let copied := ContentProperty.passthrough p.name ⟨p.type.withoutNullable.text, p.isNullable⟩
  let embedded := ContentProperty.converted p.name ⟨"IContentPipelineModel", p.isNullable⟩
    (.known .embeddedBlock)
  let other := if g.implements lookup contentInterface then embedded else copied
  match resolved with
  | some d =>
    if d.kind = .enumType then
      ContentProperty.converted p.name ⟨"string", p.isNullable⟩ (.enumeration d.fullName)
    else other
  | none => other

/-- The property as its declared type maps it. -/
def byType (g : Graph) (owner : String) (p : Property) (hint : Option String) : ContentProperty :=
  if !p.type.arguments.isEmpty then
    ContentProperty.passthrough p.name ⟨p.type.withoutNullable.text, p.isNullable⟩
  else
    match knownType? p.type.simpleName hint with
    | some (exposed, converter) =>
      ContentProperty.converted p.name ⟨exposed, p.isNullable⟩ (.known converter)
    | none => byDeclaration g owner p

/-! ### One property -/

/-- The result for a property and the report it is worth; none for an ignored property. -/
def classify (g : Graph) (owner : String) (p : Property) :
    Option ContentProperty × Option Diagnostic :=
  let m := Markers.read p.attributes
  if m.isIgnored then (none, none)
  else if m.converterOverride.isSome then
    match byOverride g p.name m with
    | .ok mapped => (some mapped, none)
    | .error fault =>
      (some (byType g owner p m.hint?),
        some (.of .malformedConverterOverride ⟨owner, some p.name⟩ fault.message))
  else (some (byType g owner p m.hint?), none)

end Classifier

end ContentLoom

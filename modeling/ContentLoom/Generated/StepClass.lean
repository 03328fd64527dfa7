import ContentLoom.Code.Literal
import ContentLoom.Generated.Layout
import ContentLoom.Naming.Members

/-!
# Step classes

The mapping step of a content class: the converters it is given, their
arguments, and one assignment for each property that is mapped.
-/

namespace ContentLoom.Generated

open Code

/-- The type by which a step asks for a converter. -/
def injectedType : Conversion → String
  | .copy => ""
  | .known c => c.contract
  | .enumeration type => "IEnumConverter<" ++ rooted type ++ ">"
  | .custom type => rooted type

/-- A converter that a step is given. -/
structure Injection where
  conversion : Conversion
  /-- The name of the parameter; the field has an underscore before it. -/
  parameter : String
deriving DecidableEq

/-- The converters that the step of a class is given, by first use. -/
def injections (c : ContentClass) : List Injection :=
  (Naming.converterMembers c).map fun (conversion, member) =>
    ⟨conversion, Naming.lowerFirst member⟩

/-- The name of the field that holds the arguments of a converter. -/
def configField (p : ContentProperty) : String := p.name ++ "Config"

/-- The value that a property is given, converted by a field or copied. -/
def valueExpression (p : ContentProperty) : Option String → String
  | none => "content." ++ p.name
  | some field =>
    let config := match p.config with
      | some _ => ", " ++ configField p
      | none => ""
    let rest := ", content, nameof(content." ++ p.name ++ "), pipelineContext" ++ config ++ ")"
    let whole := field ++ ".GetValue(content." ++ p.name ++ rest
    match p.conversion with
    | .enumeration _ =>
      if p.exposed.nullable then
        "content." ++ p.name ++ ".HasValue ? " ++ field ++ ".GetValue(content." ++ p.name ++
          ".Value" ++ rest ++ " : null"
      else whole
    | _ => whole

/-- The field of the converter for a property, unless it is copied. -/
def fieldFor (given : List Injection) (p : ContentProperty) : Option String :=
  (given.find? (·.conversion == p.conversion)).map fun i => "_" ++ i.parameter

/-- The assignment of a property. -/
def assignment (given : List Injection) (p : ContentProperty) : String :=
  "contentPipelineModel." ++ p.name ++ " = " ++ valueExpression p (fieldFor given p) ++ ";"

/-- The field that holds the arguments of the converter of a property, if there are any. -/
def configCode (p : ContentProperty) : List Write :=
  match p.config with
  | none => []
  | some config =>
    .line ("private static readonly Dictionary<string, string> " ++ configField p ++ " = new()") ::
      (blockWith (closeBrace ++ ";") ""
          (config.entries.map fun (k, v) =>
            .line ("[" ++ literal k ++ "] = " ++ literal v ++ ",")) ++
        [.blank])

/-- The constructor of a step. -/
def stepConstructor (c : ContentClass) (given : List Injection) : List Write :=
  .line ("public " ++ c.stepName ++ "(" ++
      ", ".intercalate (given.map fun i => injectedType i.conversion ++ " " ++ i.parameter) ++
      ")") ::
    (indented (lines [": base(order: " ++ toString ContentClass.stepOrder ++ ")"]) ++
      block "" (given.map fun i => .line ("_" ++ i.parameter ++ " = " ++ i.parameter ++ ";")))

/-- The step of a class. -/
def stepClass (o : Options) (c : ContentClass) : List Write :=
  let given := injections c
  let content := rooted c.fullName
  let model := rooted (modelType o c)
  file ["System.Collections.Generic", under o "Interfaces"] (o.stepsNamespace (groupName c))
    (.line ("public partial class " ++ c.stepName ++ " : " ++
        rooted (under o "Pipelines.ContentPipelineStep") ++ "<" ++ content ++ ", " ++ model ++
        ">") ::
      block ""
        (c.properties.flatMap configCode ++
          (given.map fun i =>
            .line ("private readonly " ++ injectedType i.conversion ++ " _" ++ i.parameter ++
              ";")) ++
          (if given.isEmpty then [] else [.blank]) ++
          stepConstructor c given ++
          [.blank] ++
          block
            ("public override void Execute(" ++ content ++ " content, " ++ model ++
              " contentPipelineModel, IContentPipelineContext pipelineContext)")
            (c.properties.map fun p => .line (assignment given p))))

end ContentLoom.Generated

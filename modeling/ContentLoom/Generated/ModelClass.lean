import ContentLoom.Code.Literal
import ContentLoom.Generated.Layout

/-!
# Model classes

The model of a content class: its tag, and one settable property for each
property that is mapped.
-/

namespace ContentLoom.Generated

open Code

/-- The declaration of a property. -/
def modelProperty (p : ContentProperty) : String :=
  settable ("public " ++ p.exposed.text ++ " " ++ p.name)

/-- The model of a class. -/
def modelClass (o : Options) (c : ContentClass) : List Write :=
  file ["System.Collections.Generic", under o "Interfaces", under o "Properties"]
    (o.modelsNamespace (groupName c))
    (summary ("Pipeline model of <see cref=\"" ++ rooted c.fullName ++ "\"/>") ++
      block
        ("public partial class " ++ c.modelName ++ " : " ++
          rooted (under o "Models.ContentPipelineModel") ++ ", I" ++ groupName c ++
          "PipelineModel")
        (.line ("public override string PipelineModelType => " ++ literal c.discriminant ++ ";") ::
          c.properties.flatMap fun p => [.blank, .line (modelProperty p)]))

end ContentLoom.Generated

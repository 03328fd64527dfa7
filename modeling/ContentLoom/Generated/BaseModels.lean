import ContentLoom.Code.Literal
import ContentLoom.Generated.Layout

/-!
# Base models

The base class of all models, and one interface for the models of each group.
-/

namespace ContentLoom.Generated

open Code

/-- The base class of all models. -/
def baseModel (o : Options) : List Write :=
  file [under o "Interfaces"] (under o "Models")
    (summary "Base class of every generated pipeline model" ++
      block "public partial class ContentPipelineModel : IContentPipelineModel"
        [.line ("public virtual string PipelineModelType => " ++
          literal ContentClass.baseDiscriminant ++ ";")])

/-- The interface of the models of a group. -/
def groupInterface (o : Options) (group : String) : List Write :=
  file [under o "Interfaces"] (o.modelsNamespace group)
    (summary ("Implemented by every pipeline model in the " ++ group ++ " group") ++
      block ("public partial interface I" ++ group ++ "PipelineModel : IContentPipelineModel") [])

/-- The files of the base class and of the groups. -/
def baseModels (o : Options) (classes : List ContentClass) : List SharedFile :=
  ⟨"ContentPipelineModel", .baseModel, baseModel o⟩ ::
    (groupNames classes).map fun group =>
      ⟨"I" ++ group ++ "PipelineModel", .groupInterface, groupInterface o group⟩

end ContentLoom.Generated

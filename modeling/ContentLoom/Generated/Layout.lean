import ContentLoom.Artifact
import ContentLoom.Code.Writing
import ContentLoom.ContentClass
import ContentLoom.Naming.Words
import ContentLoom.Options

/-!
# Layout of the generated code

The namespaces of the generated types under the shared namespace, and the full
names of the types of a class.
-/

namespace ContentLoom.Generated

/-- A file that belongs to no class, before it is given a name. -/
structure SharedFile where
  stem : String
  kind : ArtifactKind
  code : List Code.Write

/-- A namespace under the shared one. -/
def under (o : Options) (child : String) : String := o.sharedNamespace ++ "." ++ child

/-- A type by its full name from the root of all namespaces. -/
def rooted (fullName : String) : String := "global::" ++ fullName

/-- The group of a class as namespaces and types are named by it. -/
def groupName (c : ContentClass) : String := Naming.sanitize c.group

/-- The full name of the model of a class. -/
def modelType (o : Options) (c : ContentClass) : String :=
  o.modelsNamespace (groupName c) ++ "." ++ c.modelName

/-- The full name of the mapping step of a class. -/
def stepType (o : Options) (c : ContentClass) : String :=
  o.stepsNamespace (groupName c) ++ "." ++ c.stepName

/-- The groups of some classes, each once, in increasing order. -/
def groupNames (classes : List ContentClass) : List String :=
  (Entries.sorted (classes.map fun c => (groupName c, ()))).names

end ContentLoom.Generated

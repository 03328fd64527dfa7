import ContentLoom.Json.Decode

/-!
# Generated files

A generated file has a name, a kind and its text.
-/

namespace ContentLoom

/-- What a generated file contains. -/
inductive ArtifactKind where
  | baseModel
  | groupInterface
  | property
  | markerAttribute
  | interface
  | converter
  | pipeline
  | service
  | registration
  | jsonConverter
  | model
  | step
deriving DecidableEq

namespace ArtifactKind

/-- Every kind. -/
def all : List ArtifactKind :=
  [baseModel, groupInterface, property, markerAttribute, interface, converter, pipeline, service,
    registration, jsonConverter, model, step]

/-- The name of a kind in data. -/
def name : ArtifactKind → String
  | baseModel => "base_model"
  | groupInterface => "group_interface"
  | property => "property"
  | markerAttribute => "attribute"
  | interface => "interface"
  | converter => "converter"
  | pipeline => "pipeline"
  | service => "service"
  | registration => "registration"
  | jsonConverter => "json_converter"
  | model => "model"
  | step => "step"

/-- The kinds by name. -/
def named : List (String × ArtifactKind) := all.map fun k => (k.name, k)

theorem lookup_name (k : ArtifactKind) : named.lookup k.name = some k := by
  cases k <;> decide

/-- The part of a file name that stands for the kind. -/
def fileSegment : ArtifactKind → String
  | baseModel => "BaseModel"
  | groupInterface => "GroupInterface"
  | property => "Property"
  | markerAttribute => "Attribute"
  | interface => "Interface"
  | converter => "Converter"
  | pipeline => "Pipeline"
  | service => "Service"
  | registration => "Registration"
  | jsonConverter => "JsonConverter"
  | model => "PipelineModel"
  | step => "PipelineStep"

end ArtifactKind

/-- A generated file. -/
structure Artifact where
  fileName : String
  kind : ArtifactKind
  source : String
deriving DecidableEq

namespace Artifact

/-- The file as JSON. -/
def toJson (a : Artifact) : Json :=
  .obj [("file_name", .str a.fileName), ("kind", .str a.kind.name), ("source", .str a.source)]

/-- The fields of a file read so far. -/
structure Draft where
  fileName : Option String
  kind : Option ArtifactKind
  source : Option String

open Json.Document in
/-- The file of a document. -/
def ofDocument : Json.Document → Except Json.Fault Artifact :=
  readRecord ["file_name", "kind", "source"] (⟨none, none, none⟩ : Draft)
    (fun a field d =>
      match field with
      | "file_name" => do pure { a with fileName := ← once a.fileName field d.readText }
      | "kind" => do
        pure { a with kind := ← once a.kind field (readVariant ArtifactKind.named d) }
      | _ => do pure { a with source := ← once a.source field d.readText })
    (fun layout a => do
      pure ⟨← required layout "file_name" a.fileName, ← required layout "kind" a.kind,
        ← required layout "source" a.source⟩)

end Artifact

end ContentLoom

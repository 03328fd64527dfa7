import ContentLoom.Generated.Layout

/-!
# Marker classes

The attribute classes by which declarations are marked for the next run.
-/

namespace ContentLoom.Generated

open Code

/-- A file in the namespace of attributes. -/
def markerFile (o : Options) (used : List String) (body : List Write) : List Write :=
  file ("System" :: used) (under o "Attributes") body

/-- The attribute that leaves a property out. -/
def ignoreMarker (o : Options) : List Write :=
  markerFile o []
    (summary "Excludes a property from its pipeline model" ++
      .line "[AttributeUsage(AttributeTargets.Property)]" ::
      block "public class ContentPipelineIgnoreAttribute : Attribute" [])

/-- The attribute that puts a class into a group. -/
def modelMarker (o : Options) : List Write :=
  markerFile o []
    (summary "Opts a content class into pipeline generation" ++
      .line "[AttributeUsage(AttributeTargets.Class, Inherited = true)]" ::
      block "public class ContentPipelineModelAttribute : Attribute"
        (block "public ContentPipelineModelAttribute(string group = \"Common\", int order = 0)"
            (lines ["Group = group;", "Order = order;"]) ++
          [.blank, .line (settable "public string Group"), .blank,
            .line (settable "public int Order")]))

/-- The attribute that names the converter of a property. -/
def converterMarker (o : Options) : List Write :=
  markerFile o [under o "Interfaces"]
    (summary "Replaces the default converter of a property" ++
      .line "[AttributeUsage(AttributeTargets.Property)]" ::
      .line "public class ContentPipelinePropertyConverterAttribute<TConverter> : Attribute," ::
      (indented (lines ["IContentPipelinePropertyConverterAttribute<TConverter>",
          "where TConverter : IContentPropertyConverter"]) ++
        block "" []))

/-- The interface of attributes that name a converter. -/
def converterMarkerContract (o : Options) : List Write :=
  markerFile o [under o "Interfaces"]
    (summary "Implemented by attributes that select a property converter" ++
      .line "public interface IContentPipelinePropertyConverterAttribute<TConverter>" ::
      (indented (lines ["where TConverter : IContentPropertyConverter"]) ++ block "" []))

/-- The files of the marker classes. -/
def markerClasses (o : Options) : List SharedFile :=
  [⟨"ContentPipelineIgnoreAttribute", .markerAttribute, ignoreMarker o⟩,
    ⟨"ContentPipelineModelAttribute", .markerAttribute, modelMarker o⟩,
    ⟨"ContentPipelinePropertyConverterAttribute", .markerAttribute, converterMarker o⟩,
    ⟨"IContentPipelinePropertyConverterAttribute", .markerAttribute, converterMarkerContract o⟩]

end ContentLoom.Generated

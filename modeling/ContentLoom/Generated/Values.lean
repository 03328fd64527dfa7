import ContentLoom.Generated.Layout

/-!
# Value types

The types of the values that the default converters give.
-/

namespace ContentLoom.Generated

open Code

/-- A file in the namespace of values that knows the contracts. -/
def valueFile (o : Options) (body : List Write) : List Write :=
  file [under o "Interfaces"] (under o "Properties") body

/-- The type of links. -/
def linkType (o : Options) : List Write :=
  valueFile o
    (block "public partial class Link : ILinkPipelineModel"
      [.line (settable "public string? Url")])

/-- The type of media. -/
def mediaType (o : Options) : List Write :=
  valueFile o
    (summary "Resolved media asset; every member is null when the asset is missing" ++
      block "public partial class Media"
        [.line (settable "public string? Url"), .blank, .line (settable "public string? Type"),
          .blank, .line (settable "public IContentPipelineModel? Properties")])

/-- The type of the items of content areas. -/
def areaItemType (o : Options) : List Write :=
  valueFile o
    (block "public partial class ContentAreaItemPipelineModel"
      [.line (settable "public string? DisplayOption"), .blank,
        .line (settable "public IContentPipelineModel? Content")])

/-- The type of content areas. -/
def areaType (o : Options) : List Write :=
  file ["System.Collections.Generic"] (under o "Properties")
    (block "public partial class ContentAreaPipelineModel"
      [.line (settable "public IEnumerable<ContentAreaItemPipelineModel>? Items")])

/-- The files of the value types. -/
def valueTypes (o : Options) : List SharedFile :=
  [⟨"Link", .property, linkType o⟩, ⟨"Media", .property, mediaType o⟩,
    ⟨"ContentAreaItemPipelineModel", .property, areaItemType o⟩,
    ⟨"ContentAreaPipelineModel", .property, areaType o⟩]

end ContentLoom.Generated

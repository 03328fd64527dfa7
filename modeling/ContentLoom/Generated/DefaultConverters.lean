import ContentLoom.Generated.Contracts

/-!
# Default converters

The classes that do the work of the known converters and of the converter of
enumerations.
-/

namespace ContentLoom.Generated

open Code

/-- What the constructor of a known converter is given: types and parameters. -/
def dependencies : KnownConverter → List (String × String)
  | .block => [("IContentLoader", "contentLoader")]
  | .contentArea => [("IContentLoader", "contentLoader")]
  | .contentReference => [("IUrlResolver", "urlResolver")]
  | .link => [("IUrlResolver", "urlResolver")]
  | .media => [("IUrlResolver", "urlResolver"), ("IContentLoader", "contentLoader")]
  | .xhtmlString => [("IXhtmlRenderService", "xhtmlRenderService")]
  | .embeddedBlock => []

/-- The body by which a known converter gives its value. -/
def converterBody : KnownConverter → List String
  | .block => [
    "if (ContentReference.IsNullOrEmpty(property))",
    "    return null;",
    "",
    "if (!_contentLoader.TryGet<IContentData>(property, Language(pipelineContext), out var block))",
    "    return null;",
    "",
    "return pipelineContext.ContentPipelineService.ExecutePipeline(block, pipelineContext);"]
  | .embeddedBlock => [
    "if (property is null)",
    "    return null;",
    "",
    "return pipelineContext.ContentPipelineService.ExecutePipeline(property, pipelineContext);"]
  | .contentReference => [
    "if (ContentReference.IsNullOrEmpty(property))",
    "    return new Link();",
    "",
    "return new Link { Url = _urlResolver.GetUrl(property, pipelineContext.Language?.Name) };"]
  | .contentArea => [
    "if (property is null)",
    "    return null;",
    "",
    "var items = new List<ContentAreaItemPipelineModel>();",
    "foreach (var item in property.FilteredItems)",
    openBrace,
    "    if (!_contentLoader.TryGet<IContentData>(item.ContentLink, Language(pipelineContext), out var itemContent))",
    "        continue;",
    "",
    "    items.Add(new ContentAreaItemPipelineModel",
    "    " ++ openBrace,
    "        DisplayOption = item.RenderSettings.TryGetValue(\"data-epi-content-display-option\", out var option) ? option?.ToString() : null,",
    "        Content = pipelineContext.ContentPipelineService.ExecutePipeline(itemContent, pipelineContext),",
    "    " ++ closeBrace ++ ");",
    closeBrace,
    "",
    "return new ContentAreaPipelineModel { Items = items };"]
  | .link => [
    "if (property is null)",
    "    return new Link();",
    "",
    "if (!property.IsAbsoluteUri)",
    openBrace,
    "    var content = _urlResolver.Route(new UrlBuilder(property.OriginalString));",
    "    if (content is not null && !ContentReference.IsNullOrEmpty(content.ContentLink))",
    "    " ++ openBrace,
    "        var url = _urlResolver.GetUrl(content.ContentLink, pipelineContext.Language?.Name);",
    "        if (string.IsNullOrEmpty(url))",
    "            url = property.ToString();",
    "",
    "        return new Link { Url = url };",
    "    " ++ closeBrace,
    closeBrace,
    "",
    "return new Link { Url = property.ToString() };"]
  | .media => [
    "if (ContentReference.IsNullOrEmpty(property))",
    "    return new Media();",
    "",
    "if (!_contentLoader.TryGet<IContentData>(property, Language(pipelineContext), out var media))",
    "    return new Media();",
    "",
    "return new Media",
    openBrace,
    "    Url = _urlResolver.GetUrl(property, pipelineContext.Language?.Name),",
    "    Type = media.GetOriginalType().Name,",
    "    Properties = pipelineContext.ContentPipelineService.ExecutePipeline(media, pipelineContext),",
    closeBrace ++ ";"]
  | .xhtmlString => [
    "return _xhtmlRenderService.RenderXhtmlString(pipelineContext.HttpContext, property);"]

/-- A file in the namespace of converters. -/
def converterFile (o : Options) (body : List Write) : List Write :=
  file ["System", "System.Collections.Generic", "System.Globalization", "EPiServer",
    "EPiServer.Core", "EPiServer.Web.Routing", under o "Interfaces", under o "Properties"]
    (under o "Converters") body

/-- The parameters of a converter after the property itself. -/
def callParameters : List String :=
  ["IContentData content,", "string propertyName,", "IContentPipelineContext pipelineContext,",
    "Dictionary<string, string>? config = null)"]

/-- The converter of enumerations. -/
def enumConverter (o : Options) : List Write :=
  converterFile o
    (summary "Maps an enum value to its canonical name" ++
      .line "public class EnumConverter<TEnum> : IEnumConverter<TEnum>" ::
      (indented (lines ["where TEnum : Enum"]) ++
        block ""
          (.line "public string? GetValue(" ::
            (indented (lines ("TEnum property," :: callParameters)) ++
              block "" [.line "return property.ToString();"]))))

/-- The fields and the constructor of a converter that is given something. -/
def construction (name : String) (given : List (String × String)) : List Write :=
  if given.isEmpty then []
  else
    (given.map fun (type, parameter) =>
      .line ("private readonly " ++ type ++ " _" ++ parameter ++ ";")) ++
    [.blank] ++
    block
      ("public " ++ name ++ "(" ++
        ", ".intercalate (given.map fun (type, parameter) => type ++ " " ++ parameter) ++ ")")
      (given.map fun (_, parameter) => .line ("_" ++ parameter ++ " = " ++ parameter ++ ";")) ++
    [.blank]

/-- The member by which a converter that loads content finds the language. -/
def languageMember : List Write :=
  .blank ::
    .line "private static CultureInfo Language(IContentPipelineContext pipelineContext) =>" ::
    indented (lines ["pipelineContext.Language ?? CultureInfo.InvariantCulture;"])

/-- A known converter. -/
def knownConverter (o : Options) (c : KnownConverter) : List Write :=
  let given := dependencies c
  let loadsContent := given.any fun (type, _) => type == "IContentLoader"
  converterFile o
    (block ("public class " ++ c.implementation ++ " : " ++ c.contract)
      (construction c.implementation given ++
        .line ("public " ++ (contractTypes c).2 ++ " GetValue(") ::
        (indented (lines (((contractTypes c).1 ++ " property,") :: callParameters)) ++
          (block "" (lines (converterBody c)) ++
            if loadsContent then languageMember else []))))

/-- The files of the default converters. -/
def defaultConverters (o : Options) : List SharedFile :=
  ⟨"EnumConverter", .converter, enumConverter o⟩ ::
    KnownConverter.all.map fun c => ⟨c.implementation, .converter, knownConverter o c⟩

end ContentLoom.Generated

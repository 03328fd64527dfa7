import ContentLoom.Generated.Layout

/-!
# Contracts

The interfaces that generated and hand-written code share.
-/

namespace ContentLoom.Generated

open Code

/-- The property type and the value type of a known converter. -/
def contractTypes : KnownConverter → String × String
  | .block => ("ContentReference?", "IContentPipelineModel?")
  | .embeddedBlock => ("BlockData?", "IContentPipelineModel?")
  | .contentReference => ("ContentReference?", "Link")
  | .contentArea => ("ContentArea?", "ContentAreaPipelineModel?")
  | .link => ("EPiServer.Url?", "Link?")
  | .media => ("ContentReference?", "Media?")
  | .xhtmlString => ("XhtmlString?", "string")

/-- A file in the namespace of contracts. -/
def contractFile (o : Options) (used : List String) (body : List Write) : List Write :=
  file used o.interfaceNamespace body

/-- The interface of all models. -/
def modelContract (o : Options) : List Write :=
  contractFile o []
    (summary "Implemented by every pipeline model" ++
      block "public partial interface IContentPipelineModel"
        (summary "Tag identifying the concrete model; drives polymorphic serialization" ++
          [.line (readable "string PipelineModelType")]))

/-- The interface of links. -/
def linkContract (o : Options) : List Write :=
  contractFile o []
    (block "public partial interface ILinkPipelineModel" [.line (settable "string? Url")])

/-- The interfaces of all converters. -/
def propertyConverterContract (o : Options) : List Write :=
  contractFile o ["System.Collections.Generic", "EPiServer.Core"]
    (summary "Marker implemented by every property converter" ++
      block "public interface IContentPropertyConverter" [] ++
      [.blank] ++
      summary "Turns a content property value into its pipeline model value" ++
      [.line "public interface IContentPropertyConverter<in TProperty, out TValue> : IContentPropertyConverter"] ++
      block ""
        (.line "TValue GetValue(" ::
          indented (lines ["TProperty property,", "IContentData content,", "string propertyName,",
            "IContentPipelineContext pipelineContext,",
            "Dictionary<string, string>? config = null);"])))

/-- The interface of a known converter. -/
def converterContract (o : Options) (c : KnownConverter) : List Write :=
  contractFile o ["EPiServer.Core", under o "Properties"]
    (.line ("public partial interface " ++ c.contract ++ " : IContentPropertyConverter<" ++
        (contractTypes c).1 ++ ", " ++ (contractTypes c).2 ++ ">") ::
      block "" [])

/-- The interface of the converter of enumerations. -/
def enumConverterContract (o : Options) : List Write :=
  contractFile o ["System"]
    (.line "public partial interface IEnumConverter<TEnum> : IContentPropertyConverter<TEnum, string?>" ::
      (indented (lines ["where TEnum : Enum"]) ++ block "" []))

/-- The interface of the renderer of rich text. -/
def xhtmlRenderContract (o : Options) : List Write :=
  contractFile o ["EPiServer.Core", "Microsoft.AspNetCore.Http"]
    (block "public interface IXhtmlRenderService"
      [.line "string RenderXhtmlString(HttpContext? context, XhtmlString? xhtmlString);"])

/-- The interface of what steps and converters are told. -/
def contextContract (o : Options) : List Write :=
  contractFile o ["System.Globalization", "Microsoft.AspNetCore.Http"]
    (summary "Ambient state handed to every step and converter" ++
      block "public interface IContentPipelineContext"
        [.line (readable "HttpContext HttpContext"), .blank,
          .line (readable "IContentPipelineService ContentPipelineService"), .blank,
          .line (readable "CultureInfo? Language")])

/-- The interface of steps. -/
def stepContract (o : Options) : List Write :=
  contractFile o ["System.Threading.Tasks", "EPiServer.Core"]
    (.line "public interface IContentPipelineStep<in TContent, in TPipelineModel>" ::
      (indented (lines ["where TContent : IContentData",
          "where TPipelineModel : IContentPipelineModel"]) ++
        block ""
          (summary "Steps run in ascending order" ++
            [.line (readable "int Order"), .blank, .line (readable "bool IsAsync"), .blank,
              .line "void Execute(TContent content, TPipelineModel contentPipelineModel, IContentPipelineContext pipelineContext);",
              .blank,
              .line "Task ExecuteAsync(TContent content, TPipelineModel contentPipelineModel, IContentPipelineContext pipelineContext);"])))

/-- The interface of pipelines. -/
def pipelineContract (o : Options) : List Write :=
  contractFile o ["System.Threading.Tasks", "EPiServer.Core"]
    (.line "public interface IContentPipeline<in TContent, TPipelineModel>" ::
      (indented (lines ["where TContent : IContentData",
          "where TPipelineModel : IContentPipelineModel, new()"]) ++
        block ""
          [.line "TPipelineModel Run(TContent content, IContentPipelineContext pipelineContext);",
            .blank,
            .line "Task<TPipelineModel> RunAsync(TContent content, IContentPipelineContext pipelineContext);"]))

/-- The interface of the service. -/
def serviceContract (o : Options) : List Write :=
  contractFile o ["System.Threading.Tasks", "EPiServer.Core", under o "Entities"]
    (block "public interface IContentPipelineService"
      [.line "IContentPipelineModel? ExecutePipeline(IContentData? content, IContentPipelineContext pipelineContext);",
        .blank, .line "IContentPipelineModel? ExecutePipeline(PipelineArgs pipelineArgs);", .blank,
        .line "Task<IContentPipelineModel?> ExecutePipelineAsync(IContentData? content, IContentPipelineContext pipelineContext);",
        .blank,
        .line "Task<IContentPipelineModel?> ExecutePipelineAsync(PipelineArgs pipelineArgs);"])

/-- The files of the contracts. -/
def contracts (o : Options) : List SharedFile :=
  [⟨"IContentPipelineModel", .interface, modelContract o⟩,
    ⟨"ILinkPipelineModel", .interface, linkContract o⟩,
    ⟨"IContentPropertyConverter", .interface, propertyConverterContract o⟩] ++
  (KnownConverter.all.map fun c => ⟨c.contract, .interface, converterContract o c⟩) ++
  [⟨"IEnumConverter", .interface, enumConverterContract o⟩,
    ⟨"IXhtmlRenderService", .interface, xhtmlRenderContract o⟩,
    ⟨"IContentPipelineContext", .interface, contextContract o⟩,
    ⟨"IContentPipelineStep", .interface, stepContract o⟩,
    ⟨"IContentPipeline", .interface, pipelineContract o⟩,
    ⟨"IContentPipelineService", .interface, serviceContract o⟩]

end ContentLoom.Generated

import ContentLoom.Generated.Layout
import ContentLoom.Naming.Members

/-!
# Service classes

The service that runs the pipeline of the exact type of some content, what it
is given, and the renderer of rich text.
-/

namespace ContentLoom.Generated

open Code

/-- A file in the namespace of entities. -/
def entityFile (o : Options) (body : List Write) : List Write :=
  file ["System.Globalization", "EPiServer.Core", "Microsoft.AspNetCore.Http",
    under o "Interfaces"] (under o "Entities") body

/-- A file in the namespace of services. -/
def serviceFile (o : Options) (body : List Write) : List Write :=
  file ["System.Threading.Tasks", "EPiServer", "EPiServer.Core", under o "Interfaces",
    under o "Entities", under o "Models"] (under o "Services") body

/-- The record of what a run is given from outside. -/
def pipelineArgs (o : Options) : List Write :=
  entityFile o
    (summary "Everything needed to run a pipeline from outside a step" ++
      [.line "public record PipelineArgs(HttpContext HttpContext, IContentData? Content, CultureInfo? Language);"])

/-- The record of what steps and converters are told. -/
def pipelineContext (o : Options) : List Write :=
  entityFile o
    (.line "public record ContentPipelineContext(" ::
      indented (lines ["HttpContext HttpContext,",
        "IContentPipelineService ContentPipelineService,",
        "CultureInfo? Language) : IContentPipelineContext;"]))

/-- The base class of the service. -/
def baseService (o : Options) : List Write :=
  serviceFile o
    (block "public abstract class BaseContentPipelineService : IContentPipelineService"
      (.line "public IContentPipelineModel? ExecutePipeline(IContentData? content, IContentPipelineContext pipelineContext) =>" ::
        (indented (lines ["content is null ? null : RunPipelineForContent(content, pipelineContext);"]) ++
          [.blank, .line "public IContentPipelineModel? ExecutePipeline(PipelineArgs pipelineArgs) =>"] ++
          indented (lines ["ExecutePipeline(pipelineArgs.Content, ContextFor(pipelineArgs));"]) ++
          [.blank] ++
          block "public async Task<IContentPipelineModel?> ExecutePipelineAsync(IContentData? content, IContentPipelineContext pipelineContext)"
            (lines ["if (content is null)", "    return null;"] ++
              [.blank, .line "return await RunPipelineForContentAsync(content, pipelineContext);"]) ++
          [.blank, .line "public Task<IContentPipelineModel?> ExecutePipelineAsync(PipelineArgs pipelineArgs) =>"] ++
          indented (lines ["ExecutePipelineAsync(pipelineArgs.Content, ContextFor(pipelineArgs));"]) ++
          [.blank,
            .line "protected abstract IContentPipelineModel RunPipelineForContent(IContentData content, IContentPipelineContext pipelineContext);",
            .blank,
            .line "protected abstract Task<IContentPipelineModel> RunPipelineForContentAsync(IContentData content, IContentPipelineContext pipelineContext);",
            .blank,
            .line "private IContentPipelineContext ContextFor(PipelineArgs pipelineArgs) =>"] ++
          indented (lines ["new ContentPipelineContext(pipelineArgs.HttpContext, this, pipelineArgs.Language);"]))))

/-! ### The service -/

/-- A class as the service dispatches to it. -/
structure Branch where
  /-- The type of the content. -/
  content : String
  /-- The type of its pipeline. -/
  pipeline : String
  /-- The name of the member that holds the pipeline. -/
  member : String
deriving DecidableEq

/-- The branches of the service, in the order of the classes. -/
def branches (o : Options) (classes : List ContentClass) : List Branch :=
  (classes.zip (Naming.pipelineMembers classes)).map fun (c, member) =>
    let content := rooted c.fullName
    ⟨content, "IContentPipeline<" ++ content ++ ", " ++ rooted (modelType o c) ++ ">",
      Naming.lowerFirst member⟩

/-- Lines that all end alike but the last. -/
def separated (between last : String) : List String → List String
  | [] => []
  | [t] => [t ++ last]
  | t :: ts => (t ++ between) :: separated between last ts

/-- The constructor of the service. -/
def serviceConstructor (bs : List Branch) : List Write :=
  if bs.isEmpty then block "public ContentPipelineService()" []
  else
    .line "public ContentPipelineService(" ::
      (indented (lines (separated "," ")" (bs.map fun b => b.pipeline ++ " " ++ b.member))) ++
        block "" (bs.map fun b => .line ("_" ++ b.member ++ " = " ++ b.member ++ ";")))

/-- A member that runs the pipeline of the first branch with the type of the content. -/
def dispatchMember (header : String) (call : Branch → String) (otherwise : String)
    (bs : List Branch) : List Write :=
  block header
    ((if bs.isEmpty then [] else [.line "var contentType = content.GetOriginalType();"]) ++
      (bs.flatMap fun b =>
        lines ["if (contentType == typeof(" ++ b.content ++ "))", "    return " ++ call b]) ++
      (if bs.isEmpty then [] else [.blank]) ++
      [.line otherwise])

/-- How the pipeline of a branch is run. -/
def runCall (b : Branch) : String :=
  "_" ++ b.member ++ ".Run((" ++ b.content ++ ")content, pipelineContext);"

/-- How the pipeline of a branch is run by a caller that waits. -/
def waitingCall (b : Branch) : String :=
  "Widen(_" ++ b.member ++ ".RunAsync((" ++ b.content ++ ")content, pipelineContext));"

/-- The service. -/
def pipelineService (o : Options) (classes : List ContentClass) : List Write :=
  let bs := branches o classes
  serviceFile o
    (summary "Dispatches content to the pipeline of its exact type" ++
      block "public partial class ContentPipelineService : BaseContentPipelineService"
        ((bs.map fun b => .line ("private readonly " ++ b.pipeline ++ " _" ++ b.member ++ ";")) ++
          (if bs.isEmpty then [] else [.blank]) ++
          serviceConstructor bs ++
          [.blank] ++
          dispatchMember
            "protected override IContentPipelineModel RunPipelineForContent(IContentData content, IContentPipelineContext pipelineContext)"
            runCall "return new ContentPipelineModel();" bs ++
          [.blank] ++
          dispatchMember
            "protected override Task<IContentPipelineModel> RunPipelineForContentAsync(IContentData content, IContentPipelineContext pipelineContext)"
            waitingCall
            "return Task.FromResult<IContentPipelineModel>(new ContentPipelineModel());" bs ++
          [.blank,
            .line "private static async Task<IContentPipelineModel> Widen<TPipelineModel>(Task<TPipelineModel> run)"] ++
          indented (lines ["where TPipelineModel : IContentPipelineModel"]) ++
          block "" [.line "return await run;"]))

/-- The renderer of rich text. -/
def xhtmlRenderService (o : Options) : List Write :=
  file ["EPiServer.Core", "Microsoft.AspNetCore.Http", under o "Interfaces"] (under o "Services")
    (block "public class XhtmlRenderService : IXhtmlRenderService"
      (block "public virtual string RenderXhtmlString(HttpContext? context, XhtmlString? xhtmlString)"
        (lines ["if (xhtmlString is null)", "    return string.Empty;"] ++
          [.blank, .line "return xhtmlString.ToHtmlString();"])))

/-- The files of the service classes. -/
def serviceClasses (o : Options) (classes : List ContentClass) : List SharedFile :=
  [⟨"PipelineArgs", .service, pipelineArgs o⟩,
    ⟨"ContentPipelineContext", .service, pipelineContext o⟩,
    ⟨"BaseContentPipelineService", .service, baseService o⟩,
    ⟨"ContentPipelineService", .service, pipelineService o classes⟩,
    ⟨"XhtmlRenderService", .service, xhtmlRenderService o⟩]

end ContentLoom.Generated

import ContentLoom.Generated.Layout

/-!
# Bases of pipelines

The base classes of steps and the pipeline that runs steps in order.
-/

namespace ContentLoom.Generated

open Code

/-- A file in the namespace of pipelines. -/
def pipelineFile (o : Options) (used : List String) (body : List Write) : List Write :=
  file (["System.Threading.Tasks", "EPiServer.Core"] ++ used ++ [under o "Interfaces"])
    (under o "Pipelines") body

/-- The parameters of a step as it is run. -/
def stepParameters : String :=
  "(TContent content, TPipelineModel contentPipelineModel, IContentPipelineContext pipelineContext)"

/-- A base class of steps with its order. -/
def stepBase (name : String) (body : List Write) : List Write :=
  .line ("public abstract class " ++ name ++
      "<TContent, TPipelineModel> : IContentPipelineStep<TContent, TPipelineModel>") ::
    (indented (lines ["where TContent : IContentData",
        "where TPipelineModel : IContentPipelineModel"]) ++
      block ""
        (block ("protected " ++ name ++ "(int order)") [.line "Order = order;"] ++
          [.blank, .line (readable "public int Order"), .blank] ++ body))

/-- The base class of steps that finish at once. -/
def directStepBase (o : Options) : List Write :=
  pipelineFile o []
    (summary "Base class of synchronous steps" ++
      stepBase "ContentPipelineStep"
        ([.line "public bool IsAsync => false;", .blank,
            .line ("public abstract void Execute" ++ stepParameters ++ ";"), .blank] ++
          block ("public Task ExecuteAsync" ++ stepParameters)
            (lines ["Execute(content, contentPipelineModel, pipelineContext);",
              "return Task.CompletedTask;"])))

/-- The base class of steps that wait. -/
def waitingStepBase (o : Options) : List Write :=
  pipelineFile o []
    (summary "Base class of steps that do I/O" ++
      stepBase "AsyncContentPipelineStep"
        ([.line "public bool IsAsync => true;", .blank,
            .line ("public abstract Task ExecuteAsync" ++ stepParameters ++ ";"), .blank] ++
          block ("public void Execute" ++ stepParameters)
            (lines ["ExecuteAsync(content, contentPipelineModel, pipelineContext).GetAwaiter().GetResult();"])))

/-- A member that runs the shared steps and then the steps of the class. -/
def runMember (header call : String) : List Write :=
  block header
    (.line "var contentPipelineModel = new TPipelineModel();" ::
      (block "if (contentPipelineModel is ContentPipelineModel sharedModel)"
          (block "foreach (var step in _sharedSteps)"
            [.line (call ++ "(content, sharedModel, pipelineContext);")]) ++
        [.blank] ++
        block "foreach (var step in _steps)"
          [.line (call ++ "(content, contentPipelineModel, pipelineContext);")] ++
        [.blank, .line "return contentPipelineModel;"]))

/-- The pipeline that runs steps in order. -/
def defaultPipeline (o : Options) : List Write :=
  pipelineFile o ["System.Collections.Generic", "System.Linq", under o "Models"]
    (summary "Runs the shared steps, then the class steps, each in ascending order" ++
      .line "public class DefaultContentPipeline<TContent, TPipelineModel> : IContentPipeline<TContent, TPipelineModel>" ::
      (indented (lines ["where TContent : IContentData",
          "where TPipelineModel : IContentPipelineModel, new()"]) ++
        block ""
          (lines ["private readonly IReadOnlyList<IContentPipelineStep<IContentData, ContentPipelineModel>> _sharedSteps;",
              "private readonly IReadOnlyList<IContentPipelineStep<TContent, TPipelineModel>> _steps;"] ++
            [.blank, .line "public DefaultContentPipeline("] ++
            indented (lines ["IEnumerable<IContentPipelineStep<IContentData, ContentPipelineModel>> sharedSteps,",
              "IEnumerable<IContentPipelineStep<TContent, TPipelineModel>> steps)"]) ++
            block "" (lines ["_sharedSteps = sharedSteps.OrderBy(step => step.Order).ToList();",
              "_steps = steps.OrderBy(step => step.Order).ToList();"]) ++
            [.blank] ++
            runMember "public TPipelineModel Run(TContent content, IContentPipelineContext pipelineContext)"
              "step.Execute" ++
            [.blank] ++
            runMember "public async Task<TPipelineModel> RunAsync(TContent content, IContentPipelineContext pipelineContext)"
              "await step.ExecuteAsync")))

/-- The files of the bases of pipelines. -/
def pipelineBases (o : Options) : List SharedFile :=
  [⟨"ContentPipelineStep", .pipeline, directStepBase o⟩,
    ⟨"AsyncContentPipelineStep", .pipeline, waitingStepBase o⟩,
    ⟨"DefaultContentPipeline", .pipeline, defaultPipeline o⟩]

end ContentLoom.Generated

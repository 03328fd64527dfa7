import ContentLoom.Generated.Layout
import ContentLoom.Generated.ServiceClasses

/-!
# Registrations

The extensions that register the steps, the converters and the service.
-/

namespace ContentLoom.Generated

open Code

/-- A file in the namespace of registrations. -/
def registrationFile (o : Options) (body : List Write) : List Write :=
  file ["Microsoft.Extensions.DependencyInjection", under o "Interfaces", under o "Converters",
    under o "Pipelines", under o "Services"] (under o "ServiceCollectionExtensions") body

/-- The registration of the step of a class. -/
def stepRegistration (o : Options) (c : ContentClass) : String :=
  ".AddSingleton<IContentPipelineStep<" ++ rooted c.fullName ++ ", " ++ rooted (modelType o c) ++
    ">, " ++ rooted (stepType o c) ++ ">()"

/-- The registrations of all steps. -/
def stepRegistrations (o : Options) (classes : List ContentClass) : List Write :=
  registrationFile o
    (block "public static class PipelineStepsServiceCollectionExtensions"
      (block "public static IServiceCollection AddContentPipelineGeneratedSteps(this IServiceCollection services)"
        (if classes.isEmpty then [.line "return services;"]
        else
          .line "return services" ::
            indented (lines (separated "" ";" (classes.map (stepRegistration o)))))))

/-- The registrations of the converters and the service. -/
def serviceRegistrations (o : Options) : List Write :=
  registrationFile o
    (block "public static class ContentPipelineServiceCollectionExtensions"
      (block "public static IServiceCollection AddContentPipelineServices(this IServiceCollection services)"
        (.line "return services" ::
          indented (lines
            ([".AddContentPipelineGeneratedSteps()",
                ".AddTransient<IXhtmlRenderService, XhtmlRenderService>()",
                ".AddSingleton<IContentPipelineService, ContentPipelineService>()"] ++
              (KnownConverter.all.map fun c =>
                ".AddSingleton<" ++ c.contract ++ ", " ++ c.implementation ++ ">()") ++
              [".AddSingleton(typeof(IEnumConverter<>), typeof(EnumConverter<>))",
                ".AddSingleton(typeof(IContentPipeline<,>), typeof(DefaultContentPipeline<,>));"])))))

/-- The files of the registrations. -/
def registrations (o : Options) (classes : List ContentClass) : List SharedFile :=
  [⟨"PipelineStepsServiceCollectionExtensions", .registration, stepRegistrations o classes⟩,
    ⟨"ContentPipelineServiceCollectionExtensions", .registration, serviceRegistrations o⟩]

end ContentLoom.Generated

import ContentLoom.Code.Literal
import ContentLoom.Generated.Layout

/-!
# Serializers

The classes that write a model as the type that its tag names.
-/

namespace ContentLoom.Generated

open Code

/-- A case of a switch over tags. -/
structure Case where
  tag : String
  type : String
deriving DecidableEq

/-- The cases for some classes: one for each tag, with the type of the first class that has it. -/
def cases (o : Options) (classes : List ContentClass) : List Case :=
  classes.foldl (fun found c =>
    if found.any (·.tag == c.discriminant) then found
    else found ++ [⟨c.discriminant, modelType o c⟩]) []

/-- The code of a case. -/
def caseCode (c : Case) : List Write :=
  .line ("case " ++ literal c.tag ++ ":") ::
    indented (lines ["JsonSerializer.Serialize(writer, (" ++ rooted c.type ++ ")value, options);",
      "break;"])

/-- The line that writes a value as what it is. -/
def fallbackLine : String :=
  "JsonSerializer.Serialize<object>(writer, value, FallbackOptions);"

/-- The code that writes a value. -/
def writeBody (o : Options) (classes : List ContentClass) : List Write :=
  if classes.isEmpty then [.line fallbackLine]
  else
    block "switch (value.PipelineModelType)"
      ((cases o classes).flatMap caseCode ++
        (.line "default:" :: indented (lines [fallbackLine, "break;"])))

/-- A serializer for an interface. -/
def serializer (o : Options) (name contract : String) (classes : List ContentClass) :
    List Write :=
  file ["System", "System.Text.Json", "System.Text.Json.Serialization", under o "Interfaces"]
    (under o "JsonConverters")
    (block ("public class " ++ name ++ " : JsonConverter<" ++ contract ++ ">")
      (.line "private static readonly JsonSerializerOptions FallbackOptions = new(JsonSerializerDefaults.Web)" ::
        (blockWith (closeBrace ++ ";") ""
            [.line "DefaultIgnoreCondition = JsonIgnoreCondition.WhenWritingNull,"] ++
          [.blank, .line "public override bool HandleNull => false;", .blank,
            .line ("public override " ++ contract ++
              "? Read(ref Utf8JsonReader reader, Type typeToConvert, JsonSerializerOptions options) =>")] ++
          indented (lines ["throw new NotSupportedException(\"Pipeline models are write-only.\");"]) ++
          [.blank] ++
          block ("public override void Write(Utf8JsonWriter writer, " ++ contract ++
              " value, JsonSerializerOptions options)")
            (writeBody o classes))))

/-- The files of the serializers. -/
def serializers (o : Options) (classes : List ContentClass) : List SharedFile :=
  [⟨"ContentPipelineModelJsonConverter", .jsonConverter,
      serializer o "ContentPipelineModelJsonConverter" "IContentPipelineModel" classes⟩,
    ⟨"LinkPipelineModelJsonConverter", .jsonConverter,
      serializer o "LinkPipelineModelJsonConverter" "ILinkPipelineModel" []⟩]

end ContentLoom.Generated

import ContentLoom.Pipeline.Mapping

/-!
# Services

A service runs the pipeline of the exact type of an item: first the shared
steps, then those of the class, each kind by increasing order.  An item whose
type has no pipeline gets the base model after the shared steps.  Items nested
in it are run one level deeper, down to a limit.
-/

namespace ContentLoom.Pipeline

/-- The pipeline of a class. -/
structure ClassPipeline (σ : Type) where
  kind : ModelKind
  steps : List (Step σ)

/-- A composed service. -/
structure Service (σ : Type) where
  pipelines : Dictionary (ClassPipeline σ)
  shared : List (Step σ)
  maxDepth : Nat

variable {σ : Type}

/-! ### Composing -/

/-- The depth to which items may be nested unless another is given. -/
def standardMaxDepth : Nat := 16

/-- What a service is composed of. -/
structure Composition (σ : Type) where
  classes : List ContentClass
  registry : Registry σ
  /-- Steps for every item. -/
  shared : List (Step σ)
  /-- Steps for the items of one type beside its mapping step. -/
  extra : List (String × Step σ)
  maxDepth : Nat

/-- A step that is added to a composition. -/
inductive Addition (σ : Type) where
  /-- A step for every item. -/
  | shared (step : Step σ)
  /-- A step for the items of one type. -/
  | ofType (type : String) (step : Step σ)

namespace Composition

/-- Some classes without further steps. -/
def ofClasses (classes : List ContentClass) (r : Registry σ) (maxDepth : Nat) : Composition σ :=
  ⟨classes, r, [], [], maxDepth⟩

/-- The composition with one more step behind those of its kind. -/
def add (c : Composition σ) : Addition σ → Composition σ
  | .shared step => { c with shared := c.shared ++ [step] }
  | .ofType type step => { c with extra := c.extra ++ [(type, step)] }

/-- The pipelines of some classes with their mapping steps; of two classes with one name the
later counts. -/
def classPipelines (r : Registry σ) :
    Dictionary (ClassPipeline σ) → List ContentClass →
      Except PipelineFailure (Dictionary (ClassPipeline σ))
  | known, [] => .ok known
  | known, c :: cs => do
    let mapping ← MappingStep.of r c
    classPipelines r (known.insert c.fullName ⟨.ofClass c.discriminant, [mapping.toStep]⟩) cs

/-- Adds steps to the pipelines of their types. -/
def addSteps : Dictionary (ClassPipeline σ) → List (String × Step σ) →
    Except PipelineFailure (Dictionary (ClassPipeline σ))
  | known, [] => .ok known
  | known, (type, step) :: rest =>
    match known.get? type with
    | none => .error (.unknownContentType type)
    | some pipeline =>
      addSteps (known.insert type { pipeline with steps := pipeline.steps ++ [step] }) rest

/-- The pipeline with its steps by increasing order. -/
def inOrder (p : ClassPipeline σ) : ClassPipeline σ := { p with steps := Step.inOrder p.steps }

/-- Composes the service. -/
def build (c : Composition σ) : Except PipelineFailure (Service σ) := do
  let mapped ← classPipelines c.registry .empty c.classes
  let complete ← addSteps mapped c.extra
  pure ⟨complete.map inOrder, Step.inOrder c.shared, c.maxDepth⟩

end Composition

/-! ### Running -/

/-- What a service is asked to run. -/
structure PipelineArgs where
  content : Option ContentItem
  language : Option String

/-- The request as JSON. -/
def PipelineArgs.toJson (a : PipelineArgs) : Json :=
  .obj [("content", match a.content with
      | some item => item.toJson
      | none => .null),
    ("language", Json.ofText? a.language)]

namespace Service

/-- The types that have a pipeline, in increasing order. -/
def contentTypes (s : Service σ) : List String := s.pipelines.names

/-- Whether a type has a pipeline. -/
def handles (s : Service σ) (contentType : String) : Bool := s.pipelines.contains contentType

/-- The model that a run of an item starts with, and the steps of its class. -/
def prepare (s : Service σ) (item : ContentItem) : PipelineModel × List (Step σ) :=
  match s.pipelines.get? item.contentType with
  | some pipeline => (.ofKind pipeline.kind, pipeline.steps)
  | none => (.base, [])

/-- Applies steps to a model one after another. -/
def applySteps (mode : Mode) (context : Context σ) (item : ContentItem) :
    List (Step σ) → PipelineModel → Run σ PipelineModel
  | [], model => pure model
  | step :: steps, model => do
    let model ← step.execute mode context item model
    applySteps mode context item steps model

/-- Runs the pipeline of an item in a context. -/
def runIn (s : Service σ) (mode : Mode) (context : Context σ) (item : ContentItem) :
    Run σ PipelineModel :=
  let (model, steps) := s.prepare item
  applySteps mode context item (s.shared ++ steps) model

/-- Runs the pipeline of an item with room for a number of levels below it. -/
def runAbove (s : Service σ) (language : Option String) :
    Nat → Mode → ContentItem → Run σ PipelineModel
  | 0, mode, item =>
    s.runIn mode ⟨language, s.maxDepth, s.maxDepth, fun _ => throw (.recursionLimit s.maxDepth)⟩
      item
  | room + 1, mode, item =>
    s.runIn mode ⟨language, s.maxDepth - (room + 1), s.maxDepth,
      runAbove s language room .immediate⟩ item

/-- What the steps of an item see with room for a number of levels below it. -/
def contextAbove (s : Service σ) (language : Option String) (room : Nat) : Context σ where
  language := language
  depth := s.maxDepth - room
  limit := s.maxDepth
  nested := match room with
    | 0 => fun _ => throw (.recursionLimit s.maxDepth)
    | room + 1 => s.runAbove language room .immediate

theorem runAbove_eq_runIn (s : Service σ) (language : Option String) (room : Nat) (mode : Mode)
    (item : ContentItem) :
    s.runAbove language room mode item = s.runIn mode (s.contextAbove language room) item := by
  cases room <;> rfl

/-- Runs the pipeline of an item. -/
def execute (s : Service σ) (mode : Mode) (item : ContentItem) (language : Option String) :
    Run σ PipelineModel :=
  s.runAbove language s.maxDepth mode item

/-- Runs the pipeline of the item of a request, if it has one. -/
def executeArgs (s : Service σ) (mode : Mode) (args : PipelineArgs) :
    Run σ (Option PipelineModel) :=
  match args.content with
  | some item => some <$> s.execute mode item args.language
  | none => pure none

end Service

end ContentLoom.Pipeline

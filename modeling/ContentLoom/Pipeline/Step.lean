import ContentLoom.Model.Value
import ContentLoom.Pipeline.Failure

/-!
# Steps and converters

A step changes the model of an item; a converter turns one raw value into a
value of the model.  Both act on a state of the caller's choice, which they
share with all that runs before and after them and which is kept when they
fail.  They see their surroundings as a context, through which they may run
the pipeline of an item nested in theirs.
-/

namespace ContentLoom.Pipeline

/-- An action of a run over a state. -/
abbrev Run (σ : Type) (α : Type) := ExceptT PipelineFailure (StateM σ) α

theorem Run.run_bind {σ α β : Type} (x : Run σ α) (f : α → Run σ β) (state : σ) :
    (x >>= f).run.run state =
      match x.run.run state with
      | (.ok a, next) => (f a).run.run next
      | (.error e, next) => (.error e, next) := by
  rw [ExceptT.run_bind, StateT.run_bind]
  rcases x.run.run state with ⟨outcome, next⟩
  cases outcome <;> rfl

/-- What a step or a converter sees of a run. -/
structure Context (σ : Type) where
  language : Option String
  /-- The number of items around the one that is run. -/
  depth : Nat
  /-- The greatest depth the service allows. -/
  limit : Nat
  /-- Runs the pipeline of an item one level deeper. -/
  nested : ContentItem → Run σ PipelineModel

/-- What a converter is told of the value. -/
structure Request where
  /-- The item that has the property. -/
  content : ContentItem
  property : String
  config : Option ConverterConfig

/-- The value of a converter argument. -/
def Request.argument? (r : Request) (key : String) : Option String := r.config.bind (·.get? key)

/-- A converter of property values. -/
structure Converter (σ : Type) where
  name : String
  convert : Context σ → Request → ContentValue → Run σ ModelValue

/-- How a caller waits for a step. -/
inductive Mode where
  | immediate
  | awaited
deriving DecidableEq

/-- A step of a pipeline. -/
structure Step (σ : Type) where
  order : Int32
  /-- Whether the step has work to wait for. -/
  isAsync : Bool
  execute : Mode → Context σ → ContentItem → PipelineModel → Run σ PipelineModel

/-- The steps by increasing order; those of one order stay as they are. -/
def Step.inOrder {σ : Type} (steps : List (Step σ)) : List (Step σ) :=
  steps.mergeSort fun a b => a.order ≤ b.order

end ContentLoom.Pipeline

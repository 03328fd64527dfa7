import ContentLoom.Pipeline.Registry

/-!
# Mapping of properties

The step that every class has: each property is copied or converted into the
model, in the order of the class.
-/

namespace ContentLoom.Pipeline

variable {σ : Type}

/-- A property with its converter; without one it is copied. -/
structure PropertyMapping (σ : Type) where
  property : String
  converter : Option (Converter σ)
  config : Option ConverterConfig

/-- Finds the converter of a property of a class. -/
def PropertyMapping.of (r : Registry σ) (className : String) (p : ContentProperty) :
    Except PipelineFailure (PropertyMapping σ) :=
  if p.conversion.isCopy then .ok ⟨p.name, none, p.config⟩
  else
    match r.get? p.conversion with
    | some converter => .ok ⟨p.name, some converter, p.config⟩
    | none => .error (.missingConverter p.conversion.text className p.name)

/-- The value that a mapping gives for an item. -/
def PropertyMapping.value (m : PropertyMapping σ) (context : Context σ) (item : ContentItem) :
    Run σ ModelValue :=
  let raw := item.property m.property
  match m.converter with
  | none => pure (ModelValue.ofContent raw)
  | some converter => converter.convert context ⟨item, m.property, m.config⟩ raw

/-- Sets the mapped properties of a model one after another. -/
def applyMappings (context : Context σ) (item : ContentItem) :
    List (PropertyMapping σ) → PipelineModel → Run σ PipelineModel
  | [], model => pure model
  | m :: ms, model => do
    let value ← m.value context item
    applyMappings context item ms (model.set m.property value)

/-- The step that maps the properties of a class. -/
structure MappingStep (σ : Type) where
  contentType : String
  mappings : List (PropertyMapping σ)

namespace MappingStep

/-- The mapping step of a class; the first property without a converter is a failure. -/
def of (r : Registry σ) (c : ContentClass) : Except PipelineFailure (MappingStep σ) := do
  let mappings ← c.properties.mapM (PropertyMapping.of r c.fullName)
  pure ⟨c.fullName, mappings⟩

/-- The mapping as a step of a pipeline. -/
def toStep (s : MappingStep σ) : Step σ where
  order := ContentClass.stepOrder
  isAsync := false
  execute _ context item model := applyMappings context item s.mappings model

end MappingStep

end ContentLoom.Pipeline

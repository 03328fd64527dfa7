import ContentLoom.Pipeline.Known

/-!
# Registry of converters

Converters by the conversion they perform.  Enumerations without a converter of
their own share one, if the registry has it; a copy never has a converter.
-/

namespace ContentLoom.Pipeline

/-- Registered converters. -/
structure Registry (σ : Type) where
  converters : List (Conversion × Converter σ)
  /-- The converter of enumerations that have none of their own. -/
  sharedEnum : Option (Converter σ)

namespace Registry

variable {σ : Type}

/-- The registry without converters. -/
def empty : Registry σ := ⟨[], none⟩

/-- Stores the converter for a conversion in the place of an earlier one. -/
def register (r : Registry σ) (id : Conversion) (converter : Converter σ) : Registry σ :=
  { r with converters := r.converters.filter (·.1 ≠ id) ++ [(id, converter)] }

/-- The registry of the known converters for a site. -/
def standard (site : Site) : Registry σ :=
  { KnownConverter.all.foldl (fun r c => r.register (.known c) (knownConverter site c)) empty with
    sharedEnum := some enumConverter }

/-- The converter for a conversion. -/
def get? (r : Registry σ) (id : Conversion) : Option (Converter σ) :=
  match id with
  | .copy => none
  | .enumeration _ => (r.converters.lookup id).orElse fun _ => r.sharedEnum
  | _ => r.converters.lookup id

/-- Whether there is a converter for a conversion. -/
def contains (r : Registry σ) (id : Conversion) : Bool := (r.get? id).isSome

/-- The number of registered converters; the one that enumerations share is not counted. -/
def size (r : Registry σ) : Nat := r.converters.length

/-- Whether nothing can be converted at all. -/
def isEmpty (r : Registry σ) : Bool := r.converters.isEmpty && r.sharedEnum.isNone

end Registry

end ContentLoom.Pipeline

import ContentLoom.ContentClass
import ContentLoom.Naming.Claim
import ContentLoom.Naming.Words

/-!
# Names of generated members

The members of the generated service, one for each class, and the converters of
a generated step, one for each conversion that is not a copy.
-/

namespace ContentLoom.Naming

/-- The name of the service member for a class, with a form of its identifier. -/
def memberForm (c : ContentClass) (id : String) : String :=
  sanitize c.group ++ id ++ sanitize c.name

/-- The names of the service members, in the order of the classes. -/
def pipelineMembers (classes : List ContentClass) : List String :=
  claimEach (fun c : ContentClass => (memberForm c c.stableId.short, memberForm c c.stableId.hex))
    id [] classes

/-- The name of a converter before names that meet are told apart. -/
def converterName : Conversion → String
  | .copy => ""
  | .known c => c.implementation
  | .enumeration type => sanitize (simpleTypeName type) ++ "EnumConverter"
  | .custom type => sanitize (simpleTypeName type)

/-- The names for some conversions, in order. -/
def converterNames (conversions : List Conversion) : List String :=
  claimEach (fun c => (converterName c, converterName c)) id [] conversions

/-- The conversions of a class with their names, by first use. -/
def converterMembers (c : ContentClass) : List (Conversion × String) :=
  c.conversions.zip (converterNames c.conversions)

end ContentLoom.Naming

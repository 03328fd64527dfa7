import ContentLoom.Graph.Hierarchy

/-!
# Markers

The five attributes that decide how a type or a property enters a model.  Of a
marker that is applied more than once the last counts, and an attribute is one
marker at most.  A class inherits the marker that puts it into a group from the
nearest type of its chain; all other markers are its own.
-/

namespace ContentLoom

/-- The markers. -/
inductive MarkerKind where
  | ignore
  | uiHint
  | converterOverride
  | contentType
  | grouping
deriving DecidableEq

namespace MarkerKind

/-- The name of the attribute class of a marker, without its suffix. -/
def stem : MarkerKind → String
  | ignore => "ContentPipelineIgnore"
  | uiHint => "UIHint"
  | converterOverride => "ContentPipelinePropertyConverter"
  | contentType => "ContentType"
  | grouping => "ContentPipelineModel"

/-- The interface that makes any attribute an override of the converter. -/
def overrideInterface : String := "IContentPipelinePropertyConverterAttribute"

/-- The marker that an attribute is; the first kind that fits. -/
def of? (a : Attribute) : Option MarkerKind :=
  if a.isOf ignore.stem then some ignore
  else if a.isOf uiHint.stem then some uiHint
  else if a.isOf converterOverride.stem || (a.interface? overrideInterface).isSome then
    some converterOverride
  else if a.isOf contentType.stem then some contentType
  else if a.isOf grouping.stem then some grouping
  else none

end MarkerKind

/-- The markers among some attributes. -/
structure Markers where
  ignore : Option Attribute
  uiHint : Option Attribute
  converterOverride : Option Attribute
  contentType : Option Attribute
  grouping : Option Attribute
deriving Inhabited

namespace Markers

/-- The last attribute that is a marker of a kind. -/
def last? (attributes : List Attribute) (kind : MarkerKind) : Option Attribute :=
  attributes.reverse.find? fun a => MarkerKind.of? a == some kind

/-- The place of the last attribute that is a marker of a kind. -/
def lastPlace? (attributes : List Attribute) (kind : MarkerKind) : Option Nat :=
  (attributes.reverse.findIdx? fun a => MarkerKind.of? a == some kind).map
    fun i => attributes.length - 1 - i

/-- The markers among some attributes. -/
def read (attributes : List Attribute) : Markers where
  ignore := last? attributes .ignore
  uiHint := last? attributes .uiHint
  converterOverride := last? attributes .converterOverride
  contentType := last? attributes .contentType
  grouping := last? attributes .grouping

/-- Whether the property is left out. -/
def isIgnored (m : Markers) : Bool := m.ignore.isSome

/-- The hint of the editor, with capital letters of the basic Latin block lowered. -/
def hint? (m : Markers) : Option String :=
  ((m.uiHint.bind (·.argument? 0 "UIHint")).bind Json.asStr?).map fun s =>
    String.ofList (s.toList.map Text.asciiLower)

/-- The type that an override names: an argument of its marker interface, or else its own. -/
def converterType? (m : Markers) : Option TypeRef := do
  let a ← m.converterOverride
  match (a.interface? MarkerKind.overrideInterface).bind (·.arguments.head?) with
  | some t => some t
  | none => a.typeArguments.head?

end Markers

/-- The markers in effect for a class. -/
structure EffectiveMarkers where
  own : Markers
  grouping : Option Attribute
  /-- The name of the type on which the grouping marker stands. -/
  source : Option String
deriving Inhabited

namespace EffectiveMarkers

/-- The markers in effect at the beginning of a chain. -/
def ofChain (chain : BaseChain) : EffectiveMarkers :=
  let nearest := chain.types.findSome? fun d =>
    (Markers.read d.attributes).grouping.map fun g => (g, d.name)
  { own := Markers.read ((chain.types.head?.map (·.attributes)).getD [])
    grouping := nearest.map Prod.fst
    source := nearest.map Prod.snd }

end EffectiveMarkers

end ContentLoom

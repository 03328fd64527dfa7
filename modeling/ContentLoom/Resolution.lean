import ContentLoom.Classifier
import ContentLoom.Naming.Words
import ContentLoom.Options

/-!
# Resolution of content classes

A concrete class with a content type marker of its own and a grouping marker,
its own or inherited, is a content class.  Its identifier, group and order are
read from the markers and its properties from the whole chain of bases.  The
classes are sorted by order and name, and names that meet are reported.
-/

namespace ContentLoom

namespace Resolution

/-! ### Properties of a chain -/

/-- A property with the full name of the type that declares it. -/
structure Owned where
  owner : String
  property : Property
deriving Inhabited

/-- Adds a property: in place of one with its name, or at the end. -/
def addOwned : List Owned → Owned → List Owned
  | [], o => [o]
  | first :: rest, o =>
    if first.property.name = o.property.name then o :: rest else first :: addOwned rest o

/-- The properties of some types, a later declaration in the place of an earlier one. Types of the
framework add nothing. -/
def flatten (rootFirst : List Declaration) : List Owned :=
  ((rootFirst.filter fun d => !d.isFramework).flatMap fun d =>
    d.properties.map fun p => ⟨d.fullName, p⟩).foldl addOwned []

/-! ### Identifier, group and order -/

/-- The identifier that a content type marker gives, if it gives one, or the report that it gives
none. -/
def explicitId (marker : Option Attribute) (fullName : String) :
    Option Identifier × Option Diagnostic :=
  match marker.bind (·.named.get? "GUID") with
  | none => (none, none)
  | some written =>
    match written.asStr?.bind Identifier.parse? with
    | some id => (some id, none)
    | none =>
      (none, some (.of .malformedStableId ⟨fullName, none⟩
        ("GUID " ++ written.compact ++
          " is not a valid identifier; a derived identifier is used")))

/-- The group that a grouping marker gives. -/
def groupOf (marker : Attribute) (fullName : String) : String × Option Diagnostic :=
  match marker.argument? 0 "Group" with
  | none => (ContentClass.defaultGroup, none)
  | some (.str raw) => (ContentClass.normalizeGroup raw, none)
  | some other =>
    (ContentClass.defaultGroup, some (.of .malformedGroup ⟨fullName, none⟩
      ("group must be a string, found " ++ other.compact ++ "; using '" ++
        ContentClass.defaultGroup ++ "'")))

/-- An integer of 32 bits. -/
def int32? (j : Json) : Option Int32 := do
  let n ← j.asInt?
  if -0x80000000 ≤ n ∧ n ≤ 0x7fffffff then some (Int32.ofInt n) else none

/-- The order that a grouping marker gives. -/
def orderOf (marker : Attribute) (fullName : String) : Int32 × Option Diagnostic :=
  match marker.argument? 1 "Order" with
  | none => (0, none)
  | some written =>
    match int32? written with
    | some n => (n, none)
    | none =>
      (0, some (.of .malformedOrder ⟨fullName, none⟩
        ("order must be a 32-bit integer, found " ++ written.compact ++ "; using 0")))

/-! ### One declaration -/

/-- The reports about the chain of a class. -/
def chainReports (g : Graph) (chain : BaseChain) (fullName : String) : List Diagnostic :=
  (if chain.cyclic then
    [.of .inheritanceCycle ⟨fullName, none⟩
      "base type chain loops back on itself; inherited members past the loop are skipped"]
  else []) ++
  match chain.undeclaredRoot with
  | none => []
  | some root =>
    if g.implements root.name Classifier.contentInterface then []
    else
      [.of .unresolvedBaseType ⟨fullName, none⟩
        ("base type '" ++ root.text ++ "' is not declared; its properties are not mapped")]

/-- Classifies properties in order, looking at the flag before each of them. -/
def classifyEach (g : Graph) : List Owned → Watched (List ContentProperty)
  | [] => pure []
  | o :: rest => do
    Watched.check
    let (mapped, report) := Classifier.classify g o.owner o.property
    report.forM Watched.report
    let others ← classifyEach g rest
    pure (mapped.toList ++ others)

/-- A resolved class, and whether its identifier was written. -/
structure Resolved where
  contentClass : ContentClass
  explicit : Bool

/-- The content class of a declaration, if it is one. -/
def resolveOrigin (g : Graph) (d : Declaration) : Watched (Option Resolved) := do
  if d.kind ≠ .classType ∨ d.isAbstract then return none
  let chain := g.baseChain d
  let markers := EffectiveMarkers.ofChain chain
  match markers.grouping, markers.own.contentType with
  | some grouping, some contentType =>
    let fullName := d.fullName
    (chainReports g chain fullName).forM Watched.report
    let (written, idReport) := explicitId (some contentType) fullName
    idReport.forM Watched.report
    let (group, groupReport) := groupOf grouping fullName
    groupReport.forM Watched.report
    let (order, orderReport) := orderOf grouping fullName
    orderReport.forM Watched.report
    let properties ← classifyEach g (flatten chain.rootFirst)
    return some {
      contentClass := {
        name := d.name
        stableId := written.getD (Identifier.derive fullName)
        group := group
        order := order
        fullName := fullName
        properties := properties }
      explicit := written.isSome }
  | _, _ => return none

/-- The content class of a declaration, if it is one. -/
def resolve (g : Graph) (d : Declaration) : Watched (Option ContentClass) := do
  return (← resolveOrigin g d).map (·.contentClass)

/-! ### All declarations -/

/-- Resolves declarations in order, looking at the flag before each of them, and reports an
identifier that was written before; `known` holds the written identifiers with their classes. -/
def resolveEach (g : Graph) :
    List (Identifier × String) → List Declaration → Watched (List ContentClass)
  | _, [] => pure []
  | known, d :: rest => do
    Watched.check
    match ← resolveOrigin g d with
    | none => resolveEach g known rest
    | some r =>
      let c := r.contentClass
      let known ←
        if !r.explicit then pure known
        else
          match known.lookup c.stableId with
          | some first => do
            Watched.report (.of .duplicateStableId ⟨c.fullName, none⟩
              ("GUID " ++ c.stableId.text ++ " is already used by " ++ first))
            pure known
          | none => pure ((c.stableId, c.fullName) :: known)
      let others ← resolveEach g known rest
      pure (c :: others)

/-- The order of classes: by their order, and then by name. -/
def precedes (a b : ContentClass) : Bool :=
  a.order < b.order || (a.order == b.order && a.fullName ≤ b.fullName)

/-- Classes in order; those that are equal in order and name stay as they were. -/
def sortClasses (classes : List ContentClass) : List ContentClass := classes.mergeSort precedes

/-- The reports of groups whose identifier belongs to another group, one for each such group. -/
def groupCollisions : List (String × String) → List String → List ContentClass → List Diagnostic
  | _, _, [] => []
  | owners, reported, c :: rest =>
    let identifier := Naming.sanitize c.group
    match owners.lookup identifier with
    | none => groupCollisions ((identifier, c.group) :: owners) reported rest
    | some owner =>
      if owner ≠ c.group ∧ ¬reported.contains c.group then
        .of .groupIdentifierCollision ⟨c.fullName, none⟩
          ("group '" ++ c.group ++ "' generates the same identifier " ++ identifier ++
            " as group '" ++ owner ++ "'")
          :: groupCollisions owners (c.group :: reported) rest
      else groupCollisions owners reported rest

/-- The generated type of a class, by which duplicates are noticed. -/
def typeKey (c : ContentClass) : String := Naming.sanitize c.group ++ "." ++ c.name

/-- The reports of classes whose generated type is already that of another class. -/
def duplicateTypes : List (String × String) → List ContentClass → List Diagnostic
  | _, [] => []
  | owners, c :: rest =>
    match owners.lookup (typeKey c) with
    | some first =>
      .of .duplicateDiscriminant ⟨c.fullName, none⟩
        ("pipeline model " ++ typeKey c ++ " is already generated for " ++ first)
        :: duplicateTypes owners rest
    | none => duplicateTypes ((typeKey c, c.fullName) :: owners) rest

/-- The content classes of a graph, sorted. -/
def resolveAll (g : Graph) : Watched (List ContentClass) := do
  let resolved ← resolveEach g [] g.types
  let classes := sortClasses resolved
  (groupCollisions [] [] classes).forM Watched.report
  (duplicateTypes [] classes).forM Watched.report
  pure classes

/-! ### The form container -/

/-- The full name of the container of forms. -/
def formContainerType : String := "EPiServer.Forms.Implementation.Elements.FormContainerBlock"

/-- The container of forms; its properties belong to the forms themselves and are not mapped. -/
def formContainer : ContentClass where
  name := "FormContainerBlock"
  stableId := ⟨0x02ec61ff819f4978add6a097f5bd944e⟩
  group := "Form"
  order := 4000
  fullName := formContainerType
  properties := []

/-- The classes with the container of forms, unless it is among them. -/
def withFormContainer (classes : List ContentClass) : List ContentClass :=
  if classes.any (·.fullName == formContainerType) then classes
  else sortClasses (classes ++ [formContainer])

/-- The classes of a run and its reports. -/
def resolveClasses (g : Graph) (options : Options) (cancelled : Bool) :
    Except Failure (List ContentClass × List Diagnostic) := do
  options.validate
  match (resolveAll g).run.run (Watch.start cancelled none) with
  | (.error failure, _) => .error failure
  | (.ok classes, watch) =>
    .ok (if options.formsEnabled then withFormContainer classes else classes, watch.reports)

end Resolution

end ContentLoom

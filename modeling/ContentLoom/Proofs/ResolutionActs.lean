import ContentLoom.Generation
import ContentLoom.Proofs.Watched

/-!
# What resolution gives and reports

The values and the reports of a resolution without the run around them: which
declarations are content classes, what is read of each, what is reported on the
way, and that the runs of `Resolution` do exactly this.
-/

namespace ContentLoom.Resolution

open Watched

/-! ### One declaration -/

/-- The grouping marker and the content type marker of a declaration that is a content class. -/
def classMarkers? (g : Graph) (d : Declaration) : Option (Attribute × Attribute) :=
  if d.kind ≠ .classType ∨ d.isAbstract then none
  else
    let markers := EffectiveMarkers.ofChain (g.baseChain d)
    match markers.grouping, markers.own.contentType with
    | some grouping, some contentType => some (grouping, contentType)
    | _, _ => none

/-- The properties that a class has from its whole chain, before they are classified. -/
def ownedProperties (g : Graph) (d : Declaration) : List Owned :=
  flatten (g.baseChain d).rootFirst

/-- The class that is read from a declaration with its markers. -/
def resolvedOf (g : Graph) (d : Declaration) (markers : Attribute × Attribute) : Resolved :=
  let written := (explicitId (some markers.2) d.fullName).1
  { contentClass := {
      name := d.name
      stableId := written.getD (Identifier.derive d.fullName)
      group := (groupOf markers.1 d.fullName).1
      order := (orderOf markers.1 d.fullName).1
      fullName := d.fullName
      properties := (ownedProperties g d).filterMap fun o =>
        (Classifier.classify g o.owner o.property).1 }
    explicit := written.isSome }

/-- The class of a declaration, if it is one. -/
def origin? (g : Graph) (d : Declaration) : Option Resolved :=
  (classMarkers? g d).map (resolvedOf g d)

/-- The reports about the chain and the markers of a class. -/
def markerReports (g : Graph) (d : Declaration) (markers : Attribute × Attribute) :
    List Diagnostic :=
  chainReports g (g.baseChain d) d.fullName ++
    ((explicitId (some markers.2) d.fullName).2.toList ++
      ((groupOf markers.1 d.fullName).2.toList ++ (orderOf markers.1 d.fullName).2.toList))

/-- The acts of classifying properties. -/
def propertyActs (g : Graph) (os : List Owned) : List Act :=
  os.flatMap fun o => .look :: (Classifier.classify g o.owner o.property).2.toList.map .tell

/-- The acts of resolving a declaration. -/
def originActs (g : Graph) (d : Declaration) : List Act :=
  match classMarkers? g d with
  | none => []
  | some markers => (markerReports g d markers).map .tell ++ propertyActs g (ownedProperties g d)

theorem classifyEach_performs (g : Graph) (os : List Owned) :
    Performs (classifyEach g os)
      (os.filterMap fun o => (Classifier.classify g o.owner o.property).1)
      (propertyActs g os) := by
  induction os with
  | nil => exact Performs.pure []
  | cons o os ih =>
    have hvalue : (o :: os).filterMap (fun o => (Classifier.classify g o.owner o.property).1) =
        (Classifier.classify g o.owner o.property).1.toList ++
          os.filterMap fun o => (Classifier.classify g o.owner o.property).1 := by
      rw [List.filterMap_cons]
      cases (Classifier.classify g o.owner o.property).1 <;> rfl
    have hacts : propertyActs g (o :: os) =
        [.look] ++ ((Classifier.classify g o.owner o.property).2.toList.map .tell ++
          (propertyActs g os ++ [])) := by
      simp [propertyActs]
    rw [hvalue, hacts]
    exact Performs.bind Performs.check
      (Performs.bind (Performs.reportAny _) (Performs.bind ih (Performs.pure _)))

theorem resolveOrigin_performs (g : Graph) (d : Declaration) :
    Performs (resolveOrigin g d) (origin? g d) (originActs g d) := by
  unfold resolveOrigin origin? originActs classMarkers?
  split
  · exact Performs.pure none
  · cases hgrouping : (EffectiveMarkers.ofChain (g.baseChain d)).grouping with
    | none =>
      simp only [hgrouping]
      exact Performs.pure none
    | some grouping =>
      cases htype : (EffectiveMarkers.ofChain (g.baseChain d)).own.contentType with
      | none =>
        simp only [hgrouping, htype]
        exact Performs.pure none
      | some contentType =>
        simp only [hgrouping, htype, Option.map_some, markerReports, List.map_append,
          List.append_assoc]
        rw [← List.append_nil (propertyActs g (ownedProperties g d))]
        exact Performs.bind (Performs.reportAll _) (Performs.bind (Performs.reportAny _)
          (Performs.bind (Performs.reportAny _) (Performs.bind (Performs.reportAny _)
            (Performs.bind (classifyEach_performs g _) (Performs.pure _)))))

/-! ### All declarations -/

/-- The report of an identifier that was written before, on the class named `first`. -/
def duplicateId (c : ContentClass) (first : String) : Diagnostic :=
  .of .duplicateStableId ⟨c.fullName, none⟩
    ("GUID " ++ c.stableId.text ++ " is already used by " ++ first)

/-- The report that a class is worth for its identifier. -/
def idReport (known : List (Identifier × String)) (r : Resolved) : Option Diagnostic :=
  if r.explicit then (known.lookup r.contentClass.stableId).map (duplicateId r.contentClass)
  else none

/-- The written identifiers after one more class. -/
def learn (known : List (Identifier × String)) (r : Resolved) : List (Identifier × String) :=
  if r.explicit ∧ known.lookup r.contentClass.stableId = none then
    (r.contentClass.stableId, r.contentClass.fullName) :: known
  else known

/-- The acts of resolving declarations in order. -/
def eachActs (g : Graph) : List (Identifier × String) → List Declaration → List Act
  | _, [] => []
  | known, d :: rest =>
    .look :: (originActs g d ++
      match origin? g d with
      | none => eachActs g known rest
      | some r => (idReport known r).toList.map .tell ++ eachActs g (learn known r) rest)

/-- The classes of some declarations in their order. -/
def classesOf (g : Graph) (ds : List Declaration) : List ContentClass :=
  (ds.filterMap (origin? g)).map (·.contentClass)

/-- The content classes of a graph, sorted. -/
def declaredClasses (g : Graph) : List ContentClass := sortClasses (classesOf g g.types)

/-- The reports about groups and generated types that meet. -/
def collisionReports (classes : List ContentClass) : List Diagnostic :=
  groupCollisions [] [] classes ++ duplicateTypes [] classes

/-- The reports about a whole graph. -/
def graphReports (g : Graph) : List Diagnostic :=
  told (eachActs g [] g.types) ++ collisionReports (declaredClasses g)

theorem classesOf_cons (g : Graph) (d : Declaration) (ds : List Declaration) :
    classesOf g (d :: ds) = ((origin? g d).map (·.contentClass)).toList ++ classesOf g ds := by
  unfold classesOf
  rw [List.filterMap_cons]
  cases origin? g d <;> rfl

theorem resolveEach_performs (g : Graph) (known : List (Identifier × String))
    (ds : List Declaration) :
    Performs (resolveEach g known ds) (classesOf g ds) (eachActs g known ds) := by
  induction ds generalizing known with
  | nil => exact Performs.pure []
  | cons d ds ih =>
    have horigin := resolveOrigin_performs g d
    rw [classesOf_cons]
    unfold resolveEach eachActs
    change Performs _ _ ([.look] ++ _)
    refine Performs.bind Performs.check (Performs.bind horigin ?_)
    cases horig : origin? g d with
    | none => exact ih known
    | some r =>
      have hrest (next : List (Identifier × String)) :
          Performs (do
              let known ← pure next
              let others ← resolveEach g known ds
              pure (r.contentClass :: others))
            (r.contentClass :: classesOf g ds) (eachActs g next ds) := by
        rw [← List.append_nil (eachActs g next ds)]
        change Performs _ _ ([] ++ _)
        exact Performs.bind (Performs.pure next) (Performs.bind (ih next) (Performs.pure _))
      unfold idReport learn
      cases hexplicit : r.explicit with
      | false => simpa [hexplicit] using hrest known
      | true =>
        cases hknown : known.lookup r.contentClass.stableId with
        | none =>
          simpa [hexplicit, hknown] using
            hrest ((r.contentClass.stableId, r.contentClass.fullName) :: known)
        | some first =>
          simp only [hexplicit, hknown, Bool.not_true, Bool.false_eq_true, ite_false, ite_true]
          refine Performs.bind (Performs.report (duplicateId r.contentClass first)) ?_
          simpa using hrest known

theorem resolveAll_performs (g : Graph) :
    Performs (resolveAll g) (declaredClasses g)
      (eachActs g [] g.types ++ (collisionReports (declaredClasses g)).map .tell) := by
  have hreports : (collisionReports (declaredClasses g)).map Act.tell =
      (groupCollisions [] [] (declaredClasses g)).map .tell ++
        ((duplicateTypes [] (declaredClasses g)).map .tell ++ []) := by
    simp [collisionReports]
  rw [hreports]
  exact Performs.bind (resolveEach_performs g [] g.types)
    (Performs.bind (Performs.reportAll _) (Performs.bind (Performs.reportAll _)
      (Performs.pure _)))

/-! ### A run that nobody stops -/

/-- The classes of a run: those of the graph, and the container of forms where it is wanted. -/
def runClasses (g : Graph) (o : Options) : List ContentClass :=
  if o.formsEnabled then withFormContainer (declaredClasses g) else declaredClasses g

theorem resolveClasses_of_valid (g : Graph) (o : Options) (hvalid : o.validate = .ok ()) :
    resolveClasses g o false = .ok (runClasses g o, graphReports g) := by
  have hrun := (resolveAll_performs g).of_quiet
  have htold : told (eachActs g [] g.types ++ (collisionReports (declaredClasses g)).map .tell) =
      graphReports g := by
    rw [told_append, told_map_tell]
    rfl
  rw [htold] at hrun
  unfold resolveClasses
  rw [hvalid, hrun]
  rfl

end ContentLoom.Resolution

namespace ContentLoom.Generation

open Resolution

theorem run_of_valid (g : Graph) (o : Options) (hvalid : o.validate = .ok ()) :
    run g o false = (Generated.artifacts o false (runClasses g o)).map fun artifacts =>
      ⟨runClasses g o, artifacts, graphReports g⟩ := by
  unfold run
  rw [resolveClasses_of_valid g o hvalid]
  change Except.bind (Generated.artifacts o false (runClasses g o)) _ = _
  cases Generated.artifacts o false (runClasses g o) <;> rfl

theorem run_of_invalid (g : Graph) (o : Options) (f : Failure) (hinvalid : o.validate = .error f) :
    run g o false = .error f := by
  unfold run resolveClasses
  rw [hinvalid]
  rfl

theorem run_eq_of_ok {g : Graph} {o : Options} {result : Generation}
    (hrun : run g o false = .ok result) :
    result.classes = runClasses g o ∧ result.reports = graphReports g := by
  cases hvalid : o.validate with
  | error f =>
    rw [run_of_invalid g o f hvalid] at hrun
    cases hrun
  | ok =>
    rw [run_of_valid g o hvalid] at hrun
    cases hfiles : Generated.artifacts o false (runClasses g o) with
    | error f =>
      rw [hfiles] at hrun
      cases hrun
    | ok files =>
      rw [hfiles] at hrun
      cases hrun
      exact ⟨rfl, rfl⟩

end ContentLoom.Generation

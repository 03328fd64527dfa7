import ContentLoom.Proofs.GeneratedFiles

/-!
# Changes of properties

What a run generates depends on the properties of a class in two files only, the
model and the step of that class.  Two runs over classes that differ in the
properties of one of them both fail or both give files with the same names and
kinds, and all other files are the same.
-/

namespace ContentLoom

namespace ContentClass

/-- The class without its properties. -/
def bare (c : ContentClass) : ContentClass := { c with properties := [] }

/-- Classes that differ at most in the properties of the one at a position. -/
structure SameBut (i : Nat) (classes others : List ContentClass) : Prop where
  length : classes.length = others.length
  here : ∀ c d, classes[i]? = some c → others[i]? = some d →
    { c with properties := d.properties } = d
  elsewhere : ∀ j, j ≠ i → classes[j]? = others[j]?

theorem SameBut.bare {i : Nat} {classes others : List ContentClass}
    (h : SameBut i classes others) : classes.map bare = others.map bare := by
  apply List.ext_getElem?
  intro j
  rw [List.getElem?_map, List.getElem?_map]
  by_cases hj : j = i
  · subst hj
    cases hc : classes[j]? with
    | none =>
      have hd : others[j]? = none := by
        rw [List.getElem?_eq_none_iff] at hc ⊢
        rw [← h.length]
        exact hc
      rw [hd]
    | some c =>
      have hbound : j < others.length := by
        rw [← h.length]
        exact (List.getElem?_eq_some_iff.1 hc).1
      have hd : others[j]? = some others[j] := List.getElem?_eq_getElem hbound
      have hsame := h.here c others[j] hc hd
      rw [hd, ← hsame]
      rfl
  · rw [h.elsewhere j hj]

/-- What does not depend on properties is the same for both. -/
theorem SameBut.eq_of_bare {α : Type} {i : Nat} {classes others : List ContentClass}
    (h : SameBut i classes others) {f : List ContentClass → α}
    (hbare : ∀ cs, f (cs.map ContentClass.bare) = f cs) : f others = f classes := by
  rw [← hbare others, ← h.bare, hbare]

end ContentClass

namespace Naming

theorem claimEach_map {α β : Type} (f : α → β) (forms : β → String × String)
    (render : String → String) (taken : List String) (items : List α) :
    claimEach forms render taken (items.map f) =
      claimEach (fun a => forms (f a)) render taken items := by
  induction items generalizing taken with
  | nil => rfl
  | cons a items ih => rw [List.map_cons, claimEach, claimEach, ih]

theorem pipelineMembers_bare (classes : List ContentClass) :
    pipelineMembers (classes.map ContentClass.bare) = pipelineMembers classes :=
  claimEach_map ..

end Naming

namespace Generated

open Naming ContentClass

/-! ### Files that belong to no class -/

theorem groupNames_bare (classes : List ContentClass) :
    groupNames (classes.map bare) = groupNames classes := by
  rw [groupNames, List.map_map]
  rfl

theorem baseModels_bare (o : Options) (classes : List ContentClass) :
    baseModels o (classes.map bare) = baseModels o classes := by
  rw [baseModels, groupNames_bare]
  rfl

theorem branches_bare (o : Options) (classes : List ContentClass) :
    branches o (classes.map bare) = branches o classes := by
  rw [branches, pipelineMembers_bare, List.zip_map_left, List.map_map]
  rfl

theorem serviceClasses_bare (o : Options) (classes : List ContentClass) :
    serviceClasses o (classes.map bare) = serviceClasses o classes := by
  rw [serviceClasses, pipelineService, branches_bare]
  rfl

theorem cases_bare (o : Options) (classes : List ContentClass) :
    cases o (classes.map bare) = cases o classes := by
  rw [cases, List.foldl_map]
  rfl

theorem serializer_bare (o : Options) (name contract : String) (classes : List ContentClass) :
    serializer o name contract (classes.map bare) = serializer o name contract classes := by
  rw [serializer, writeBody, cases_bare, List.isEmpty_map]
  rfl

theorem registrations_bare (o : Options) (classes : List ContentClass) :
    registrations o (classes.map bare) = registrations o classes := by
  rw [registrations, stepRegistrations, List.isEmpty_map, List.map_map]
  rfl

/-- No file that belongs to no class reads a property. -/
theorem sharedFiles_bare (o : Options) (classes : List ContentClass) :
    sharedFiles o (classes.map bare) = sharedFiles o classes := by
  rw [sharedFiles, baseModels_bare, serviceClasses_bare, serializers, serializer_bare,
    registrations_bare]
  rfl

theorem contested?_bare (classes : List ContentClass) :
    contested? (classes.map bare) = contested? classes := by
  rw [contested?, List.any_map, List.any_map]
  rfl

/-! ### Names of the files of the classes -/

theorem classNames_bare (names : FileNames) (classes : List ContentClass) :
    classNames names (classes.map bare) = classNames names classes := by
  induction classes generalizing names with
  | nil => rfl
  | cons c rest ih =>
    rw [List.map_cons, classNames, ih]
    rfl

/-- The names and the kinds of the files of the classes are made of their names alone. -/
theorem entries_nameClasses (o : Options) (names : FileNames) (classes : List ContentClass) :
    (nameClasses o names classes).map (fun a => (a.fileName, a.kind)) =
      (classNames names classes).flatMap fun n => [(n.1, .model), (n.2, .step)] := by
  induction classes generalizing names with
  | nil => rfl
  | cons c rest ih =>
    rw [nameClasses, classNames, List.flatMap_cons, ← ih]
    rfl

/-! ### All files -/

/-- The files of two runs, which differ at most in the model and the step of the class at a
position. -/
structure SameFilesBut (o : Options) (i : Nat) (classes others : List ContentClass)
    (files later : List Artifact) : Prop where
  entries : files.map (fun a => (a.fileName, a.kind)) = later.map fun a => (a.fileName, a.kind)
  sources : ∃ shared own changed,
    files = shared ++ own.flatMap (fun p => [p.1, p.2]) ∧
      later = shared ++ changed.flatMap (fun p => [p.1, p.2]) ∧
      List.Forall₂ (ClassFiles o) classes own ∧ List.Forall₂ (ClassFiles o) others changed ∧
      ∀ j, j ≠ i → own[j]? = changed[j]?

theorem sameFilesBut_allFiles {i : Nat} {classes others : List ContentClass}
    (h : SameBut i classes others) (o : Options) :
    SameFilesBut o i classes others (allFiles o classes) (allFiles o others) := by
  have hshared : sharedFiles o others = sharedFiles o classes :=
    h.eq_of_bare (sharedFiles_bare o)
  have hnames (names : FileNames) : classNames names others = classNames names classes :=
    h.eq_of_bare (classNames_bare names)
  have hextension := extension_holding o.fileExtension ((sharedFiles o classes).map (·.stem))
  constructor
  · rw [allFiles, allFiles, hshared, List.map_append, List.map_append, entries_nameClasses,
      entries_nameClasses, hnames]
  · refine ⟨named o.fileExtension (sharedFiles o classes), _, _, ?_, ?_,
      classFiles_zipWith hextension classes, classFiles_zipWith hextension others, ?_⟩
    · rw [allFiles, nameClasses_eq]
    · rw [allFiles, hshared, nameClasses_eq]
    · intro j hj
      rw [List.getElem?_zipWith, List.getElem?_zipWith, hnames, h.elsewhere j hj]

/-- Two runs over classes that differ at most in the properties of one of them fail alike, or give
files with the same names and kinds in the same order, and with the same text but for the model and
the step of that class. -/
theorem artifacts_of_sameBut {i : Nat} {classes others : List ContentClass}
    (h : SameBut i classes others) (o : Options) (cancelled : Bool) :
    (∃ failure, artifacts o cancelled classes = .error failure ∧
      artifacts o cancelled others = .error failure) ∨
    ∃ files later, artifacts o cancelled classes = .ok files ∧
      artifacts o cancelled others = .ok later ∧ SameFilesBut o i classes others files later := by
  cases cancelled with
  | true => exact Or.inl ⟨.cancelled, rfl, rfl⟩
  | false =>
    have hcontested : contested? others = contested? classes := h.eq_of_bare contested?_bare
    rw [artifacts_eq, artifacts_eq, hcontested]
    cases contested? classes with
    | some contract => exact Or.inl ⟨_, rfl, rfl⟩
    | none => exact Or.inr ⟨_, _, rfl, rfl, sameFilesBut_allFiles h o⟩

/-- The class with a property that is copied. -/
def titledClass : ContentClass :=
  { plainClass with properties := [.passthrough "Title" ⟨"string", true⟩] }

theorem artifacts_of_sameBut_titled :
    SameBut 1 [plainClass, plainClass, plainClass] [plainClass, titledClass, plainClass] ∧
      ∃ files later,
        artifacts .standard false [plainClass, plainClass, plainClass] = .ok files ∧
          artifacts .standard false [plainClass, titledClass, plainClass] = .ok later ∧
          SameFilesBut .standard 1 [plainClass, plainClass, plainClass]
            [plainClass, titledClass, plainClass] files later ∧
          modelClass .standard plainClass ≠ modelClass .standard titledClass := by
  have hsame : SameBut 1 [plainClass, plainClass, plainClass]
      [plainClass, titledClass, plainClass] := by
    refine ⟨rfl, ?_, ?_⟩
    · intro c d hc hd
      obtain rfl := Option.some.inj hc
      obtain rfl := Option.some.inj hd
      rfl
    · intro j hj
      match j with
      | 0 => rfl
      | 1 => exact absurd rfl hj
      | 2 => rfl
      | _ + 3 => rfl
  have hfree : contested? [plainClass, plainClass, plainClass] = none := by decide
  have hmodels : modelClass .standard plainClass ≠ modelClass .standard titledClass := by
    intro heq
    exact absurd (congrArg List.length heq) (by decide)
  refine ⟨hsame, ?_⟩
  rcases artifacts_of_sameBut hsame .standard false with ⟨failure, hfailed, -⟩ |
    ⟨files, later, hfiles, hlater, hbut⟩
  · rw [artifacts_eq, hfree] at hfailed
    cases hfailed
  · exact ⟨files, later, hfiles, hlater, hbut, hmodels⟩

end Generated

end ContentLoom

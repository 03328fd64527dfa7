import ContentLoom.Proofs.QuotedLines

/-!
# Levels of code

In every generated file an operation that goes one level back undoes a level
that was opened before it, and at the end none is left open.  So the depth is
never held at zero, and a line stands behind four spaces for each level that is
open where it is written.
-/

namespace ContentLoom

namespace Code

/-! ### Levels opened and undone -/

/-- One level more. -/
def deeper (depth : Option Nat) : Option Nat := depth.map (· + 1)

/-- One level less, where one is open. -/
def back (depth : Option Nat) : Option Nat := depth.bind Nat.ppred

@[simp] theorem back_deeper (depth : Option Nat) : back (deeper depth) = depth := by
  cases depth <;> rfl

namespace Write

/-- Whether the operation opens a level. -/
def opens : Write → Bool
  | openBlock _ => true
  | indent => true
  | _ => false

/-- Whether the operation undoes a level. -/
def undoes : Write → Bool
  | closeBlock _ => true
  | dedent => true
  | _ => false

/-- The lines that the operation passes on. -/
def passed : Write → List String
  | line text => [text]
  | openBlock header => if header.isEmpty then [openBrace] else [header, openBrace]
  | closeBlock text => [text]
  | _ => []

/-- The depth after an operation, and none from the first on that undoes a level where none is
open. -/
def checkedDepth (depth : Option Nat) : Write → Option Nat
  | openBlock _ => deeper depth
  | indent => deeper depth
  | closeBlock _ => back depth
  | dedent => back depth
  | _ => depth

end Write

/-- How many levels some operations open. -/
def opened (ws : List Write) : Nat := ws.countP Write.opens

/-- How many levels some operations undo. -/
def undone (ws : List Write) : Nat := ws.countP Write.undoes

/-- The depth after some operations, if each level that they undo is open there. -/
def checkedDepth (depth : Option Nat) (ws : List Write) : Option Nat :=
  ws.foldl Write.checkedDepth depth

variable {depth : Option Nat} {ws vs : List Write}

@[simp] theorem checkedDepth_nil : checkedDepth depth [] = depth := rfl

theorem checkedDepth_cons {w : Write} :
    checkedDepth depth (w :: ws) = checkedDepth (w.checkedDepth depth) ws := rfl

@[simp] theorem checkedDepth_append :
    checkedDepth depth (ws ++ vs) = checkedDepth (checkedDepth depth ws) vs := List.foldl_append

@[simp] theorem checkedDepth_line {text : String} :
    checkedDepth depth (.line text :: ws) = checkedDepth depth ws := rfl

@[simp] theorem checkedDepth_blank : checkedDepth depth (.blank :: ws) = checkedDepth depth ws :=
  rfl

@[simp] theorem checkedDepth_ite {p : Prop} [Decidable p] :
    checkedDepth depth (if p then ws else vs) =
      if p then checkedDepth depth ws else checkedDepth depth vs := by
  split <;> rfl

/-! ### Pieces of code -/

@[simp] theorem checkedDepth_map_line {α : Type} {xs : List α} {text : α → String} :
    checkedDepth depth (xs.map fun x => .line (text x)) = depth := by
  induction xs with
  | nil => rfl
  | cons x xs ih => rw [List.map_cons, checkedDepth_line, ih]

theorem checkedDepth_flatMap {α : Type} {xs : List α} {f : α → List Write}
    (h : ∀ x ∈ xs, checkedDepth depth (f x) = depth) :
    checkedDepth depth (xs.flatMap f) = depth := by
  induction xs with
  | nil => rfl
  | cons x xs ih =>
    obtain ⟨hx, hrest⟩ := List.forall_mem_cons.1 h
    rw [List.flatMap_cons, checkedDepth_append, hx, ih hrest]

@[simp] theorem checkedDepth_lines {ts : List String} : checkedDepth depth (lines ts) = depth :=
  checkedDepth_map_line

@[simp] theorem checkedDepth_usings {namespaces : List String} :
    checkedDepth depth (usings namespaces) = depth := checkedDepth_map_line

@[simp] theorem checkedDepth_namespaceOf {name : String} :
    checkedDepth depth (namespaceOf name) = depth := rfl

@[simp] theorem checkedDepth_summary {text : String} : checkedDepth depth (summary text) = depth :=
  rfl

@[simp] theorem checkedDepth_blockWith {ending header : String} :
    checkedDepth depth (blockWith ending header ws) = back (checkedDepth (deeper depth) ws) := by
  rw [blockWith, checkedDepth_cons, checkedDepth_append]
  rfl

@[simp] theorem checkedDepth_block {header : String} :
    checkedDepth depth (block header ws) = back (checkedDepth (deeper depth) ws) :=
  checkedDepth_blockWith

@[simp] theorem checkedDepth_indented :
    checkedDepth depth (indented ws) = back (checkedDepth (deeper depth) ws) := by
  rw [indented, checkedDepth_cons, checkedDepth_append]
  rfl

@[simp] theorem checkedDepth_file {used : List String} {ns : String} :
    checkedDepth depth (file used ns ws) = checkedDepth depth ws := by
  simp [file, fileHead]

/-! ### Balanced code -/

/-- No level is undone at depth zero, and the depth is zero at the end. -/
structure Balanced (ws : List Write) : Prop where
  deep : ∀ front w rest, ws = front ++ w :: rest → w.undoes = true → 0 < depthAfter 0 front
  settled : depthAfter 0 ws = 0

theorem opened_append (ws vs : List Write) : opened (ws ++ vs) = opened ws + opened vs :=
  List.countP_append

theorem undone_append (ws vs : List Write) : undone (ws ++ vs) = undone ws + undone vs :=
  List.countP_append

theorem Write.checkedDepth_none (w : Write) : w.checkedDepth none = none := by
  cases w <;> rfl

theorem checkedDepth_none (ws : List Write) : checkedDepth none ws = none := by
  induction ws with
  | nil => rfl
  | cons w ws ih => rw [checkedDepth_cons, w.checkedDepth_none, ih]

/-- The depth is known all along where it is known at the end. -/
theorem exists_of_checkedDepth {last : Nat} (h : checkedDepth depth ws = some last) :
    ∃ start, depth = some start := by
  cases depth with
  | none =>
    rw [checkedDepth_none] at h
    cases h
  | some start => exact ⟨start, rfl⟩

theorem exists_of_checkedDepth_cons {w : Write} {last : Nat}
    (h : checkedDepth depth (w :: ws) = some last) :
    ∃ next, w.checkedDepth depth = some next ∧ checkedDepth (some next) ws = some last := by
  rw [checkedDepth_cons] at h
  obtain ⟨next, hnext⟩ := exists_of_checkedDepth h
  rw [hnext] at h
  exact ⟨next, hnext, h⟩

theorem exists_of_checkedDepth_append {last : Nat}
    (h : checkedDepth depth (ws ++ vs) = some last) :
    ∃ middle, checkedDepth depth ws = some middle ∧
      checkedDepth (some middle) vs = some last := by
  rw [checkedDepth_append] at h
  obtain ⟨middle, hmiddle⟩ := exists_of_checkedDepth h
  rw [hmiddle] at h
  exact ⟨middle, hmiddle, h⟩

/-- What an operation does to a depth at which every level that it undoes is open. -/
theorem Write.depthAfter_of_checked {w : Write} {d next : Nat}
    (h : w.checkedDepth (some d) = some next) :
    w.depthAfter d = next ∧ next + undone [w] = d + opened [w] ∧ (w.undoes = true → 0 < d) := by
  cases w with
  | openBlock | indent =>
    obtain rfl : d + 1 = next := Option.some.inj h
    exact ⟨rfl, rfl, nofun⟩
  | closeBlock | dedent =>
    obtain rfl : next + 1 = d := Nat.ppred_eq_some.1 h
    exact ⟨rfl, rfl, fun _ => Nat.succ_pos next⟩
  | line | blank =>
    obtain rfl : d = next := Option.some.inj h
    exact ⟨rfl, rfl, nofun⟩

theorem depthAfter_of_checked {d last : Nat} (h : checkedDepth (some d) ws = some last) :
    depthAfter d ws = last ∧ last + undone ws = d + opened ws := by
  induction ws generalizing d with
  | nil =>
    obtain rfl : d = last := Option.some.inj h
    exact ⟨rfl, rfl⟩
  | cons w ws ih =>
    obtain ⟨next, hw, hrest⟩ := exists_of_checkedDepth_cons h
    obtain ⟨hdepth, hcount, -⟩ := Write.depthAfter_of_checked hw
    obtain ⟨hlast, hcounts⟩ := ih hrest
    have hundone := undone_append [w] ws
    have hopened := opened_append [w] ws
    rw [List.singleton_append] at hundone hopened
    refine ⟨?_, by omega⟩
    rw [← hlast, ← hdepth]
    rfl

theorem balanced_of_checked (h : checkedDepth (some 0) ws = some 0) : Balanced ws where
  deep front w rest hws hw := by
    rw [hws] at h
    obtain ⟨middle, hfront, hrest⟩ := exists_of_checkedDepth_append h
    obtain ⟨next, hnext, -⟩ := exists_of_checkedDepth_cons hrest
    rw [(depthAfter_of_checked hfront).1]
    exact (Write.depthAfter_of_checked hnext).2.2 hw
  settled := (depthAfter_of_checked h).1

example : ¬Balanced [.openBlock "", .closeBlock closeBrace, .dedent] := fun h =>
  absurd (h.deep [.openBlock "", .closeBlock closeBrace] .dedent [] rfl rfl) (by decide)

/-! ### Indented lines -/

/-- The text is empty or a line ends with it. -/
def EndsLine (cs : List Char) : Prop := ∀ c ∈ cs.getLast?, c = '\n'

/-- In the text of some operations and the next, a line of the next begins where a line ends, behind
four spaces for each level that they opened and that is not undone, by the next itself neither. -/
def Indents (front : List Write) (w : Write) (text : String) : Prop :=
  ∃ levels before after, undone (front ++ [w]) + levels = opened front ∧
    (render (front ++ [w])).toList =
      before ++ (List.replicate (4 * levels) ' ' ++ text.toList ++ '\n' :: after) ∧
    (render front).toList <+: before ∧ EndsLine before

/-- The text of the operations up to any place is the beginning of the whole text, and each line
that is passed on and not empty is indented by the levels that are open. -/
structure Indented (ws : List Write) : Prop where
  begins : ∀ front, front <+: ws → (render front).toList <+: (render ws).toList
  lines : ∀ front w rest, ws = front ++ w :: rest → ∀ text ∈ w.passed, text ≠ "" →
    Indents front w text

theorem endsLine_append {cs ds : List Char} (hcs : EndsLine cs) (hds : EndsLine ds) :
    EndsLine (cs ++ ds) := by
  unfold EndsLine at hds ⊢
  rw [List.getLast?_append]
  cases hlast : ds.getLast? with
  | none => exact hcs
  | some c =>
    rw [hlast] at hds
    exact hds

theorem endsLine_lines (ls : List (List Char)) : EndsLine (ls.flatMap (· ++ ['\n'])) := by
  induction ls with
  | nil => exact nofun
  | cons l ls ih =>
    have hfirst : EndsLine (l ++ ['\n']) := by simp [EndsLine]
    rw [List.flatMap_cons]
    exact endsLine_append hfirst ih

/-- The lines that an operation passes on are among those that it writes; a level that it undoes is
undone before. -/
theorem Write.placed_mem_linesAt {w : Write} {text : String} (h : text ∈ w.passed) (d : Nat) :
    placed (if w.undoes then d - 1 else d) text ∈ w.linesAt d := by
  cases w with
  | line | closeBlock =>
    obtain rfl := List.mem_singleton.1 h
    exact List.mem_singleton_self _
  | openBlock header =>
    have hlines : (openBlock header).linesAt d = (openBlock header).passed.map (placed d) := by
      by_cases hheader : header.isEmpty = true <;> simp [linesAt, passed, hheader]
    rw [hlines]
    exact List.mem_map_of_mem h
  | blank | indent | dedent => cases h

theorem indents_of_checked (h : checkedDepth (some 0) ws = some 0) {front rest : List Write}
    {w : Write} (hws : ws = front ++ w :: rest) {text : String} (htext : text ∈ w.passed)
    (hsome : text ≠ "") : Indents front w text := by
  rw [hws] at h
  obtain ⟨middle, hfront, hrest⟩ := exists_of_checkedDepth_append h
  obtain ⟨next, hnext, -⟩ := exists_of_checkedDepth_cons hrest
  obtain ⟨hdepth, hcount⟩ := depthAfter_of_checked hfront
  obtain ⟨-, -, hdeep⟩ := Write.depthAfter_of_checked hnext
  have hlevels : undone (front ++ [w]) + (if w.undoes then middle - 1 else middle) =
      opened front := by
    have hlast : undone [w] = if w.undoes then 1 else 0 := List.countP_singleton
    rw [undone_append, hlast]
    split
    · next hundoes =>
      have hpositive := hdeep hundoes
      omega
    · omega
  obtain ⟨earlier, later, hlines⟩ := List.append_of_mem (w.placed_mem_linesAt htext middle)
  have hplaced : Write.placed (if w.undoes then middle - 1 else middle) text =
      List.replicate (4 * if w.undoes then middle - 1 else middle) ' ' ++ text.toList :=
    if_neg (by simpa using hsome)
  have hrender : (render (front ++ [w])).toList =
      renderChars 0 front ++ (w.linesAt middle).flatMap (· ++ ['\n']) := by
    rw [render, String.toList_ofList, renderChars_append, hdepth, renderChars_eq middle [w],
      linesFrom, linesFrom, List.append_nil]
  refine ⟨_, renderChars 0 front ++ earlier.flatMap (· ++ ['\n']), later.flatMap (· ++ ['\n']),
    hlevels, ?_, ?_, ?_⟩
  · rw [hrender, hlines, List.flatMap_append, List.flatMap_cons, hplaced]
    simp only [List.append_assoc, List.singleton_append]
  · rw [render, String.toList_ofList]
    exact List.prefix_append ..
  · rw [renderChars_eq]
    exact endsLine_append (endsLine_lines _) (endsLine_lines _)

theorem indented_of_checked (h : checkedDepth (some 0) ws = some 0) : Indented ws where
  begins front hfront := by
    obtain ⟨rest, rfl⟩ := hfront
    rw [render, render, String.toList_ofList, String.toList_ofList, renderChars_append]
    exact List.prefix_append ..
  lines _ _ _ hws _ htext hsome := indents_of_checked h hws htext hsome

end Code

namespace Generated

open Code Naming

variable (depth : Option Nat) (o : Options)

/-! ### Files that depend on no class -/

theorem checkedDepth_contracts : ∀ f ∈ contracts o, checkedDepth depth f.code = depth := by
  simp only [contracts, List.forall_mem_append, List.forall_mem_cons, List.forall_mem_map]
  simp [modelContract, linkContract, propertyConverterContract, converterContract,
    enumConverterContract, xhtmlRenderContract, contextContract, stepContract, pipelineContract,
    serviceContract, contractFile]

theorem checkedDepth_valueTypes : ∀ f ∈ valueTypes o, checkedDepth depth f.code = depth := by
  simp [valueTypes, linkType, mediaType, areaItemType, areaType, valueFile]

theorem checkedDepth_markerClasses : ∀ f ∈ markerClasses o, checkedDepth depth f.code = depth := by
  simp [markerClasses, ignoreMarker, modelMarker, converterMarker, converterMarkerContract,
    markerFile]

@[simp] theorem checkedDepth_construction (name : String) (given : List (String × String)) :
    checkedDepth depth (construction name given) = depth := by
  simp [construction]

theorem checkedDepth_defaultConverters :
    ∀ f ∈ defaultConverters o, checkedDepth depth f.code = depth := by
  simp [defaultConverters, enumConverter, knownConverter, converterFile, languageMember]

theorem checkedDepth_pipelineBases : ∀ f ∈ pipelineBases o, checkedDepth depth f.code = depth := by
  simp [pipelineBases, directStepBase, waitingStepBase, defaultPipeline, stepBase, runMember,
    pipelineFile]

/-! ### Files that list the classes -/

variable (classes : List ContentClass)

theorem checkedDepth_baseModels :
    ∀ f ∈ baseModels o classes, checkedDepth depth f.code = depth := by
  simp [baseModels, baseModel, groupInterface]

@[simp] theorem checkedDepth_serviceConstructor (bs : List Branch) :
    checkedDepth depth (serviceConstructor bs) = depth := by
  simp [serviceConstructor]

@[simp] theorem checkedDepth_dispatchMember (header otherwise : String) (call : Branch → String)
    (bs : List Branch) : checkedDepth depth (dispatchMember header call otherwise bs) = depth := by
  have htests (d : Option Nat) : checkedDepth d (bs.flatMap fun b =>
      lines ["if (contentType == typeof(" ++ b.content ++ "))", "    return " ++ call b]) = d :=
    checkedDepth_flatMap fun _ _ => checkedDepth_lines
  simp [dispatchMember, htests]

theorem checkedDepth_serviceClasses :
    ∀ f ∈ serviceClasses o classes, checkedDepth depth f.code = depth := by
  simp [serviceClasses, pipelineArgs, pipelineContext, baseService, pipelineService,
    xhtmlRenderService, entityFile, serviceFile]

theorem checkedDepth_serializers :
    ∀ f ∈ serializers o classes, checkedDepth depth f.code = depth := by
  have hcases (d : Option Nat) (ks : List Case) : checkedDepth d (ks.flatMap caseCode) = d :=
    checkedDepth_flatMap fun k _ => by simp [caseCode]
  simp [serializers, serializer, writeBody, hcases]

theorem checkedDepth_registrations :
    ∀ f ∈ registrations o classes, checkedDepth depth f.code = depth := by
  simp [registrations, stepRegistrations, serviceRegistrations, registrationFile]

theorem checkedDepth_modelClass (c : ContentClass) :
    checkedDepth depth (modelClass o c) = depth := by
  have hproperties (d : Option Nat) :
      checkedDepth d (c.properties.flatMap fun p => [.blank, .line (modelProperty p)]) = d :=
    checkedDepth_flatMap fun _ _ => rfl
  simp [modelClass, hproperties]

@[simp] theorem checkedDepth_configCode (p : ContentProperty) :
    checkedDepth depth (configCode p) = depth := by
  cases hconfig : p.config with
  | none => rw [configCode_of_none hconfig, checkedDepth_nil]
  | some d => simp [configCode, hconfig]

theorem checkedDepth_stepClass (c : ContentClass) : checkedDepth depth (stepClass o c) = depth := by
  have hconfigs (d : Option Nat) : checkedDepth d (c.properties.flatMap configCode) = d :=
    checkedDepth_flatMap fun p _ => checkedDepth_configCode d p
  simp [stepClass, stepConstructor, hconfigs]

/-! ### All files -/

theorem checkedDepth_codes : ∀ ws ∈ codes o classes, checkedDepth depth ws = depth := by
  have hshared : ∀ f ∈ sharedFiles o classes, checkedDepth depth f.code = depth := by
    simp only [sharedFiles, List.forall_mem_append]
    exact ⟨⟨⟨⟨⟨⟨⟨⟨checkedDepth_baseModels depth o classes, checkedDepth_contracts depth o⟩,
      checkedDepth_valueTypes depth o⟩, checkedDepth_markerClasses depth o⟩,
      checkedDepth_defaultConverters depth o⟩, checkedDepth_pipelineBases depth o⟩,
      checkedDepth_serviceClasses depth o classes⟩, checkedDepth_serializers depth o classes⟩,
      checkedDepth_registrations depth o classes⟩
  have hown : ∀ c ∈ classes, ∀ ws ∈ [modelClass o c, stepClass o c],
      checkedDepth depth ws = depth := by
    intro c _
    rw [List.forall_mem_cons, List.forall_mem_singleton]
    exact ⟨checkedDepth_modelClass depth o c, checkedDepth_stepClass depth o c⟩
  rw [codes, List.forall_mem_append, List.forall_mem_map, List.forall_mem_flatMap]
  exact ⟨hshared, hown⟩

/-- In the code of every file of a run no level is undone where none is open, none is left open at
the end, and a line stands behind four spaces for each level that is open.  The files of a run are
the texts of this code. -/
theorem codes_balanced (o : Options) (classes : List ContentClass) :
    (∀ ws ∈ codes o classes, Balanced ws ∧ Indented ws) ∧
      ∀ cancelled files, artifacts o cancelled classes = .ok files →
        files.map (·.source) = (codes o classes).map render := by
  refine ⟨fun ws hws => ?_, fun _ _ hfiles => sources_artifacts hfiles⟩
  have hchecked := checkedDepth_codes (some 0) o classes ws hws
  exact ⟨balanced_of_checked hchecked, indented_of_checked hchecked⟩

/-- A class with a property for whose converter there are arguments, and one that is copied. -/
def captioned : ContentClass where
  name := "Teaser"
  stableId := ⟨1⟩
  group := "Site"
  order := 0
  fullName := "Site.Teaser"
  properties := [⟨"Lead", ⟨"string", true⟩, .custom "Site.Clip",
      some (Dictionary.ofEntries [("mark", "-"), ("size", "3")])⟩,
    ⟨"Title", ⟨"string", true⟩, .copy, none⟩]

theorem codes_balanced_captioned :
    ∃ files, artifacts .standard false [captioned] = .ok files ∧
      files.map (·.source) = (codes .standard [captioned]).map render ∧
      Balanced (stepClass .standard captioned) ∧ Indented (stepClass .standard captioned) := by
  obtain ⟨hcodes, hsources⟩ := codes_balanced .standard [captioned]
  have hfiles : artifacts .standard false [captioned] = .ok (allFiles .standard [captioned]) := by
    have hfree : contested? [captioned] = none := by decide
    rw [artifacts_eq, hfree]
  have hstep : stepClass .standard captioned ∈ codes .standard [captioned] := by
    simp [codes]
  exact ⟨_, hfiles, hsources _ _ hfiles, hcodes _ hstep⟩

end Generated

end ContentLoom

import ContentLoom.Proofs.LastMarkers
import ContentLoom.Proofs.Lookups

/-!
# Attributes that are no markers

An attribute with the name of no marker and without the interface that makes an
attribute an override is not looked at.  Wherever such attributes are put among
those of the types and the properties of a graph, a run gives the same classes
and makes the same reports in the same order.
-/

namespace ContentLoom

/-! ### Attributes -/

/-- The attribute has the name of no marker, with its suffix or without, and no interface that makes
it an override. -/
def Attribute.Unmarked (a : Attribute) : Prop :=
  (∀ kind : MarkerKind, TypeRef.simpleOf a.name ≠ kind.stem ∧
    TypeRef.simpleOf a.name ≠ kind.stem ++ Attribute.suffix) ∧
  ∀ t ∈ a.interfaces, t.simpleName ≠ MarkerKind.overrideInterface

theorem Attribute.isOf_eq_false_iff (a : Attribute) (stem : String) :
    a.isOf stem = false ↔
      TypeRef.simpleOf a.name ≠ stem ∧ TypeRef.simpleOf a.name ≠ stem ++ suffix := by
  simp only [isOf, Bool.or_eq_false_iff, beq_eq_false_iff_ne, and_comm]

theorem Attribute.isSome_interface?_eq_false_iff (a : Attribute) (simple : String) :
    (a.interface? simple).isSome = false ↔ ∀ t ∈ a.interfaces, t.simpleName ≠ simple := by
  simp [interface?]

theorem Attribute.unmarked_iff {a : Attribute} : a.Unmarked ↔ MarkerKind.of? a = none := by
  simp only [Unmarked, ← isOf_eq_false_iff, ← isSome_interface?_eq_false_iff]
  constructor
  · rintro ⟨hnames, hinterface⟩
    simp [MarkerKind.of?, hnames, hinterface]
  · intro h
    simp only [MarkerKind.of?, ite_eq_iff, reduceCtorEq, and_false, and_true, false_or,
      Bool.not_eq_true, Bool.or_eq_false_iff] at h
    obtain ⟨hignore, hhint, ⟨hoverride, hinterface⟩, htype, hgrouping⟩ := h
    refine ⟨fun kind => ?_, hinterface⟩
    cases kind with
    | ignore => exact hignore
    | uiHint => exact hhint
    | converterOverride => exact hoverride
    | contentType => exact htype
    | grouping => exact hgrouping

/-! ### Insertions -/

/-- The second list is the first one with elements of a kind put in anywhere, any number of them. -/
inductive Interspersed {α : Type} (p : α → Prop) : List α → List α → Prop
  | nil : Interspersed p [] []
  | keep (a : α) {xs ys} (rest : Interspersed p xs ys) : Interspersed p (a :: xs) (a :: ys)
  | insert {a : α} {xs ys} (inserted : p a) (rest : Interspersed p xs ys) :
    Interspersed p xs (a :: ys)

theorem Interspersed.filter_eq {α : Type} {p : α → Prop} {xs ys : List α}
    (h : Interspersed p xs ys) {q : α → Bool} (hq : ∀ a, p a → q a = false) :
    ys.filter q = xs.filter q := by
  induction h with
  | nil => rfl
  | keep a rest ih => rw [List.filter_cons, List.filter_cons, ih]
  | insert inserted rest ih =>
    rw [List.filter_cons_of_neg (by simp [hq _ inserted]), ih]

theorem Markers.read_of_interspersed {as bs : List Attribute}
    (h : Interspersed Attribute.Unmarked as bs) : Markers.read bs = Markers.read as := by
  have hfilter : bs.filter (fun a => (MarkerKind.of? a).isSome) =
      as.filter fun a => (MarkerKind.of? a).isSome := by
    refine h.filter_eq fun a ha => ?_
    rw [Attribute.unmarked_iff.1 ha, Option.isSome_none]
  have hlast (kind : MarkerKind) : Markers.last? bs kind = Markers.last? as kind := by
    have hkept (a : Attribute) (ha : MarkerKind.of? a = some kind) :
        (MarkerKind.of? a).isSome = true := by
      rw [ha, Option.isSome_some]
    rw [← Markers.last?_filter hkept bs, hfilter, Markers.last?_filter hkept as]
  simp only [Markers.read, hlast]

/-! ### Graphs -/

/-- The second property is the first one with further attributes that are no markers. -/
structure Property.Annotated (p q : Property) : Prop where
  name : q.name = p.name
  type : q.type = p.type
  nullable : q.nullable = p.nullable
  attributes : Interspersed Attribute.Unmarked p.attributes q.attributes

/-- The second declaration is the first one with further attributes that are no markers, on itself
and on its properties. -/
structure Declaration.Annotated (d e : Declaration) : Prop where
  name : e.name = d.name
  ns : e.ns = d.ns
  kind : e.kind = d.kind
  isAbstract : e.isAbstract = d.isAbstract
  base : e.base = d.base
  interfaces : e.interfaces = d.interfaces
  attributes : Interspersed Attribute.Unmarked d.attributes e.attributes
  properties : List.Forall₂ Property.Annotated d.properties e.properties

/-- The second graph is the first one with further attributes that are no markers, on its types and
their properties. -/
def Graph.Annotated (g h : Graph) : Prop := List.Forall₂ Declaration.Annotated g.types h.types

theorem Property.Annotated.readsAs {p q : Property} (h : p.Annotated q) : p.ReadsAs q where
  name := h.name
  type := h.type
  nullable := h.nullable
  markers := Markers.read_of_interspersed h.attributes

theorem Declaration.Annotated.readsAs {d e : Declaration} (h : d.Annotated e) : d.ReadsAs e where
  name := h.name
  ns := h.ns
  kind := h.kind
  isAbstract := h.isAbstract
  base := h.base
  interfaces := h.interfaces
  markers := Markers.read_of_interspersed h.attributes
  properties := h.properties.imp fun _ _ hp => hp.readsAs

/-! ### Runs -/

namespace Resolution

/-- Further attributes that are no markers change nothing in a run, whether it comes to its end or
is stopped: neither its classes nor its reports and their order. -/
theorem resolveAll_of_annotated {g h : Graph} (hann : g.Annotated h) (w : Watch) :
    (resolveAll h).run.run w = (resolveAll g).run.run w := by
  have htypes : List.Forall₂ Declaration.ReadsAs g.types h.types :=
    List.Forall₂.imp (fun _ _ hd => hd.readsAs) hann
  have halike := Graph.looksUpAs_of_forall₂ htypes
  have hclasses : declaredClasses h = declaredClasses g := by
    rw [declaredClasses, declaredClasses, halike.classesOf htypes]
  rw [resolveAll_performs h w, resolveAll_performs g w, halike.eachActs htypes, hclasses]

/-- A page whose identifier and whose override are malformed, and its base in a group. -/
def posters : Graph where
  types := [
    ⟨"Base", "Site", .classType, true, none, [],
      [⟨"ContentPipelineModel", [], [.str "Media"], [], []⟩],
      [⟨"Cover", .named "ContentReference", false, [⟨"UIHint", [], [.str "Image"], [], []⟩]⟩]⟩,
    ⟨"Page", "Site", .classType, false, some (.named "Base"), [],
      [⟨"ContentType", [], [], [("GUID", .str "none")], []⟩],
      [⟨"Tags", ⟨"IList", [.named "string"], false⟩, true,
        [⟨"ContentPipelinePropertyConverter", [], [], [], []⟩]⟩]⟩]

/-- An attribute that says how something is shown. -/
def shown : Attribute :=
  ⟨"Site.ContentTypeIconAttribute", [.named "Hint"], [.str "Image"], [("Order", .int 3)],
    [.named "Site.IContentPipelinePropertyConverter"]⟩

/-- The posters with further attributes before, between and after their own. -/
def shownPosters : Graph where
  types := [
    ⟨"Base", "Site", .classType, true, none, [],
      [shown, ⟨"ContentPipelineModel", [], [.str "Media"], [], []⟩, shown],
      [⟨"Cover", .named "ContentReference", false,
        [⟨"UIHint", [], [.str "Image"], [], []⟩, shown]⟩]⟩,
    ⟨"Page", "Site", .classType, false, some (.named "Base"), [],
      [shown, shown, ⟨"ContentType", [], [], [("GUID", .str "none")], []⟩],
      [⟨"Tags", ⟨"IList", [.named "string"], false⟩, true,
        [shown, ⟨"ContentPipelinePropertyConverter", [], [], [], []⟩]⟩]⟩]

theorem resolveAll_of_annotated_posters :
    posters.Annotated shownPosters ∧
      ∃ classes w,
        (resolveAll shownPosters).run.run (Watch.start false none) = (.ok classes, w) ∧
          classes.map (fun c => (c.fullName, c.group, c.properties)) =
            [("Site.Page", "Media", [.converted "Cover" ⟨"Media", false⟩ (.known .media),
              .passthrough "Tags" ⟨"IList<string>", true⟩])] ∧
          w.reports.map (·.code) = [.malformedStableId, .malformedConverterOverride] := by
  have hshown : shown.Unmarked := Attribute.unmarked_iff.2 (by decide +kernel)
  have hbase : posters.types[0].Annotated shownPosters.types[0] :=
    ⟨rfl, rfl, rfl, rfl, rfl, rfl, .insert hshown (.keep _ (.insert hshown .nil)),
      .cons ⟨rfl, rfl, rfl, .keep _ (.insert hshown .nil)⟩ .nil⟩
  have hpage : posters.types[1].Annotated shownPosters.types[1] :=
    ⟨rfl, rfl, rfl, rfl, rfl, rfl, .insert hshown (.insert hshown (.keep _ .nil)),
      .cons ⟨rfl, rfl, rfl, .insert hshown (.keep _ .nil)⟩ .nil⟩
  have hann : posters.Annotated shownPosters := .cons hbase (.cons hpage .nil)
  have hrun := resolveAll_of_annotated hann (Watch.start false none)
  rw [(resolveAll_performs posters).of_quiet] at hrun
  exact ⟨hann, _, _, hrun, by decide +kernel, by decide +kernel⟩

end Resolution

end ContentLoom

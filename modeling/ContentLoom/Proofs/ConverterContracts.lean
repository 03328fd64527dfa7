import ContentLoom.Proofs.ClassifiedProperties
import ContentLoom.Proofs.InterfaceSearch

/-!
# Contracts of converters

The override of a property names a type, and the type is a converter by its
references to the contract of converters: first those that its own declaration
lists, then those of the declarations that it leads to.  The first of them
decides.  With two arguments it gives the type of the values; with any other
number the override is not followed, whatever references come behind it.
-/

namespace ContentLoom

namespace Graph

/-! ### References to an interface -/

/-- The references to an interface that the declaration of a name lists. -/
def ownReferences (g : Graph) (interface name : String) : List TypeRef :=
  ((g.resolve? name).map fun d => d.interfaces.filter (·.simpleName == interface)).getD []

/-- The references to an interface in the order in which a search from a name comes to them. -/
def referencesTo (g : Graph) (interface name : String) : List TypeRef :=
  (g.searched name).flatMap (g.ownReferences interface)

/-- The declaration of a name, or of one that it leads to, lists the reference to an interface. -/
def ListedFrom (g : Graph) (interface name : String) (t : TypeRef) : Prop :=
  ∃ n ∈ g.reachable name, ∃ d, g.resolve? n = some d ∧ t ∈ d.interfaces ∧ t.simpleName = interface

theorem mem_ownReferences_iff {g : Graph} {interface name : String} {t : TypeRef} :
    t ∈ g.ownReferences interface name ↔
      ∃ d, g.resolve? name = some d ∧ t ∈ d.interfaces ∧ t.simpleName = interface := by
  unfold ownReferences
  cases g.resolve? name with
  | none => simp
  | some d => simp

theorem listedFrom_of_mem {g : Graph} {interface name : String} {t : TypeRef}
    (h : t ∈ g.referencesTo interface name) : g.ListedFrom interface name t := by
  obtain ⟨n, hn, ht⟩ := List.mem_flatMap.1 h
  exact ⟨n, searched_subset hn, mem_ownReferences_iff.1 ht⟩

theorem mem_referencesTo_of_listedFrom {g : Graph} {interface name : String} {t : TypeRef}
    (hfits : (g.reachable name).encard ≤ hierarchyLimit) (h : g.ListedFrom interface name t) :
    t ∈ g.referencesTo interface name := by
  obtain ⟨n, hn, hlisted⟩ := h
  exact List.mem_flatMap.2 ⟨n, (mem_searched_iff hfits n).2 hn, mem_ownReferences_iff.2 hlisted⟩

theorem searched_eq_cons (g : Graph) (name : String) : ∃ rest, g.searched name = name :: rest := by
  rw [searched, hierarchyLimit, visits, if_neg List.not_mem_nil]
  exact ⟨_, rfl⟩

/-- The references of the declaration itself come first, as it lists them. -/
theorem referencesTo_eq_append (g : Graph) (interface name : String) :
    ∃ others, g.referencesTo interface name = g.ownReferences interface name ++ others := by
  obtain ⟨rest, hrest⟩ := g.searched_eq_cons name
  exact ⟨_, by rw [referencesTo, hrest, List.flatMap_cons]⟩

/-- Of an interface that no type of the framework has, the first reference is found. -/
theorem findInterface?_eq_head? {interface : String}
    (hunknown : ∀ simple, frameworkHas simple interface = false) (g : Graph) (type : String) :
    g.findInterface? type interface = (g.referencesTo interface type).head? := by
  rw [findInterface?_eq_findSome?, referencesTo, List.head?_flatMap]
  congr 1
  funext name
  rw [offer?, hunknown, if_neg Bool.false_ne_true, ownReferences]
  cases g.resolve? name with
  | none => rfl
  | some d => exact List.head?_filter.symm

end Graph

/-- The type that an override names: an argument of its marker interface, or else its own. -/
def Attribute.converter? (a : Attribute) : Option TypeRef :=
  ((a.interface? MarkerKind.overrideInterface).bind (·.arguments.head?)).or a.typeArguments.head?

namespace Classifier

/-! ### The override that counts -/

/-- The property is not ignored, and the last of its overrides names the type. -/
structure Overridden (p : Property) (a : Attribute) (written : TypeRef) : Prop where
  kept : ¬Markers.Among p.attributes .ignore
  last : Markers.LastAmong p.attributes .converterOverride a
  named : a.converter? = some written

/-- The property as its converter maps it. -/
def convertedBy (p : Property) (a : Attribute) (written : TypeRef) (declared : Declaration)
    (value : TypeRef) : ContentProperty where
  name := p.name
  exposed := ⟨value.withoutNullable.text, value.nullable⟩
  conversion := .custom (converterName written declared)
  config := configOf a

/-- The property as the table maps it, and the report of an override that is not followed. -/
def refusedBy (g : Graph) (owner : String) (p : Property) (fault : OverrideFault) :
    Option ContentProperty × Option Diagnostic :=
  (some (byType g owner p (Markers.read p.attributes).hint?),
    some (.of .malformedConverterOverride ⟨owner, some p.name⟩ fault.message))

theorem converterType?_eq (m : Markers) :
    m.converterType? = m.converterOverride.bind Attribute.converter? := by
  cases hmarker : m.converterOverride with
  | none => simp [Markers.converterType?, hmarker]
  | some a =>
    simp only [Markers.converterType?, hmarker, Option.bind_some, Attribute.converter?]
    cases hnamed : (a.interface? MarkerKind.overrideInterface).bind (·.arguments.head?) with
    | none => simp [hnamed]
    | some t => simp [hnamed]

/-- What the last override makes of a property that is not ignored. -/
theorem classify_of_lastAmong {p : Property} {a : Attribute}
    (hkept : ¬Markers.Among p.attributes .ignore)
    (hlast : Markers.LastAmong p.attributes .converterOverride a) (g : Graph) (owner : String) :
    classify g owner p =
      match a.converter? with
      | none => refusedBy g owner p .noType
      | some t =>
        match g.resolve? t.name with
        | none => refusedBy g owner p (.undeclared t)
        | some d =>
          match valueType? g t with
          | none => refusedBy g owner p (.noContract t)
          | some v => (some (convertedBy p a t d v), none) := by
  have hoverride : (Markers.read p.attributes).converterOverride = some a :=
    (Markers.last?_eq_some_iff_lastAmong ..).2 hlast
  have hignored : (Markers.read p.attributes).isIgnored = false := by
    rw [← Bool.not_eq_true, Markers.isIgnored, Markers.read, Markers.isSome_last?_iff]
    exact hkept
  have htype : (Markers.read p.attributes).converterType? = a.converter? := by
    rw [converterType?_eq, hoverride, Option.bind_some]
  simp only [classify, hignored, hoverride, byOverride, htype]
  cases a.converter? with
  | none => rfl
  | some t =>
    simp only
    cases g.resolve? t.name with
    | none => rfl
    | some d =>
      cases valueType? g t with
      | none => simp [refusedBy]
      | some v => simp [convertedBy]

theorem not_custom_refusedBy (g : Graph) (owner : String) (p : Property) (fault : OverrideFault)
    {c : ContentProperty} (hc : (refusedBy g owner p fault).1 = some c) (type : String) :
    c.conversion ≠ .custom type := by
  cases hc
  exact (entry_byType ..).not_custom type

/-- A converter of its own comes to a property only from an override that names a type. -/
theorem exists_overridden_of_custom {g : Graph} {owner : String} {p : Property}
    {c : ContentProperty} {type : String} (hc : (classify g owner p).1 = some c)
    (hcustom : c.conversion = .custom type) : ∃ a t, Overridden p a t := by
  have hclassified := classified_classify g owner p
  rw [hc] at hclassified
  generalize (classify g owner p).2 = report at hclassified
  cases hclassified with
  | refused | plain => exact absurd hcustom ((entry_byType ..).not_custom type)
  | followed hkept hmarked =>
    obtain ⟨a, ha⟩ := Option.isSome_iff_exists.1 ((Markers.isSome_last?_iff ..).2 hmarked)
    have hlast := (Markers.last?_eq_some_iff_lastAmong ..).1 ha
    cases hnamed : a.converter? with
    | some t => exact ⟨a, t, hkept, hlast, hnamed⟩
    | none =>
      rw [classify_of_lastAmong hkept hlast, hnamed] at hc
      exact absurd hcustom (not_custom_refusedBy g owner p _ hc type)

/-! ### The contract that counts -/

/-- No type of the framework is a converter. -/
theorem frameworkHas_converterContract (simple : String) :
    Graph.frameworkHas simple converterContract = false := by
  have hnone : ∀ entry ∈ Graph.frameworkTypes, converterContract ∉ entry.2 := by decide
  rw [Bool.eq_false_iff, Ne, Graph.frameworkHas_iff]
  rintro ⟨interfaces, hentry, hhas⟩
  exact hnone _ hentry hhas

theorem valueType?_eq_some_iff (g : Graph) (t v : TypeRef) :
    valueType? g t = some v ↔
      ∃ s x, (g.referencesTo converterContract t.name).head? = some s ∧ s.arguments = [x, v] := by
  rw [valueType?, Graph.findInterface?_eq_head? frameworkHas_converterContract]
  cases (g.referencesTo converterContract t.name).head? with
  | none => simp
  | some s =>
    obtain ⟨name, arguments, nullable⟩ := s
    match arguments with
    | [] | [_] | _ :: _ :: _ :: _ => simp
    | [x, y] => simp

theorem valueType?_of_first_interface {g : Graph} {t s x v : TypeRef} {d : Declaration}
    {rest : List TypeRef} (hd : g.resolve? t.name = some d) (hlist : d.interfaces = s :: rest)
    (hcontract : s.simpleName = converterContract) (harguments : s.arguments = [x, v]) :
    valueType? g t = some v := by
  obtain ⟨others, hrefs⟩ := g.referencesTo_eq_append converterContract t.name
  refine (valueType?_eq_some_iff g t v).2 ⟨s, x, ?_, harguments⟩
  simp [hrefs, Graph.ownReferences, hd, hlist, hcontract]

/-- The property is mapped by a converter that an override names. -/
def MappedByConverter (g : Graph) (owner : String) (p : Property) : Prop :=
  ∃ c type, (classify g owner p).1 = some c ∧ c.conversion = .custom type

namespace Overridden

variable {g : Graph} {p : Property} {a : Attribute} {t : TypeRef} {d : Declaration}

theorem classify_of_undeclared (h : Overridden p a t) (hnone : g.resolve? t.name = none)
    (owner : String) : classify g owner p = refusedBy g owner p (.undeclared t) := by
  rw [classify_of_lastAmong h.kept h.last, h.named]
  simp only [hnone]

theorem classify_of_value (h : Overridden p a t) (hd : g.resolve? t.name = some d) {v : TypeRef}
    (hv : valueType? g t = some v) (owner : String) :
    classify g owner p = (some (convertedBy p a t d v), none) := by
  rw [classify_of_lastAmong h.kept h.last, h.named]
  simp only [hd, hv]

theorem classify_of_no_value (h : Overridden p a t) (hd : g.resolve? t.name = some d)
    (hv : valueType? g t = none) (owner : String) :
    classify g owner p = refusedBy g owner p (.noContract t) := by
  rw [classify_of_lastAmong h.kept h.last, h.named]
  simp only [hd, hv]

theorem mappedByConverter_iff (h : Overridden p a t) (hd : g.resolve? t.name = some d)
    (owner : String) : MappedByConverter g owner p ↔ ∃ v, valueType? g t = some v := by
  constructor
  · rintro ⟨c, type, hc, hcustom⟩
    cases hv : valueType? g t with
    | some v => exact ⟨v, rfl⟩
    | none =>
      rw [h.classify_of_no_value hd hv] at hc
      exact absurd hcustom (not_custom_refusedBy g owner p _ hc type)
  · rintro ⟨v, hv⟩
    exact ⟨_, _, by rw [h.classify_of_value hd hv], rfl⟩

end Overridden

/-- An override whose type is declared is followed exactly where the first reference to the contract
that a search from this type comes to has two arguments.  The references are those of the type
itself, as it lists them, and after them those of the declarations it leads to; within the bound of
a search, they are all.  So the number of arguments decides alone where it is the same for all of
them, and a reference with another number hides those behind it. -/
theorem mappedByConverter_iff_first_reference (g : Graph) (owner : String) {p : Property}
    {a : Attribute} {t : TypeRef} {d : Declaration} (hoverridden : Overridden p a t)
    (hdeclared : g.resolve? t.name = some d) :
    (MappedByConverter g owner p ↔
      ∃ s, (g.referencesTo converterContract t.name).head? = some s ∧ s.arguments.length = 2) ∧
    (∀ c type, (classify g owner p).1 = some c → c.conversion = .custom type →
      (classify g owner p).2 = none ∧
        ∃ s x v, (g.referencesTo converterContract t.name).head? = some s ∧ s.arguments = [x, v] ∧
          c.exposed = ⟨v.withoutNullable.text, v.nullable⟩) ∧
    (∃ others, g.referencesTo converterContract t.name =
      d.interfaces.filter (·.simpleName == converterContract) ++ others) ∧
    (∀ s ∈ g.referencesTo converterContract t.name, g.ListedFrom converterContract t.name s) ∧
    ((g.reachable t.name).encard ≤ Graph.hierarchyLimit →
      (∀ s, g.ListedFrom converterContract t.name s →
        s ∈ g.referencesTo converterContract t.name) ∧
      ((∀ s, g.ListedFrom converterContract t.name s → s.arguments.length = 2) →
        (MappedByConverter g owner p ↔
          ∃ s, g.ListedFrom converterContract t.name s ∧ s.arguments.length = 2))) := by
  have hvalue : MappedByConverter g owner p ↔
      ∃ s, (g.referencesTo converterContract t.name).head? = some s ∧ s.arguments.length = 2 := by
    simp only [hoverridden.mappedByConverter_iff hdeclared, valueType?_eq_some_iff,
      List.length_eq_two]
    constructor
    · rintro ⟨v, s, x, hs, harguments⟩
      exact ⟨s, hs, x, v, harguments⟩
    · rintro ⟨s, hs, x, v, harguments⟩
      exact ⟨v, s, x, hs, harguments⟩
  refine ⟨hvalue, fun c type hc hcustom => ?_, ?_, fun s => Graph.listedFrom_of_mem,
    fun hfits => ⟨fun s => Graph.mem_referencesTo_of_listedFrom hfits, fun hall => ?_⟩⟩
  · obtain ⟨v, hv⟩ := (hoverridden.mappedByConverter_iff hdeclared owner).1 ⟨c, type, hc, hcustom⟩
    obtain ⟨s, x, hs, harguments⟩ := (valueType?_eq_some_iff ..).1 hv
    rw [hoverridden.classify_of_value hdeclared hv] at hc ⊢
    cases hc
    exact ⟨rfl, s, x, v, hs, harguments, rfl⟩
  · have hown : g.ownReferences converterContract t.name =
        d.interfaces.filter (·.simpleName == converterContract) := by
      rw [Graph.ownReferences, hdeclared, Option.map_some, Option.getD_some]
    rw [← hown]
    exact g.referencesTo_eq_append converterContract t.name
  · rw [hvalue]
    constructor
    · rintro ⟨s, hs, hlength⟩
      exact ⟨s, Graph.listedFrom_of_mem (List.mem_of_mem_head? hs), hlength⟩
    · rintro ⟨s, hlisted, -⟩
      have hmem := Graph.mem_referencesTo_of_listedFrom hfits hlisted
      obtain ⟨first, rest, hrefs⟩ := List.exists_cons_of_ne_nil (List.ne_nil_of_mem hmem)
      have hfirst : first ∈ g.referencesTo converterContract t.name := by
        rw [hrefs]
        exact List.mem_cons_self ..
      exact ⟨first, by rw [hrefs, List.head?_cons], hall first (Graph.listedFrom_of_mem hfirst)⟩

theorem simpleOf_converterContract : TypeRef.simpleOf converterContract = converterContract := by
  decide +kernel

/-- An override that names a type. -/
def naming (written : TypeRef) : Attribute :=
  ⟨"ContentPipelinePropertyConverter", [written], [], [], []⟩

/-- A text with an override. -/
def worded (name : String) (written : TypeRef) : Property :=
  ⟨name, .named "string", false, [naming written]⟩

theorem overridden_worded (name : String) (written : TypeRef) :
    Overridden (worded name written) (naming written) written := by
  have hname : TypeRef.simpleOf (naming written).name = "ContentPipelinePropertyConverter" := by
    change TypeRef.simpleOf "ContentPipelinePropertyConverter" = _
    decide +kernel
  have hkind : MarkerKind.of? (naming written) = some .converterOverride := by
    simp [MarkerKind.of?, Attribute.isOf, hname, MarkerKind.stem, Attribute.suffix]
  refine ⟨?_, ⟨[], [], rfl, hkind, fun b hb => absurd hb List.not_mem_nil⟩, rfl⟩
  simp [Markers.Among, worded, hkind]

/-- Converters that list the contract once with two arguments and once without: `Counter` and what
is based on it the former first, `Shouter` the latter. -/
def speakers : Graph where
  types := [
    ⟨"Counter", "Site", .classType, false, none, [
      ⟨"IContentPropertyConverter", [.named "string", ⟨"int", [], true⟩], false⟩,
      .named "IContentPropertyConverter"], [], []⟩,
    ⟨"Shouter", "Site", .classType, false, none, [.named "IContentPropertyConverter",
      ⟨"IContentPropertyConverter", [.named "string", .named "string"], false⟩], [], []⟩,
    ⟨"Counters", "Site", .classType, false, some (.named "Counter"), [.named "IDisposable"],
      [], []⟩]

theorem mappedByConverter_iff_first_reference_speakers :
    Overridden (worded "Title" (.named "Counters")) (naming (.named "Counters"))
        (.named "Counters") ∧
      speakers.resolve? "Counters" = some speakers.types[2] ∧
      MappedByConverter speakers "Site.Page" (worded "Title" (.named "Counters")) ∧
      (∀ c type, (classify speakers "Site.Page" (worded "Title" (.named "Counters"))).1 = some c →
        c.conversion = .custom type → c.exposed = ⟨"int", true⟩) ∧
      speakers.ListedFrom converterContract "Shouter"
        ⟨"IContentPropertyConverter", [.named "string", .named "string"], false⟩ ∧
      ¬MappedByConverter speakers "Site.Page" (worded "Title" (.named "Shouter")) := by
  have hcounters : speakers.resolve? "Counters" = some speakers.types[2] := rfl
  have hshouter : speakers.resolve? "Shouter" = some speakers.types[1] := rfl
  have hfirst : (speakers.referencesTo converterContract "Counters").head? =
      some ⟨"IContentPropertyConverter", [.named "string", ⟨"int", [], true⟩], false⟩ := by
    have hleads : speakers.leadsTo "Counters" = ["Site.Counter", "IDisposable"] := by
      decide +kernel
    obtain ⟨rest, hrest⟩ : ∃ rest,
        speakers.searched "Counters" = "Counters" :: "Site.Counter" :: rest := by
      rw [Graph.searched, Graph.hierarchyLimit, Graph.visits, if_neg List.not_mem_nil, hleads,
        List.cons_append, Graph.visits, if_neg (by decide)]
      exact ⟨_, rfl⟩
    rw [Graph.referencesTo, hrest]
    rfl
  have hmarker : (speakers.referencesTo converterContract "Shouter").head? =
      some (.named "IContentPropertyConverter") := by
    obtain ⟨others, hothers⟩ := speakers.referencesTo_eq_append converterContract "Shouter"
    rw [hothers]
    rfl
  obtain ⟨hmapped, hexposed, -⟩ := mappedByConverter_iff_first_reference speakers "Site.Page"
    (overridden_worded "Title" (.named "Counters")) hcounters
  obtain ⟨hrefused, -⟩ := mappedByConverter_iff_first_reference speakers "Site.Page"
    (overridden_worded "Title" (.named "Shouter")) hshouter
  refine ⟨overridden_worded _ _, hcounters, hmapped.2 ⟨_, hfirst, rfl⟩, fun c type hc hcustom => ?_,
    ⟨_, speakers.mem_reachable_self _, _, hshouter, ?_, rfl⟩, fun hshouts => ?_⟩
  · obtain ⟨-, s, x, v, hs, harguments, hvalue⟩ := hexposed c type hc hcustom
    obtain rfl := Option.some.inj (hs.symm.trans hfirst)
    cases harguments
    rw [hvalue]
    decide +kernel
  · exact List.mem_cons_of_mem _ (List.mem_cons_self ..)
  · obtain ⟨s, hs, hlength⟩ := hrefused.1 hshouts
    obtain rfl := Option.some.inj (hs.symm.trans hmarker)
    cases hlength

end Classifier

end ContentLoom

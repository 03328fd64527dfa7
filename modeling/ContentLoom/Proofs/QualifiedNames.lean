import ContentLoom.Proofs.EnclosingScopes
import ContentLoom.Resolution

/-!
# Names with a namespace or from the root

What is found for names that say where their type is declared.  A name from the
root of all namespaces is looked for in the scopes like any other name, so a
scope that declares the same path stands before the type it means.  A name that
is declared nowhere still denotes the only declaration with its simple name,
whatever namespace it was written with.
-/

namespace ContentLoom

/-! ### Reading a name from the root -/

namespace TypeRef

theorem rootless_append (letters : List Char) : rootless (rootMark ++ letters) = letters := by
  have hprefix : rootMark.isPrefixOf (rootMark ++ letters) = true :=
    List.isPrefixOf_iff_prefix.2 (List.prefix_append ..)
  rw [rootless, if_pos hprefix, List.drop_left]

theorem isNameChar_of_mem_rootMark : ∀ c ∈ rootMark, isNameChar c = true :=
  List.all_eq_true.1 (by decide +kernel)

/-- A name is read without the mark of the root in front of it. -/
theorem parse_rootMark {name : String} (hne : name ≠ "")
    (hletters : ∀ c ∈ name.toList, isNameChar c = true) :
    parse (String.ofList rootMark ++ name) = .ok (named name) := by
  have hsome : name.toList ≠ [] := by
    intro hnil
    exact hne (String.toList_inj.1 hnil)
  have htext : (String.ofList rootMark ++ name).toList = rootMark ++ name.toList := by simp
  have hall : ∀ c ∈ rootMark ++ name.toList, isNameChar c = true := by
    intro c hc
    rcases List.mem_append.1 hc with hc | hc
    · exact isNameChar_of_mem_rootMark c hc
    · exact hletters c hc
  have hname : IsName (rootMark ++ name.toList) (rootMark ++ name.toList) [] :=
    ⟨(List.append_nil _).symm, by simp [hsome], hall, by simp, by simp [hsome]⟩
  have htype := IsType.intro (Blanks.refl _) hname (Blanks.refl _) .none (Blanks.refl _) .none
    .absent
  rw [rootless_append] at htype
  have hbracketed : bracketed name.toList 0 = name := by simp [bracketed]
  rw [hbracketed] at htype
  rw [parse_eq_ok_iff, htext]
  exact ofChars_of_isText ⟨[], htype, Blanks.refl []⟩

end TypeRef

/-! ### Enumerations of properties -/

namespace Classifier

theorem enumeration_byDeclaration_iff (g : Graph) (owner : String) (p : Property) (x : String) :
    (byDeclaration g owner p).conversion = .enumeration x ↔
      ∃ d, g.resolveIn? p.type.name (namespaceOf owner) = some d ∧ d.kind = .enumType ∧
        d.fullName = x := by
  unfold byDeclaration
  cases hfound : g.resolveIn? p.type.name (namespaceOf owner) with
  | none =>
    simp only
    split <;> simp [ContentProperty.converted, ContentProperty.passthrough]
  | some d =>
    by_cases hkind : d.kind = .enumType
    · simp [hkind, ContentProperty.converted]
    · simp only [if_neg hkind]
      split <;> simp [hkind, ContentProperty.converted, ContentProperty.passthrough]

theorem enumeration_byType_iff (g : Graph) (owner : String) (p : Property) (hint : Option String)
    (x : String) :
    (byType g owner p hint).conversion = .enumeration x ↔
      p.type.arguments = [] ∧ knownType? p.type.simpleName hint = none ∧
        (byDeclaration g owner p).conversion = .enumeration x := by
  unfold byType
  cases hargs : p.type.arguments with
  | cons a as => simp [ContentProperty.passthrough]
  | nil =>
    cases hknown : knownType? p.type.simpleName hint with
    | none => simp
    | some row => simp [ContentProperty.converted]

end Classifier

namespace Graph

/-! ### Names from the root -/

/-- The name with the mark of the root in front of it. -/
def fromRoot (name : String) : String := String.ofList TypeRef.rootMark ++ name

theorem unrooted_fromRoot (name : String) : unrooted (fromRoot name) = name := by
  rw [unrooted, TypeRef.withoutRootMark_eq_rootless, fromRoot, String.toList_append,
    String.toList_ofList, TypeRef.rootless_append, String.ofList_toList]

/-- In scopes, the mark of the root makes no difference. -/
theorem resolveIn?_fromRoot {name : String} (hname : ¬Rooted name) (g : Graph) (ns : String) :
    g.resolveIn? (fromRoot name) ns = g.resolveIn? name ns := by
  rw [resolveIn?_eq, resolveIn?_eq, unrooted_fromRoot, unrooted_of_not_rooted hname]

/-- No scope of the namespace declares the name. -/
def Unshadowed (g : Graph) (name ns : String) : Prop :=
  ∀ scope, Encloses scope ns.toList → ¬g.Declares (qualified scope name)

theorem qualified_ne (scope : List Char) (name : String) : qualified scope name ≠ name := by
  intro heq
  have hlength := congrArg (fun s => s.toList.length) heq
  simp [qualified] at hlength
  omega

section

variable {g : Graph} (hroots : ∀ d ∈ g.types, ¬Rooted d.fullName)

include hroots

theorem not_rooted_of_declares {name : String} (h : g.Declares name) : ¬Rooted name := by
  obtain ⟨d, hd, rfl⟩ := h
  exact hroots d hd

theorem resolveIn?_of_unshadowed {name ns : String} {e : Declaration}
    (h : Earliest (·.fullName = name) g.types e) (hclear : g.Unshadowed name ns) :
    g.resolveIn? name ns = some e := by
  have hname := not_rooted_of_declares hroots (declares_iff_earliest.2 ⟨e, h⟩)
  have hitself := (denotesIn_iff hroots hname ns _).1 (.byItself hclear)
  rw [hitself, resolve?_of_find? hname (find?_eq_some_iff_earliest.2 h)]

theorem unshadowed_of_resolveIn? {name ns : String} {d : Declaration} (hname : ¬Rooted name)
    (h : g.resolveIn? name ns = some d) (hd : d.fullName = name) : g.Unshadowed name ns := by
  generalize hfound : g.resolveIn? name ns = found at h
  cases (denotesIn_iff hroots hname ns found).2 hfound with
  | @inScope scope e henc hinner hfirst =>
    obtain rfl : e = d := Option.some.inj h
    exact absurd (hfirst.holds.symm.trans hd) (qualified_ne scope name)
  | byItself hscopes => exact hscopes

/-- A declared name denotes a declaration with this full name where no scope has another for it. -/
theorem finds_iff_unshadowed {name : String} (hdeclares : g.Declares name) (ns : String) :
    (∃ d, g.resolveIn? name ns = some d ∧ d.fullName = name) ↔ g.Unshadowed name ns := by
  constructor
  · rintro ⟨d, hfound, hd⟩
    exact unshadowed_of_resolveIn? hroots (not_rooted_of_declares hroots hdeclares) hfound hd
  · intro hclear
    obtain ⟨e, hfirst⟩ := declares_iff_earliest.1 hdeclares
    exact ⟨e, resolveIn?_of_unshadowed hroots hfirst hclear, hfirst.holds⟩

end

/-- A name from the root finds the type it means exactly where no scope of the namespace declares
the same path: as it is looked for, as the base of a type, and as the type of a property. -/
theorem fromRoot_found_iff (g : Graph) (hroots : ∀ d ∈ g.types, ¬Rooted d.fullName) (name : String)
    (hdeclares : g.Declares name) :
    (∀ ns, (∃ d, g.resolveIn? (fromRoot name) ns = some d ∧ d.fullName = name) ↔
      g.Unshadowed name ns) ∧
      (name ≠ "" → (∀ c ∈ name.toList, TypeRef.isNameChar c = true) →
        TypeRef.parse (fromRoot name) = .ok (.named name) ∧
          (∀ d : Declaration, d.base = some (.named name) →
            ((∃ e, g.baseOf? d = some e ∧ e.fullName = name) ↔ g.Unshadowed name d.ns)) ∧
          ∀ (owner : String) (p : Property) (e : Declaration), p.type = .named name →
            Earliest (·.fullName = name) g.types e → e.kind = .enumType →
            ((Classifier.byDeclaration g owner p).conversion = .enumeration name ↔
              g.Unshadowed name (Classifier.namespaceOf owner))) := by
  have hname := not_rooted_of_declares hroots hdeclares
  refine ⟨fun ns => ?_, fun hne hletters => ⟨TypeRef.parse_rootMark hne hletters,
    fun d hbase => ?_, fun owner p e htype hfirst hkind => ?_⟩⟩
  · rw [resolveIn?_fromRoot hname]
    exact finds_iff_unshadowed hroots hdeclares ns
  · rw [baseOf?, hbase, Option.bind_some]
    exact finds_iff_unshadowed hroots hdeclares d.ns
  · rw [Classifier.enumeration_byDeclaration_iff, htype]
    constructor
    · rintro ⟨d, hfound, -, hd⟩
      exact unshadowed_of_resolveIn? hroots hname hfound hd
    · intro hclear
      exact ⟨e, resolveIn?_of_unshadowed hroots hfirst hclear, hkind, hfirst.holds⟩

/-- A vendor's types, and a site that has a namespace with the vendor's name. -/
def annexed : Graph where
  types := [
    ⟨"Base", "Vendor", .classType, false, none, [], [], []⟩,
    ⟨"Kind", "Vendor", .enumType, false, none, [], [], []⟩,
    ⟨"Base", "Site.Vendor", .classType, false, none, [], [], []⟩,
    ⟨"Page", "Site", .classType, false, some (.named "Vendor.Base"), [], [], []⟩]

theorem fromRoot_found_iff_annexed :
    (∀ d ∈ annexed.types, ¬Rooted d.fullName) ∧ annexed.Declares "Vendor.Base" ∧
      annexed.Declares "Vendor.Kind" ∧
      (∃ d, annexed.resolveIn? (fromRoot "Vendor.Base") "Shop" = some d ∧
        d.fullName = "Vendor.Base") ∧
      (¬∃ d, annexed.resolveIn? (fromRoot "Vendor.Base") "Site.Pages" = some d ∧
        d.fullName = "Vendor.Base") ∧
      TypeRef.parse (fromRoot "Vendor.Base") = .ok (.named "Vendor.Base") ∧
      (¬∃ e, annexed.baseOf? annexed.types[3] = some e ∧ e.fullName = "Vendor.Base") ∧
      (Classifier.byDeclaration annexed "Site.Page"
        ⟨"Kind", .named "Vendor.Kind", false, []⟩).conversion = .enumeration "Vendor.Kind" := by
  have hroots : ∀ d ∈ annexed.types, ¬Rooted d.fullName := by decide
  have hbase : annexed.Declares "Vendor.Base" := by decide
  have hkind : annexed.Declares "Vendor.Kind" := by decide
  have hshop : ∀ scope ∈ "Shop".toList.inits, Encloses scope "Shop".toList →
      ¬annexed.Declares (qualified scope "Vendor.Base") := by decide
  have hsite : ∀ scope ∈ "Site".toList.inits, Encloses scope "Site".toList →
      ¬annexed.Declares (qualified scope "Vendor.Kind") := by decide
  have hshadow : annexed.Declares (qualified "Site".toList "Vendor.Base") := by decide
  obtain ⟨hlookup, hwritten⟩ := fromRoot_found_iff annexed hroots "Vendor.Base" hbase
  obtain ⟨-, hwritten'⟩ := fromRoot_found_iff annexed hroots "Vendor.Kind" hkind
  obtain ⟨hparse, hof, -⟩ := hwritten (by decide) (List.all_eq_true.1 (by decide +kernel))
  obtain ⟨-, -, hproperty⟩ := hwritten' (by decide) (List.all_eq_true.1 (by decide +kernel))
  refine ⟨hroots, hbase, hkind, (hlookup "Shop").2 fun scope h => ?_, fun hfound => ?_, hparse,
    fun hfound => ?_, ?_⟩
  · exact hshop scope ((List.mem_inits ..).2 h.isPrefix) h
  · exact (hlookup "Site.Pages").1 hfound "Site".toList (by decide) hshadow
  · exact (hof annexed.types[3] rfl).1 hfound "Site".toList (by decide) hshadow
  · refine (hproperty "Site.Page" _ annexed.types[1] rfl ⟨[_], _, rfl, by decide, by decide⟩
      rfl).2 fun scope h => ?_
    have hns : Classifier.namespaceOf "Site.Page" = "Site" := by decide
    rw [hns] at h
    exact hsite scope ((List.mem_inits ..).2 h.isPrefix) h

/-! ### Names that are not declared -/

/-- Nothing is declared under the name: not by itself, nor in a scope of the namespace. -/
structure Undeclared (g : Graph) (name ns : String) : Prop where
  byItself : ¬g.Declares name
  unshadowed : g.Unshadowed name ns

theorem resolveIn?_of_undeclared {g : Graph} {name ns : String} (hname : ¬Rooted name)
    (h : g.Undeclared name ns) :
    g.resolveIn? name ns = only? (g.types.filter (·.name == TypeRef.simpleOf name)) := by
  have hscopes : ((scopes ns.toList).findSome? fun scope =>
      g.resolveFull? (qualified scope name)) = none := by
    rw [List.findSome?_eq_none_iff]
    intro scope hscope
    exact resolveFull?_of_not_declares (h.unshadowed scope ((mem_scopes_iff ..).1 hscope))
  rw [resolveIn?_eq, unrooted_of_not_rooted hname, hscopes, Option.none_or, resolve?_eq,
    unrooted_of_not_rooted hname, not_declares_iff.1 h.byItself, Option.none_or]

/-- A type that is its own base, by name, is a cycle of one type. -/
theorem baseChain_of_own_base {g : Graph} {d : Declaration} {t : TypeRef} (hbase : d.base = some t)
    (hself : g.resolveIn? t.name d.ns = some d) : g.baseChain d = ⟨[d], true, none⟩ := by
  rw [baseChain, follow, hbase]
  simp [hself, hierarchyLimit]

theorem baseChain_of_undeclared_base {g : Graph} {d : Declaration} {t : TypeRef}
    (hbase : d.base = some t) (hnone : g.resolveIn? t.name d.ns = none) :
    g.baseChain d = ⟨[d], false, some t⟩ := by
  rw [baseChain, follow, hbase]
  simp [hnone]

theorem reports_cycle_iff (g : Graph) (chain : BaseChain) (fullName : String) :
    (∃ r ∈ Resolution.chainReports g chain fullName, r.code = .inheritanceCycle) ↔
      chain.cyclic = true := by
  constructor
  · rintro ⟨r, hr, hcode⟩
    rcases List.mem_append.1 hr with hr | hr
    · split at hr
      · assumption
      · simp at hr
    · split at hr
      · simp at hr
      · split at hr
        · simp at hr
        · rw [List.mem_singleton.1 hr] at hcode
          cases hcode
  · intro hcyclic
    rw [Resolution.chainReports, if_pos hcyclic]
    exact ⟨_, List.mem_append_left _ (List.mem_singleton.2 rfl), rfl⟩

/-- What an undeclared name leads to is decided by its simple name alone.  It denotes the only
declaration with this simple name; a class of that name that has it as its base is then reported as
its own base; and a property is mapped as the enumeration of that name. -/
theorem undeclared_denotes_iff (g : Graph) (name : String) (hname : ¬Rooted name) :
    (∀ ns, g.Undeclared name ns →
      (∀ e, g.resolveIn? name ns = some e ↔ Sole (·.name = TypeRef.simpleOf name) g.types e) ∧
        (g.resolveIn? name ns = none ↔
          ∀ e, ¬Sole (·.name = TypeRef.simpleOf name) g.types e)) ∧
      (∀ d ∈ g.types, ∀ t, d.base = some t → t.name = name → d.name = TypeRef.simpleOf name →
        g.Undeclared name d.ns →
        ((∃ r ∈ Resolution.chainReports g (g.baseChain d) d.fullName,
            r.code = .inheritanceCycle) ↔
          Sole (·.name = TypeRef.simpleOf name) g.types d) ∧
        ((g.baseChain d).undeclaredRoot = some t ↔
          ¬Sole (·.name = TypeRef.simpleOf name) g.types d)) ∧
      ∀ (owner : String) (p : Property) (hint : Option String) (x : String),
        p.type.name = name → g.Undeclared name (Classifier.namespaceOf owner) →
        ((Classifier.byType g owner p hint).conversion = .enumeration x ↔
          p.type.arguments = [] ∧ Classifier.knownType? p.type.simpleName hint = none ∧
            ∃ e, Sole (·.name = TypeRef.simpleOf name) g.types e ∧ e.kind = .enumType ∧
              e.fullName = x) := by
  have hsole (ns : String) (h : g.Undeclared name ns) (e : Declaration) :
      g.resolveIn? name ns = some e ↔ Sole (·.name = TypeRef.simpleOf name) g.types e := by
    rw [resolveIn?_of_undeclared hname h, only?_eq_some_iff_sole]
  refine ⟨fun ns h => ⟨hsole ns h, ?_⟩, fun d hd t hbase ht hsimple h => ?_,
    fun owner p hint x hp h => ?_⟩
  · simp only [Option.eq_none_iff_forall_ne_some, ne_eq, hsole ns h]
  · rw [reports_cycle_iff]
    subst ht
    by_cases hself : Sole (·.name = TypeRef.simpleOf t.name) g.types d
    · rw [baseChain_of_own_base hbase ((hsole d.ns h d).2 hself)]
      simp [hself]
    · have hnone : g.resolveIn? t.name d.ns = none := by
        refine Option.eq_none_iff_forall_ne_some.2 fun e he => hself ?_
        have hother := (hsole d.ns h e).1 he
        rwa [hother.eq hd hsimple]
      rw [baseChain_of_undeclared_base hbase hnone]
      simp [hself]
  · rw [Classifier.enumeration_byType_iff, Classifier.enumeration_byDeclaration_iff, hp]
    simp only [hsole _ h]

/-- A page and an enumeration that have the simple names of a vendor's types. -/
def homonyms : Graph where
  types := [
    ⟨"Page", "Site", .classType, false, some (.named "Vendor.Page"), [], [], []⟩,
    ⟨"Color", "Site", .enumType, false, none, [], [], []⟩]

theorem undeclared_denotes_iff_homonyms :
    ¬Rooted "Vendor.Page" ∧ ¬Rooted "Vendor.Color" ∧ homonyms.Undeclared "Vendor.Page" "Site" ∧
      homonyms.Undeclared "Vendor.Color" "Site" ∧
      homonyms.resolveIn? "Vendor.Page" "Site" = homonyms.types[0]? ∧
      (∃ r ∈ Resolution.chainReports homonyms (homonyms.baseChain homonyms.types[0])
        homonyms.types[0].fullName, r.code = .inheritanceCycle) ∧
      (Classifier.byType homonyms "Site.Shelf"
        ⟨"Tint", .named "Vendor.Color", false, []⟩ none).conversion =
        .enumeration "Site.Color" := by
  have hpage : ¬Rooted "Vendor.Page" := by decide
  have hcolor : ¬Rooted "Vendor.Color" := by decide
  have hscopes : ∀ scope ∈ "Site".toList.inits, Encloses scope "Site".toList →
      ¬homonyms.Declares (qualified scope "Vendor.Page") ∧
        ¬homonyms.Declares (qualified scope "Vendor.Color") := by decide
  have hall (scope : List Char) (h : Encloses scope "Site".toList) :=
    hscopes scope ((List.mem_inits ..).2 h.isPrefix) h
  have hnoPage : homonyms.Undeclared "Vendor.Page" "Site" :=
    ⟨by decide, fun scope h => (hall scope h).1⟩
  have hnoColor : homonyms.Undeclared "Vendor.Color" "Site" :=
    ⟨by decide, fun scope h => (hall scope h).2⟩
  have hsolePage : Sole (·.name = TypeRef.simpleOf "Vendor.Page") homonyms.types
      homonyms.types[0] := ⟨[], [_], rfl, by decide, by decide⟩
  have hsoleColor : Sole (·.name = TypeRef.simpleOf "Vendor.Color") homonyms.types
      homonyms.types[1] := ⟨[_], [], rfl, by decide, by decide⟩
  obtain ⟨hlookup, hchain, -⟩ := undeclared_denotes_iff homonyms "Vendor.Page" hpage
  obtain ⟨-, -, hproperty⟩ := undeclared_denotes_iff homonyms "Vendor.Color" hcolor
  have hreported := (hchain homonyms.types[0] (List.getElem_mem _) _ rfl rfl (by decide) hnoPage).1
  have hns : Classifier.namespaceOf "Site.Shelf" = "Site" := by decide
  exact ⟨hpage, hcolor, hnoPage, hnoColor, ((hlookup "Site" hnoPage).1 _).2 hsolePage,
    hreported.2 hsolePage,
    (hproperty "Site.Shelf" _ none "Site.Color" rfl (by rwa [hns])).2
      ⟨rfl, by decide, _, hsoleColor, rfl, by decide⟩⟩

end Graph

end ContentLoom

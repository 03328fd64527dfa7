import ContentLoom.Proofs.ConverterContracts
import ContentLoom.Proofs.QualifiedNames
import ContentLoom.Proofs.StepFields
import Mathlib.Data.List.TakeWhile

/-!
# Names of converters

How the type of an override is looked up, and under which name its converter is
asked for.  The type is looked up by itself and not in the scopes of the class,
so a converter that a scope declares is found only where its name is not
shadowed or where its simple name is the only one.  A converter without
arguments is asked for by the full name of its declaration; one with arguments
by its name as the override writes it.
-/

namespace ContentLoom

/-! ### Names in front of arguments -/

namespace TypeRef

/-- What stands before the arguments of a type. -/
def stem (type : String) : String := String.ofList (type.toList.takeWhile (· ≠ '<'))

theorem takeWhile_append_angle (front back : List Char) :
    (front ++ '<' :: back).takeWhile (· ≠ '<') = front.takeWhile (· ≠ '<') := by
  induction front with
  | nil => rfl
  | cons c front ih =>
    rw [List.cons_append, List.takeWhile_cons, List.takeWhile_cons, ih]

theorem stem_eq_self_iff (type : String) : stem type = type ↔ '<' ∉ type.toList := by
  rw [stem, ← String.toList_inj, String.toList_ofList, List.takeWhile_eq_self_iff]
  simp only [decide_eq_true_eq]
  exact ⟨fun h hangle => h _ hangle rfl, fun h c hc heq => h (heq ▸ hc)⟩

theorem text_withoutNullable {t : TypeRef} (h : t.arguments ≠ []) :
    ∃ back, ∀ u : TypeRef, u.arguments = t.arguments →
      u.withoutNullable.text = String.ofList (u.name.toList ++ '<' :: back) := by
  obtain ⟨first, rest, harguments⟩ := List.exists_cons_of_ne_nil h
  refine ⟨chars first ++ moreChars rest, fun u hu => ?_⟩
  simp [text, withoutNullable, chars, hu, harguments, argumentChars]

theorem stem_text_withoutNullable {t : TypeRef} (h : t.arguments ≠ []) :
    stem t.withoutNullable.text = stem t.name := by
  obtain ⟨back, hback⟩ := text_withoutNullable h
  rw [hback t rfl, stem, stem, String.toList_ofList, takeWhile_append_angle]

/-- Two references with the same arguments have different texts only where their names differ. -/
theorem text_withoutNullable_inj {t u : TypeRef} (h : t.arguments ≠ [])
    (hsame : u.arguments = t.arguments) :
    t.withoutNullable.text = u.withoutNullable.text ↔ t.name = u.name := by
  obtain ⟨back, hback⟩ := text_withoutNullable h
  rw [hback t rfl, hback u hsame, ← String.toList_inj, String.toList_ofList, String.toList_ofList,
    List.append_left_inj, String.toList_inj]

/-- In a reference that was read, the name ends where the arguments begin. -/
theorem stem_name_of_written {t : TypeRef} (h : Written t) : stem t.name = t.name := by
  obtain ⟨text, htext⟩ := h
  obtain ⟨after, htype, -⟩ := isText_of_ofChars ((parse_eq_ok_iff text t).1 htext)
  rw [stem_eq_self_iff]
  cases htype with
  | intro before written gap inner behind pairs mark =>
    have hangle : isNameChar '<' = false := by decide +kernel
    rw [toList_bracketed, List.mem_append, not_or]
    refine ⟨fun hmem => ?_, by simp [bracketChars]⟩
    rw [isNameChar_of_mem_rootless written.letters _ hmem] at hangle
    cases hangle

end TypeRef

/-! ### Converters of a step -/

namespace Generated

/-- A step is given one converter for two conversions of its class only if they are the same. -/
theorem one_injection_iff {k : ContentClass} {a b : Conversion} (ha : a ∈ k.conversions)
    (hb : b ∈ k.conversions) :
    ((injections k).countP fun i => i.conversion = a ∨ i.conversion = b) = 1 ↔ a = b := by
  have hmap : ((injections k).countP fun i => i.conversion = a ∨ i.conversion = b) =
      k.conversions.countP fun c => c = a ∨ c = b := by
    rw [← conversions_injections, List.countP_map]
    rfl
  rw [hmap, List.countP_eq_length_filter]
  constructor
  · intro hlength
    obtain ⟨c, hc⟩ := List.length_eq_one_iff.1 hlength
    have hmem {e : Conversion} (he : e ∈ k.conversions) (hcases : e = a ∨ e = b) : e = c := by
      have hfilter : e ∈ k.conversions.filter fun c => c = a ∨ c = b :=
        List.mem_filter.2 ⟨he, by simpa using hcases⟩
      rw [hc] at hfilter
      exact List.mem_singleton.1 hfilter
    exact (hmem ha (Or.inl rfl)).trans (hmem hb (Or.inr rfl)).symm
  · rintro rfl
    have hcount := List.count_eq_one_of_mem (ContentClass.nodup_conversions k) ha
    rw [← List.countP_eq_length_filter]
    simpa only [or_self, List.count, beq_eq_decide] using hcount

end Generated

namespace Classifier

/-! ### The name by which a converter is asked for -/

/-- The override of the property that counts names the type, and this is the declaration that the
type denotes. -/
structure Validated (g : Graph) (p : Property) (t : TypeRef) (d : Declaration) : Prop where
  overridden : ∃ a, Overridden p a t
  declared : g.resolve? t.name = some d

theorem Validated.unique {g : Graph} {p : Property} {t t' : TypeRef} {d d' : Declaration}
    (h : Validated g p t d) (h' : Validated g p t' d') : t = t' ∧ d = d' := by
  obtain ⟨a, -, hlast, hnamed⟩ := h.overridden
  obtain ⟨a', -, hlast', hnamed'⟩ := h'.overridden
  rw [← Markers.last?_eq_some_iff_lastAmong] at hlast hlast'
  obtain rfl := Option.some.inj (hlast.symm.trans hlast')
  obtain rfl := Option.some.inj (hnamed.symm.trans hnamed')
  exact ⟨rfl, Option.some.inj (h.declared.symm.trans h'.declared)⟩

theorem conversion_of_validated {g : Graph} {owner : String} {p : Property} {t : TypeRef}
    {d : Declaration} (h : Validated g p t d) {c : ContentProperty} {type : String}
    (hc : (classify g owner p).1 = some c) (hcustom : c.conversion = .custom type) :
    type = converterName t d := by
  obtain ⟨a, hoverridden⟩ := h.overridden
  obtain ⟨v, hv⟩ :=
    (hoverridden.mappedByConverter_iff h.declared owner).1 ⟨c, type, hc, hcustom⟩
  rw [hoverridden.classify_of_value h.declared hv] at hc
  cases hc
  cases hcustom
  rfl

theorem exists_validated_of_custom {g : Graph} {owner : String} {p : Property}
    {c : ContentProperty} {type : String} (hc : (classify g owner p).1 = some c)
    (hcustom : c.conversion = .custom type) : ∃ t d, Validated g p t d := by
  obtain ⟨a, t, hoverridden⟩ := exists_overridden_of_custom hc hcustom
  cases hd : g.resolve? t.name with
  | some d => exact ⟨t, d, ⟨a, hoverridden⟩, hd⟩
  | none =>
    rw [hoverridden.classify_of_undeclared hd] at hc
    exact absurd hcustom (not_custom_refusedBy g owner p _ hc type)

theorem converterName_of_arguments {t : TypeRef} (h : t.arguments ≠ []) (d : Declaration) :
    converterName t d = t.withoutNullable.text := by
  rw [converterName, if_neg (mt List.isEmpty_iff.1 h)]

theorem converterName_of_no_arguments {t : TypeRef} (h : t.arguments = []) (d : Declaration) :
    converterName t d = d.fullName := by
  rw [converterName, if_pos (List.isEmpty_iff.2 h)]

theorem stem_converterName_iff (t : TypeRef) (d : Declaration) :
    TypeRef.stem (converterName t d) = d.fullName ↔
      if t.arguments = [] then '<' ∉ d.fullName.toList else TypeRef.stem t.name = d.fullName := by
  by_cases h : t.arguments = []
  · rw [if_pos h, converterName_of_no_arguments h, TypeRef.stem_eq_self_iff]
  · rw [if_neg h, converterName_of_arguments h, TypeRef.stem_text_withoutNullable h]

theorem converterName_eq_iff {t u : TypeRef} (hsame : u.arguments = t.arguments)
    (d : Declaration) :
    converterName t d = converterName u d ↔ t.arguments = [] ∨ t.name = u.name := by
  by_cases h : t.arguments = []
  · have hu : u.arguments = [] := hsame.trans h
    simp [converterName_of_no_arguments h, converterName_of_no_arguments hu, h]
  · have hu : u.arguments ≠ [] := hsame ▸ h
    rw [converterName_of_arguments h, converterName_of_arguments hu,
      TypeRef.text_withoutNullable_inj h hsame]
    simp [h]

/-- A converter is asked for by the full name of the declaration that its override was validated
against where the override names it without arguments, and by the name that is written where it has
arguments.  So a step is given one converter for two references to it with the same arguments only
if their names are the same. -/
theorem stem_custom_iff (g : Graph) (owner : String) {p : Property} {c : ContentProperty}
    {type : String} (hc : (classify g owner p).1 = some c) (hcustom : c.conversion = .custom type) :
    ∃ t d, Validated g p t d ∧ d ∈ g.types ∧
      Generated.injectedType c.conversion = Generated.rooted type ∧
      (TypeRef.stem type = d.fullName ↔
        if t.arguments = [] then '<' ∉ d.fullName.toList else TypeRef.stem t.name = d.fullName) ∧
      (TypeRef.Written t → TypeRef.stem t.name = t.name) ∧
      ∀ (other : String) (q : Property) (e : ContentProperty) (type' : String) (u : TypeRef),
        (classify g other q).1 = some e → e.conversion = .custom type' → Validated g q u d →
        u.arguments = t.arguments →
        ∀ k : ContentClass, c ∈ k.properties → e ∈ k.properties →
          (((Generated.injections k).countP fun i =>
              i.conversion = c.conversion ∨ i.conversion = e.conversion) = 1 ↔
            t.arguments = [] ∨ t.name = u.name) := by
  obtain ⟨t, d, hvalid⟩ := exists_validated_of_custom hc hcustom
  have htype := conversion_of_validated hvalid hc hcustom
  refine ⟨t, d, hvalid, Graph.mem_of_resolve? hvalid.declared, by rw [hcustom]; rfl, ?_,
    TypeRef.stem_name_of_written, fun other q e type' u he hcustom' hvalid' hsame k hck hek => ?_⟩
  · rw [htype]
    exact stem_converterName_iff t d
  · have htype' := conversion_of_validated hvalid' he hcustom'
    have hmem {f : ContentProperty} {name : String} (hf : f ∈ k.properties)
        (hname : f.conversion = .custom name) : f.conversion ∈ k.conversions :=
      ContentClass.mem_conversions.2 ⟨by simp [hname], f, hf, rfl⟩
    rw [Generated.one_injection_iff (hmem hck hcustom) (hmem hek hcustom'), hcustom, hcustom',
      Conversion.custom.injEq, htype, htype']
    exact converterName_eq_iff hsame d

/-- A text whose override names a converter with an argument. -/
def counted (name converter : String) : Property := worded name ⟨converter, [.named "int"], false⟩

/-- A counted text as it is mapped. -/
def countedBy (name converter : String) : ContentProperty :=
  ⟨name, ⟨"int", true⟩, .custom (converter ++ "<int>"), none⟩

theorem classify_counted {converter : String}
    (hd : speakers.resolve? converter = some speakers.types[0]) (owner name : String) :
    classify speakers owner (counted name converter) = (some (countedBy name converter), none) := by
  have hlist : speakers.types[0].interfaces = [
      ⟨"IContentPropertyConverter", [.named "string", ⟨"int", [], true⟩], false⟩,
      .named "IContentPropertyConverter"] := rfl
  have hv : valueType? speakers ⟨converter, [.named "int"], false⟩ = some ⟨"int", [], true⟩ :=
    valueType?_of_first_interface hd hlist simpleOf_converterContract rfl
  have hoverridden := overridden_worded name ⟨converter, [.named "int"], false⟩
  rw [counted, hoverridden.classify_of_value hd hv]
  have hexposed : TypeRef.text ⟨"int", [], false⟩ = "int" := by decide +kernel
  have hname : TypeRef.text ⟨converter, [.named "int"], false⟩ = converter ++ "<int>" := by
    have hback : TypeRef.argumentChars [.named "int"] = "<int>".toList := by decide +kernel
    simp [TypeRef.text, TypeRef.chars, hback, String.ofList_append]
  simp [convertedBy, countedBy, converterName, TypeRef.withoutNullable, hexposed, hname, worded]
  rfl

theorem stem_custom_iff_speakers :
    (classify speakers "Site.Page" (counted "Title" "Counter")).1 =
        some (countedBy "Title" "Counter") ∧
      (classify speakers "Site.Page" (counted "Lead" "Site.Counter")).1 =
        some (countedBy "Lead" "Site.Counter") ∧
      TypeRef.stem "Counter<int>" ≠ "Site.Counter" ∧
      TypeRef.stem "Site.Counter<int>" = "Site.Counter" ∧
      ∀ k : ContentClass, countedBy "Title" "Counter" ∈ k.properties →
        countedBy "Lead" "Site.Counter" ∈ k.properties →
        ((Generated.injections k).countP fun i =>
          i.conversion = .custom "Counter<int>" ∨
            i.conversion = .custom "Site.Counter<int>") ≠ 1 := by
  have hcounter : speakers.resolve? "Counter" = some speakers.types[0] := rfl
  have hsite : speakers.resolve? "Site.Counter" = some speakers.types[0] := rfl
  have htitle := congrArg Prod.fst (classify_counted hcounter "Site.Page" "Title")
  have hlead := congrArg Prod.fst (classify_counted hsite "Site.Page" "Lead")
  have hvalid : Validated speakers (counted "Title" "Counter") _ _ :=
    ⟨⟨_, overridden_worded "Title" _⟩, hcounter⟩
  have hvalid' : Validated speakers (counted "Lead" "Site.Counter") _ _ :=
    ⟨⟨_, overridden_worded "Lead" _⟩, hsite⟩
  obtain ⟨t, d, ht, -, -, hstem, -, hinjected⟩ := stem_custom_iff speakers "Site.Page" htitle rfl
  obtain ⟨u, e, hu, -, -, hstem', -⟩ := stem_custom_iff speakers "Site.Page" hlead rfl
  obtain ⟨rfl, rfl⟩ := hvalid.unique ht
  obtain ⟨rfl, rfl⟩ := hvalid'.unique hu
  have hsome : [TypeRef.named "int"] ≠ [] := List.cons_ne_nil _ _
  rw [if_neg hsome] at hstem hstem'
  have hshort : TypeRef.stem "Counter" ≠ "Site.Counter" := by decide +kernel
  have hlong : TypeRef.stem "Site.Counter" = "Site.Counter" := by decide +kernel
  refine ⟨htitle, hlead, fun h => hshort (hstem.1 h), hstem'.2 hlong,
    fun k htitled hled hcount => ?_⟩
  have hone := hinjected "Site.Page" _ _ _ _ hlead rfl hvalid' rfl k htitled hled
  obtain hnone | hname := hone.1 hcount
  · exact hsome hnone
  · exact absurd hname (by decide)

end Classifier

/-! ### The declaration of a converter -/

namespace Graph

theorem denotes_unrooted_iff (g : Graph) (name : String) (found : Option Declaration) :
    Denotes g.types (unrooted name) found ↔ g.resolve? name = found := by
  rw [denotes_iff, resolve?_eq]

/-- By itself a name denotes what it denotes in a namespace exactly where no scope declares it, or
where its simple name is that of no other declaration and it is nobody's full name. -/
theorem denotes_iff_of_resolveIn? {g : Graph} (hroots : ∀ d ∈ g.types, ¬Rooted d.fullName)
    {name ns : String} (hname : ¬Rooted name) {d : Declaration}
    (hscoped : g.resolveIn? name ns = some d) :
    Denotes g.types name (some d) ↔
      g.Unshadowed name ns ∨
        ¬g.Declares name ∧ Sole (·.name = TypeRef.simpleOf name) g.types d := by
  constructor
  · intro h
    cases h with
    | byFullName hfirst =>
      exact Or.inl (unshadowed_of_resolveIn? hroots hname hscoped hfirst.holds)
    | bySimpleName hfull hsole =>
      exact Or.inr ⟨not_declares_iff.2 (find?_eq_none_iff_forall.2 hfull), hsole⟩
  · rintro (hclear | ⟨hfull, hsole⟩)
    · have hitself := (denotesIn_iff hroots hname ns _).1 (.byItself hclear)
      rw [hscoped] at hitself
      have hdenotes := (g.denotes_unrooted_iff name (some d)).2 hitself.symm
      rwa [unrooted_of_not_rooted hname] at hdenotes
    · exact .bySimpleName (find?_eq_none_iff_forall.1 (not_declares_iff.1 hfull)) hsole

end Graph

namespace Classifier

open ContentLoom.Graph

/-- A converter that lists its contract first is followed where its name by itself denotes it.  The
scopes of the class, in which the types of its properties are looked up, do not count: a name that
by itself denotes nothing is refused as undeclared, and one that denotes another declaration gives
the converter of that one. -/
theorem scoped_converter_iff_denotes (g : Graph) (owner : String) {p : Property} {a : Attribute}
    {t : TypeRef} {d : Declaration} (hoverridden : Overridden p a t)
    (hscoped : g.resolveIn? t.name (namespaceOf owner) = some d) {s x v : TypeRef}
    {rest : List TypeRef} (hlist : d.interfaces = s :: rest)
    (hcontract : s.simpleName = converterContract) (harguments : s.arguments = [x, v]) :
    (Denotes g.types (unrooted t.name) (some d) →
      classify g owner p = (some (convertedBy p a t d v), none)) ∧
    (t.arguments = [] → (∀ e ∈ g.types, e.fullName = d.fullName → e = d) →
      ((∃ c, (classify g owner p).1 = some c ∧ c.conversion = .custom d.fullName) ↔
        Denotes g.types (unrooted t.name) (some d))) ∧
    (Denotes g.types (unrooted t.name) none →
      classify g owner p = refusedBy g owner p (.undeclared t)) ∧
    ((∀ e ∈ g.types, ¬Rooted e.fullName) → ¬Rooted t.name →
      (Denotes g.types t.name (some d) ↔
        g.Unshadowed t.name (namespaceOf owner) ∨
          ¬g.Declares t.name ∧ Sole (·.name = TypeRef.simpleOf t.name) g.types d)) := by
  have hfollowed (h : Denotes g.types (unrooted t.name) (some d)) :
      classify g owner p = (some (convertedBy p a t d v), none) := by
    have hd := (g.denotes_unrooted_iff t.name (some d)).1 h
    exact hoverridden.classify_of_value hd
      (valueType?_of_first_interface hd hlist hcontract harguments) owner
  refine ⟨hfollowed, fun hbare hdistinct => ⟨?_, fun h => ?_⟩, fun h => ?_,
    fun hroots hname => denotes_iff_of_resolveIn? hroots hname hscoped⟩
  · rintro ⟨c, hc, hcustom⟩
    cases he : g.resolve? t.name with
    | none =>
      rw [hoverridden.classify_of_undeclared he] at hc
      exact absurd hcustom (not_custom_refusedBy g owner p _ hc _)
    | some e =>
      have hname := conversion_of_validated ⟨⟨a, hoverridden⟩, he⟩ hc hcustom
      rw [converterName_of_no_arguments hbare] at hname
      rw [hdistinct e (mem_of_resolve? he) hname.symm] at he
      exact (g.denotes_unrooted_iff t.name (some d)).2 he
  · refine ⟨_, congrArg Prod.fst (hfollowed h), ?_⟩
    rw [convertedBy, converterName_of_no_arguments hbare]
  · exact hoverridden.classify_of_undeclared ((g.denotes_unrooted_iff t.name none).1 h) owner

/-- Two converters with one simple name, and one with a name of its own. -/
def echoes : Graph where
  types := [
    ⟨"Counter", "Site", .classType, false, none,
      [⟨"IContentPropertyConverter", [.named "string", .named "int"], false⟩], [], []⟩,
    ⟨"Counter", "Vendor", .classType, false, none,
      [⟨"IContentPropertyConverter", [.named "string", .named "bool"], false⟩], [], []⟩,
    ⟨"Shouter", "Site", .classType, false, none,
      [⟨"IContentPropertyConverter", [.named "string", .named "string"], false⟩], [], []⟩]

theorem scoped_converter_iff_denotes_echoes :
    echoes.resolveIn? "Counter" "Site" = some echoes.types[0] ∧
      (classify echoes "Site.Page" (worded "Title" (.named "Counter"))).2.isSome = true ∧
      (¬∃ c, (classify echoes "Site.Page" (worded "Title" (.named "Counter"))).1 = some c ∧
        c.conversion = .custom "Site.Counter") ∧
      echoes.resolveIn? "Shouter" "Site" = some echoes.types[2] ∧
      classify echoes "Site.Page" (worded "Title" (.named "Shouter")) =
        (some ⟨"Title", ⟨"string", false⟩, .custom "Site.Shouter", none⟩, none) := by
  have hns : namespaceOf "Site.Page" = "Site" := by decide
  have hscopes : scopes "Site".toList = ["Site".toList] := by decide +kernel
  have hcounter : echoes.resolveIn? "Counter" (namespaceOf "Site.Page") =
      some echoes.types[0] := by
    rw [hns, resolveIn?_eq, hscopes]
    rfl
  have hshouter : echoes.resolveIn? "Shouter" (namespaceOf "Site.Page") =
      some echoes.types[2] := by
    rw [hns, resolveIn?_eq, hscopes]
    rfl
  have hdropped := overridden_worded "Title" (.named "Counter")
  have hkept := overridden_worded "Title" (.named "Shouter")
  obtain ⟨-, -, hrefused, -⟩ :=
    scoped_converter_iff_denotes echoes "Site.Page" hdropped hcounter rfl
      simpleOf_converterContract rfl
  obtain ⟨hfollowed, -⟩ :=
    scoped_converter_iff_denotes echoes "Site.Page" hkept hshouter rfl
      simpleOf_converterContract rfl
  have hnone : Denotes echoes.types (unrooted "Counter") none :=
    (echoes.denotes_unrooted_iff "Counter" none).2 rfl
  have hsole : Denotes echoes.types (unrooted "Shouter") (some echoes.types[2]) :=
    (echoes.denotes_unrooted_iff "Shouter" _).2 rfl
  have hreported := hrefused hnone
  rw [hns] at hcounter hshouter
  refine ⟨hcounter, by rw [hreported]; rfl, ?_, hshouter, ?_⟩
  · rintro ⟨c, hc, hcustom⟩
    rw [hreported] at hc
    exact not_custom_refusedBy echoes "Site.Page" _ _ hc _ hcustom
  · rw [hfollowed hsole]
    decide +kernel

end Classifier

end ContentLoom

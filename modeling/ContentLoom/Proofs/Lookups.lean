import ContentLoom.Proofs.EnclosingScopes
import ContentLoom.Proofs.InterfaceSearch
import ContentLoom.Proofs.ResolutionActs
import Mathlib.Data.List.Find
import Mathlib.Data.List.Forall2
import Mathlib.Data.List.Nodup

/-!
# Graphs that look up names alike

All that resolution asks of a graph is which declaration a name denotes, and
all that it reads of attributes is which of them are markers.  Two graphs in
which every name denotes declarations that read the same therefore give the
same chains, interfaces, classifications and classes; and the order of
declarations does not decide what a name denotes where no full name is declared
twice.
-/

namespace ContentLoom

/-! ### Related results -/

section Related

variable {α β : Type} {R : α → β → Prop}

theorem rel_or {a c : Option α} {b d : Option β} (hab : Option.Rel R a b)
    (hcd : Option.Rel R c d) : Option.Rel R (a.or c) (b.or d) := by
  cases hab with
  | some h => exact .some h
  | none => exact hcd

theorem rel_filter {p : α → Bool} {q : β → Bool} (hpq : ∀ {a b}, R a b → q b = p a)
    {a : Option α} {b : Option β} (hab : Option.Rel R a b) :
    Option.Rel R (a.filter p) (b.filter q) := by
  cases hab with
  | none => exact .none
  | some h =>
    rw [Option.filter_some, Option.filter_some, hpq h]
    split
    · exact .some h
    · exact .none

theorem rel_findSome? {γ : Type} {f : γ → Option α} {f' : γ → Option β}
    (hf : ∀ x, Option.Rel R (f x) (f' x)) (xs : List γ) :
    Option.Rel R (xs.findSome? f) (xs.findSome? f') := by
  induction xs with
  | nil => exact .none
  | cons x xs ih =>
    rw [List.findSome?_cons, List.findSome?_cons]
    have hx := hf x
    generalize f x = a, f' x = b at hx
    cases hx with
    | some h => exact .some h
    | none => exact ih

theorem rel_find? {p : α → Bool} {q : β → Bool} (hpq : ∀ {a b}, R a b → q b = p a)
    {xs : List α} {ys : List β} (h : List.Forall₂ R xs ys) :
    Option.Rel R (xs.find? p) (ys.find? q) := by
  induction h with
  | nil => exact .none
  | cons hab rest ih =>
    rw [List.find?_cons, List.find?_cons, hpq hab]
    split
    · exact .some hab
    · exact ih

theorem rel_only? {xs : List α} {ys : List β} (h : List.Forall₂ R xs ys) :
    Option.Rel R (only? xs) (only? ys) := by
  cases h with
  | nil => exact .none
  | cons hab rest =>
    cases rest with
    | nil => exact .some hab
    | cons => exact .none

end Related

/-! ### Declarations that read the same -/

/-- Two properties that differ at most in attributes that are no markers in effect. -/
structure Property.ReadsAs (p q : Property) : Prop where
  name : q.name = p.name
  type : q.type = p.type
  nullable : q.nullable = p.nullable
  markers : Markers.read q.attributes = Markers.read p.attributes

/-- Two declarations that differ at most in attributes that are no markers in effect, on themselves
and on their properties. -/
structure Declaration.ReadsAs (d e : Declaration) : Prop where
  name : e.name = d.name
  ns : e.ns = d.ns
  kind : e.kind = d.kind
  isAbstract : e.isAbstract = d.isAbstract
  base : e.base = d.base
  interfaces : e.interfaces = d.interfaces
  markers : Markers.read e.attributes = Markers.read d.attributes
  properties : List.Forall₂ Property.ReadsAs d.properties e.properties

namespace Declaration.ReadsAs

theorem refl (d : Declaration) : ReadsAs d d :=
  ⟨rfl, rfl, rfl, rfl, rfl, rfl, rfl, List.forall₂_same.2 fun _ _ => ⟨rfl, rfl, rfl, rfl⟩⟩

variable {d e : Declaration}

theorem fullName (hd : ReadsAs d e) : e.fullName = d.fullName := by
  rw [Declaration.fullName, Declaration.fullName, hd.name, hd.ns]

theorem isFramework (hd : ReadsAs d e) : e.isFramework = d.isFramework := by
  rw [Declaration.isFramework, Declaration.isFramework, hd.ns]

end Declaration.ReadsAs

/-- Two chains of declarations that read the same. -/
structure BaseChain.ReadsAs (c c' : BaseChain) : Prop where
  types : List.Forall₂ Declaration.ReadsAs c.types c'.types
  cyclic : c'.cyclic = c.cyclic
  undeclaredRoot : c'.undeclaredRoot = c.undeclaredRoot

theorem BaseChain.ReadsAs.single {d e : Declaration} (hd : Declaration.ReadsAs d e)
    (cyclic : Bool) (root : Option TypeRef) :
    BaseChain.ReadsAs ⟨[d], cyclic, root⟩ ⟨[e], cyclic, root⟩ :=
  ⟨.cons hd .nil, rfl, rfl⟩

theorem BaseChain.ReadsAs.effectiveMarkers {c c' : BaseChain} (hc : BaseChain.ReadsAs c c') :
    EffectiveMarkers.ofChain c' = EffectiveMarkers.ofChain c := by
  have hnearest {ds es : List Declaration} (h : List.Forall₂ Declaration.ReadsAs ds es) :
      (es.findSome? fun d => (Markers.read d.attributes).grouping.map fun m => (m, d.name)) =
        ds.findSome? fun d => (Markers.read d.attributes).grouping.map fun m => (m, d.name) := by
    induction h with
    | nil => rfl
    | cons hd rest ih => rw [List.findSome?_cons, List.findSome?_cons, hd.markers, hd.name, ih]
  have hown {ds es : List Declaration} (h : List.Forall₂ Declaration.ReadsAs ds es) :
      Markers.read ((es.head?.map (·.attributes)).getD []) =
        Markers.read ((ds.head?.map (·.attributes)).getD []) := by
    cases h with
    | nil => rfl
    | cons hd rest => exact hd.markers
  rw [EffectiveMarkers.ofChain, EffectiveMarkers.ofChain, hnearest hc.types, hown hc.types]

namespace Resolution

/-- Two properties that read the same, declared in types with one full name. -/
structure Owned.ReadsAs (o u : Owned) : Prop where
  owner : u.owner = o.owner
  property : Property.ReadsAs o.property u.property

theorem readsAs_addOwned {os us : List Owned} (hos : List.Forall₂ Owned.ReadsAs os us)
    {o u : Owned} (ho : Owned.ReadsAs o u) :
    List.Forall₂ Owned.ReadsAs (addOwned os o) (addOwned us u) := by
  induction hos with
  | nil => exact .cons ho .nil
  | cons hfirst rest ih =>
    rw [addOwned, addOwned, hfirst.property.name, ho.property.name]
    split
    · exact .cons ho rest
    · exact .cons hfirst ih

theorem readsAs_flatten {ds es : List Declaration}
    (h : List.Forall₂ Declaration.ReadsAs ds es) :
    List.Forall₂ Owned.ReadsAs (flatten ds) (flatten es) := by
  have hkept : List.Forall₂ Declaration.ReadsAs (ds.filter fun d => !d.isFramework)
      (es.filter fun e => !e.isFramework) :=
    List.rel_filter (fun _ _ hd => by simp only [hd.isFramework]) h
  have howned : List.Forall₂ Owned.ReadsAs
      ((ds.filter fun d => !d.isFramework).flatMap fun d =>
        d.properties.map fun p => ⟨d.fullName, p⟩)
      ((es.filter fun e => !e.isFramework).flatMap fun e =>
        e.properties.map fun p => ⟨e.fullName, p⟩) :=
    List.rel_flatMap hkept fun _ _ hd =>
      List.rel_map (fun _ _ hp => ⟨hd.fullName, hp⟩) hd.properties
  exact List.rel_foldl (P := List.Forall₂ Owned.ReadsAs) (R := Owned.ReadsAs)
    (fun _ _ hos _ _ ho => readsAs_addOwned hos ho) .nil howned

end Resolution

namespace Graph

/-! ### Graphs -/

/-- Every name denotes declarations that read the same in both graphs. -/
def LooksUpAs (g h : Graph) : Prop :=
  ∀ name, Option.Rel Declaration.ReadsAs (g.resolve? name) (h.resolve? name)

theorem looksUpAs_of_forall₂ {g h : Graph}
    (htypes : List.Forall₂ Declaration.ReadsAs g.types h.types) : LooksUpAs g h := by
  intro name
  rw [resolve?_eq, resolve?_eq]
  refine rel_or (rel_find? (fun hd => by rw [hd.fullName]) htypes) (rel_only? ?_)
  exact List.rel_filter (fun _ _ hd => by simp only [hd.name]) htypes

namespace LooksUpAs

variable {g h : Graph}

/-! ### Hierarchies -/

theorem resolveIn? (ha : LooksUpAs g h) (name ns : String) :
    Option.Rel Declaration.ReadsAs (g.resolveIn? name ns) (h.resolveIn? name ns) := by
  rw [resolveIn?_eq, resolveIn?_eq]
  refine rel_or (rel_findSome? (fun scope => ?_) _) (ha _)
  exact rel_filter (fun hd => by rw [hd.fullName]) (ha _)

theorem follow (ha : LooksUpAs g h) (room : Nat) (visited : List String) {d e : Declaration}
    (hd : Declaration.ReadsAs d e) :
    BaseChain.ReadsAs (g.follow room visited d) (h.follow room visited e) := by
  induction room generalizing visited d e with
  | zero =>
    unfold Graph.follow
    rw [hd.base, hd.ns]
    split
    · exact .single hd ..
    · next written hwritten =>
      have hbase := ha.resolveIn? written.name d.ns
      generalize g.resolveIn? written.name d.ns = b, h.resolveIn? written.name d.ns = b' at hbase
      cases hbase with
      | none => exact .single hd ..
      | some hbase => exact .single hd ..
  | succ room ih =>
    unfold Graph.follow
    rw [hd.base, hd.ns]
    split
    · exact .single hd ..
    · next written hwritten =>
      have hbase := ha.resolveIn? written.name d.ns
      generalize g.resolveIn? written.name d.ns = b, h.resolveIn? written.name d.ns = b' at hbase
      cases hbase with
      | none => exact .single hd ..
      | @some base base' hbase =>
        simp only [hbase.fullName]
        split
        · exact .single hd ..
        · have habove := ih (base.fullName :: visited) hbase
          exact ⟨.cons hd habove.types, habove.cyclic, habove.undeclaredRoot⟩

theorem baseChain (ha : LooksUpAs g h) {d e : Declaration} (hd : Declaration.ReadsAs d e) :
    BaseChain.ReadsAs (g.baseChain d) (h.baseChain e) := by
  rw [Graph.baseChain, Graph.baseChain, hd.fullName]
  exact ha.follow _ _ hd

theorem leadsTo (ha : LooksUpAs g h) : h.leadsTo = g.leadsTo := by
  have honward {d e : Declaration} (hd : Declaration.ReadsAs d e) : h.onward e = g.onward d := by
    funext written
    unfold Graph.onward
    rw [hd.ns]
    have hfound := ha.resolveIn? written.name d.ns
    generalize g.resolveIn? written.name d.ns = b, h.resolveIn? written.name d.ns = b' at hfound
    cases hfound with
    | none => rfl
    | some hfound => exact hfound.fullName
  funext name
  have hfound := ha name
  unfold Graph.leadsTo
  generalize g.resolve? name = b, h.resolve? name = b' at hfound
  cases hfound with
  | none => rfl
  | some hd =>
    simp only [Option.map_some, Option.getD_some, Graph.successors, hd.base, hd.interfaces,
      honward hd]

theorem offer? (ha : LooksUpAs g h) (interface : String) :
    h.offer? interface = g.offer? interface := by
  funext name
  have hfound := ha name
  unfold Graph.offer?
  generalize g.resolve? name = b, h.resolve? name = b' at hfound
  cases hfound with
  | none => rfl
  | some hd => simp only [Option.bind_some, hd.interfaces]

theorem findInterface? (ha : LooksUpAs g h) (type interface : String) :
    h.findInterface? type interface = g.findInterface? type interface := by
  rw [findInterface?_eq_findSome?, findInterface?_eq_findSome?, searched_congr ha.leadsTo,
    ha.offer?]

theorem implements (ha : LooksUpAs g h) (type interface : String) :
    h.implements type interface = g.implements type interface := by
  rw [Graph.implements, Graph.implements, ha.findInterface?]

/-! ### Properties -/

theorem byOverride (ha : LooksUpAs g h) (name : String) (m : Markers) :
    Classifier.byOverride h name m = Classifier.byOverride g name m := by
  unfold Classifier.byOverride
  split
  · rfl
  · next written hwritten =>
    have hvalue : Classifier.valueType? h written = Classifier.valueType? g written := by
      rw [Classifier.valueType?, Classifier.valueType?, ha.findInterface?]
    have hfound := ha written.name
    generalize g.resolve? written.name = b, h.resolve? written.name = b' at hfound
    cases hfound with
    | none => rfl
    | some hd => simp only [hvalue, Classifier.converterName, hd.fullName]

theorem byType (ha : LooksUpAs g h) (owner : String) {p q : Property}
    (hp : Property.ReadsAs p q) (hint : Option String) :
    Classifier.byType h owner q hint = Classifier.byType g owner p hint := by
  have hnullable : q.isNullable = p.isNullable := by
    rw [Property.isNullable, Property.isNullable, hp.nullable, hp.type]
  have hother : Classifier.byDeclaration h owner q = Classifier.byDeclaration g owner p := by
    have hfound := ha.resolveIn? p.type.name (Classifier.namespaceOf owner)
    unfold Classifier.byDeclaration
    simp only [hp.type, hp.name, hnullable, ha.implements]
    generalize g.resolveIn? p.type.name (Classifier.namespaceOf owner) = b,
      h.resolveIn? p.type.name (Classifier.namespaceOf owner) = b' at hfound
    cases hfound with
    | none => rfl
    | some hd => simp only [Option.map_some, hd.fullName, hd.kind]
  unfold Classifier.byType
  rw [hp.type, hp.name, hnullable, hother]

theorem classify (ha : LooksUpAs g h) (owner : String) {p q : Property}
    (hp : Property.ReadsAs p q) :
    Classifier.classify h owner q = Classifier.classify g owner p := by
  simp only [Classifier.classify, hp.markers, hp.name, ha.byOverride, ha.byType owner hp]

/-! ### Classes -/

theorem classMarkers? (ha : LooksUpAs g h) {d e : Declaration} (hd : Declaration.ReadsAs d e) :
    Resolution.classMarkers? h e = Resolution.classMarkers? g d := by
  simp only [Resolution.classMarkers?, hd.kind, hd.isAbstract,
    (ha.baseChain hd).effectiveMarkers]

theorem ownedProperties (ha : LooksUpAs g h) {d e : Declaration}
    (hd : Declaration.ReadsAs d e) :
    List.Forall₂ Resolution.Owned.ReadsAs (Resolution.ownedProperties g d)
      (Resolution.ownedProperties h e) :=
  Resolution.readsAs_flatten (List.rel_reverse (ha.baseChain hd).types)

theorem classifyOwned (ha : LooksUpAs g h) {o u : Resolution.Owned}
    (ho : Resolution.Owned.ReadsAs o u) :
    Classifier.classify h u.owner u.property = Classifier.classify g o.owner o.property := by
  rw [ho.owner, ha.classify o.owner ho.property]

theorem origin? (ha : LooksUpAs g h) {d e : Declaration} (hd : Declaration.ReadsAs d e) :
    Resolution.origin? h e = Resolution.origin? g d := by
  have hmapped {os us : List Resolution.Owned}
      (hos : List.Forall₂ Resolution.Owned.ReadsAs os us) :
      us.filterMap (fun o => (Classifier.classify h o.owner o.property).1) =
        os.filterMap fun o => (Classifier.classify g o.owner o.property).1 := by
    induction hos with
    -- `rfl` would compare what the two graphs classify.
    | nil => rw [List.filterMap_nil, List.filterMap_nil]
    | cons ho rest ih => rw [List.filterMap_cons, List.filterMap_cons, ha.classifyOwned ho, ih]
  have hresolved : Resolution.resolvedOf h e = Resolution.resolvedOf g d := by
    funext markers
    simp only [Resolution.resolvedOf, hd.name, hd.fullName, hmapped (ha.ownedProperties hd)]
  rw [Resolution.origin?, Resolution.origin?, ha.classMarkers? hd, hresolved]

theorem originActs (ha : LooksUpAs g h) {d e : Declaration} (hd : Declaration.ReadsAs d e) :
    Resolution.originActs h e = Resolution.originActs g d := by
  have hchain := ha.baseChain hd
  have hreports : Resolution.markerReports h e = Resolution.markerReports g d := by
    funext markers
    simp only [Resolution.markerReports, Resolution.chainReports, hchain.cyclic,
      hchain.undeclaredRoot, hd.fullName, ha.implements]
  have hacts {os us : List Resolution.Owned}
      (hos : List.Forall₂ Resolution.Owned.ReadsAs os us) :
      Resolution.propertyActs h us = Resolution.propertyActs g os := by
    unfold Resolution.propertyActs
    induction hos with
    | nil => rw [List.flatMap_nil, List.flatMap_nil]
    | cons ho rest ih => rw [List.flatMap_cons, List.flatMap_cons, ha.classifyOwned ho, ih]
  simp only [Resolution.originActs, ha.classMarkers? hd, hreports, hacts (ha.ownedProperties hd)]

theorem classesOf (ha : LooksUpAs g h) {ds es : List Declaration}
    (hds : List.Forall₂ Declaration.ReadsAs ds es) :
    Resolution.classesOf h es = Resolution.classesOf g ds := by
  induction hds with
  | nil => simp only [Resolution.classesOf, List.filterMap_nil]
  | cons hd rest ih =>
    rw [Resolution.classesOf_cons, Resolution.classesOf_cons, ha.origin? hd, ih]

theorem eachActs (ha : LooksUpAs g h) {ds es : List Declaration}
    (hds : List.Forall₂ Declaration.ReadsAs ds es) (known : List (Identifier × String)) :
    Resolution.eachActs h known es = Resolution.eachActs g known ds := by
  induction hds generalizing known with
  | nil => rw [Resolution.eachActs, Resolution.eachActs]
  | cons hd rest ih =>
    rw [Resolution.eachActs, Resolution.eachActs, ha.originActs hd, ha.origin? hd]
    simp only [ih]

end LooksUpAs

/-! ### Order of declarations -/

/-- Every name denotes the same declaration in both graphs. -/
def Alike (g h : Graph) : Prop := ∀ name, g.resolve? name = h.resolve? name

namespace Alike

variable {g h : Graph}

theorem looksUpAs (ha : Alike g h) : LooksUpAs g h := by
  intro name
  rw [ha name]
  cases h.resolve? name with
  | none => exact .none
  | some d => exact .some (.refl d)

theorem origin? (ha : Alike g h) (d : Declaration) :
    Resolution.origin? g d = Resolution.origin? h d :=
  (ha.looksUpAs.origin? (.refl d)).symm

theorem originActs (ha : Alike g h) (d : Declaration) :
    Resolution.originActs g d = Resolution.originActs h d :=
  (ha.looksUpAs.originActs (.refl d)).symm

end Alike

theorem alike_of_perm {g h : Graph} (hperm : g.types.Perm h.types)
    (hdistinct : (g.types.map Declaration.fullName).Nodup) : Alike g h := by
  intro name
  have hfull : g.types.find? (·.fullName == unrooted name) =
      h.types.find? (·.fullName == unrooted name) := by
    apply List.find?_eq_find?_of_perm hperm
    intro c hc d hd
    have hnames : c.fullName = d.fullName := by
      rw [eq_of_beq hc.2, eq_of_beq hd.2]
    exact List.inj_on_of_nodup_map hdistinct hc.1 hd.1 hnames
  rw [resolve?_eq, resolve?_eq, hfull, only?_of_perm (hperm.filter _)]

end Graph

end ContentLoom

import ContentLoom.Proofs.NamePlaces
import ContentLoom.Proofs.TypeText
import Mathlib.Data.List.Infix

/-!
# Names inside a namespace

The scopes of a namespace are the namespace itself and what stands before each
of its dots.  A name that is used inside a namespace denotes the first
declaration with its full name in the innermost scope that has one, and what it
denotes by itself where no scope has one.
-/

namespace ContentLoom.Graph

/-! ### Scopes -/

/-- The scope is a namespace or one around it: it is not empty, and it is all of the namespace or
stands before one of its dots. -/
def Encloses (scope ns : List Char) : Prop :=
  scope ≠ [] ∧ (scope = ns ∨ scope ++ ['.'] <+: ns)

instance (scope ns : List Char) : Decidable (Encloses scope ns) :=
  inferInstanceAs (Decidable (_ ∧ _))

theorem Encloses.isPrefix {scope ns : List Char} (h : Encloses scope ns) : scope <+: ns := by
  obtain ⟨-, rfl | hdot⟩ := h
  · exact List.prefix_rfl
  · exact (List.prefix_append scope ['.']).trans hdot

theorem encloses_nil_iff (scope : List Char) : ¬Encloses scope [] := by
  intro h
  exact h.1 (List.prefix_nil.1 h.isPrefix)

theorem before_dot_iff {back : List Char} (h : '.' ∉ back) (scope outer : List Char) :
    scope ++ ['.'] <+: outer ++ '.' :: back ↔ scope = outer ∨ scope ++ ['.'] <+: outer := by
  constructor
  · rintro ⟨rest, hsplit⟩
    rw [List.append_assoc, List.singleton_append] at hsplit
    rcases List.append_eq_append_iff.1 hsplit with ⟨mid, rfl, hrest⟩ | ⟨mid, rfl, hrest⟩
    · cases mid with
      | nil => exact .inl (List.append_nil scope).symm
      | cons c mid =>
        obtain rfl : '.' = c := (List.cons.inj hrest).1
        exact .inr ⟨mid, by simp⟩
    · cases mid with
      | nil => exact .inl (List.append_nil outer)
      | cons c mid =>
        have hback : back = mid ++ '.' :: rest := (List.cons.inj hrest).2
        exact absurd (hback ▸ List.mem_append_right mid (List.mem_cons_self ..)) h
  · rintro (rfl | ⟨rest, rfl⟩)
    · exact ⟨back, by simp⟩
    · exact ⟨rest ++ '.' :: back, by simp⟩

theorem mem_scopes_iff (scope ns : List Char) : scope ∈ scopes ns ↔ Encloses scope ns := by
  fun_induction scopes ns with
  | case1 ns hempty =>
    rw [List.isEmpty_iff.1 hempty]
    simp [encloses_nil_iff]
  | case2 ns hsome outer hcut ih =>
    obtain ⟨back, rfl, hback⟩ := Text.beforeLast?_eq_some_iff.1 hcut
    rw [List.mem_cons, ih, Encloses, Encloses, before_dot_iff hback]
    constructor
    · rintro (rfl | ⟨hscope, hcases⟩)
      · exact ⟨by simp, .inl rfl⟩
      · exact ⟨hscope, .inr hcases⟩
    · rintro ⟨hscope, hwhole | hcases⟩
      · exact .inl hwhole
      · exact .inr ⟨hscope, hcases⟩
  | case3 ns hsome hcut =>
    have hplain : '.' ∉ ns := Text.beforeLast?_eq_none_iff.1 hcut
    rw [List.mem_singleton, Encloses]
    constructor
    · rintro rfl
      exact ⟨by simpa using hsome, .inl rfl⟩
    · rintro ⟨-, hwhole | ⟨rest, rfl⟩⟩
      · exact hwhole
      · simp at hplain

/-- The scopes become shorter from the innermost on. -/
theorem scopes_pairwise (ns : List Char) :
    (scopes ns).Pairwise fun inner outer => outer.length < inner.length := by
  fun_induction scopes ns with
  | case1 => exact .nil
  | case2 ns hsome outer hcut ih =>
    refine List.pairwise_cons.2 ⟨fun scope hscope => ?_, ih⟩
    have hle := ((mem_scopes_iff scope outer).1 hscope).isPrefix.length_le
    have hlt := Text.beforeLast?_length '.' ns outer hcut
    omega
  | case3 => exact List.pairwise_singleton ..

/-- The scopes in front of one are those that are longer. -/
theorem mem_front_iff {ns scope : List Char} {front back : List (List Char)}
    (hsplit : scopes ns = front ++ scope :: back) (inner : List Char) :
    inner ∈ front ↔ Encloses inner ns ∧ scope.length < inner.length := by
  have hpairwise := scopes_pairwise ns
  rw [hsplit, List.pairwise_append, List.pairwise_cons] at hpairwise
  obtain ⟨-, ⟨hback, -⟩, hfront⟩ := hpairwise
  rw [← mem_scopes_iff, hsplit]
  constructor
  · intro hmem
    exact ⟨List.mem_append_left _ hmem, hfront inner hmem scope (List.mem_cons_self ..)⟩
  · rintro ⟨hmem, hlonger⟩
    rcases List.mem_append.1 hmem with hmem | hmem
    · exact hmem
    · rcases List.mem_cons.1 hmem with rfl | hmem
      · omega
      · have hshorter := hback inner hmem
        omega

/-! ### Names -/

/-- The name begins with the mark of the root. -/
def Rooted (name : String) : Prop := TypeRef.rootMark <+: name.toList

instance (name : String) : Decidable (Rooted name) := inferInstanceAs (Decidable (_ <+: _))

theorem unrooted_of_not_rooted {name : String} (h : ¬Rooted name) : unrooted name = name := by
  rw [unrooted, TypeRef.withoutRootMark_eq_rootless, TypeRef.rootless_eq_self h,
    String.ofList_toList]

/-- Some declaration has the full name. -/
def Declares (g : Graph) (name : String) : Prop := ∃ d ∈ g.types, d.fullName = name

instance (g : Graph) (name : String) : Decidable (g.Declares name) :=
  inferInstanceAs (Decidable (∃ d ∈ g.types, _))

theorem not_declares_iff {g : Graph} {name : String} :
    ¬g.Declares name ↔ g.types.find? (·.fullName == name) = none := by
  rw [find?_eq_none_iff_forall]
  simp [Declares]

theorem declares_iff_earliest {g : Graph} {name : String} :
    g.Declares name ↔ ∃ d, Earliest (·.fullName = name) g.types d := by
  constructor
  · intro hdeclares
    cases hfound : g.types.find? (·.fullName == name) with
    | none => exact absurd hdeclares (not_declares_iff.2 hfound)
    | some d => exact ⟨d, find?_eq_some_iff_earliest.1 hfound⟩
  · rintro ⟨d, hfirst⟩
    exact ⟨d, hfirst.mem, hfirst.holds⟩

theorem mem_of_resolve? {g : Graph} {name : String} {d : Declaration}
    (h : g.resolve? name = some d) : d ∈ g.types := by
  rw [resolve?_eq] at h
  rcases Option.or_eq_some_iff.1 h with hfull | ⟨-, hsole⟩
  · exact List.mem_of_find?_eq_some hfull
  · have hfilter := only?_eq_some_iff.1 hsole
    exact (List.mem_filter.1 (hfilter ▸ List.mem_cons_self ..)).1

theorem resolve?_of_find? {g : Graph} {name : String} (hplain : ¬Rooted name) {d : Declaration}
    (h : g.types.find? (·.fullName == name) = some d) : g.resolve? name = some d := by
  rw [resolve?_eq, unrooted_of_not_rooted hplain, h, Option.some_or]

/-! ### Looking up in the scopes -/

/-- The declaration that a name denotes, where that is its full name. -/
def resolveFull? (g : Graph) (name : String) : Option Declaration :=
  (g.resolve? name).filter (·.fullName == name)

theorem resolveIn?_eq (g : Graph) (name ns : String) :
    g.resolveIn? name ns =
      ((scopes ns.toList).findSome? fun scope =>
        g.resolveFull? (qualified scope (unrooted name))).or (g.resolve? (unrooted name)) := by
  simp only [resolveIn?, resolveFull?]
  split
  · next d hfound => rw [hfound, Option.some_or]
  · next hnone => rw [hnone, Option.none_or]

theorem mem_of_resolveIn? {g : Graph} {name ns : String} {d : Declaration}
    (h : g.resolveIn? name ns = some d) : d ∈ g.types := by
  rw [resolveIn?_eq, Option.or_eq_some_iff] at h
  rcases h with h | ⟨-, h⟩
  · obtain ⟨scope, -, hscope⟩ := List.exists_of_findSome?_eq_some h
    exact mem_of_resolve? (Option.filter_eq_some_iff.1 hscope).1
  · exact mem_of_resolve? h

theorem resolveFull?_of_not_declares {g : Graph} {name : String} (h : ¬g.Declares name) :
    g.resolveFull? name = none := by
  rw [resolveFull?, Option.filter_eq_none_iff]
  intro d hd hname
  exact h ⟨d, mem_of_resolve? hd, beq_iff_eq.1 hname⟩

theorem resolveFull?_eq {g : Graph} (hroots : ∀ d ∈ g.types, ¬Rooted d.fullName) (name : String) :
    g.resolveFull? name = g.types.find? (·.fullName == name) := by
  cases hfound : g.types.find? (·.fullName == name) with
  | none => exact resolveFull?_of_not_declares (not_declares_iff.2 hfound)
  | some d =>
    have hname : d.fullName = name := by simpa using List.find?_some hfound
    have hplain : ¬Rooted name := hname ▸ hroots d (List.mem_of_find?_eq_some hfound)
    rw [resolveFull?, resolve?_of_find? hplain hfound, Option.filter_some, beq_iff_eq.2 hname,
      if_pos rfl]

/-! ### Denotation -/

/-- What a name without root mark denotes inside a namespace. -/
inductive DenotesIn (g : Graph) (name ns : String) : Option Declaration → Prop
  | inScope {scope d} (hscope : Encloses scope ns.toList)
      (hinner : ∀ inner, Encloses inner ns.toList → scope.length < inner.length →
        ¬g.Declares (qualified inner name))
      (h : Earliest (·.fullName = qualified scope name) g.types d) : DenotesIn g name ns (some d)
  | byItself (hscopes : ∀ scope, Encloses scope ns.toList → ¬g.Declares (qualified scope name)) :
      DenotesIn g name ns (g.resolve? name)

theorem findSome?_scopes_eq_some_iff (g : Graph) (name : String) (ns : List Char)
    (d : Declaration) :
    ((scopes ns).findSome? fun scope => g.types.find? (·.fullName == qualified scope name)) =
        some d ↔
      ∃ scope, Encloses scope ns ∧
        (∀ inner, Encloses inner ns → scope.length < inner.length →
          ¬g.Declares (qualified inner name)) ∧
        Earliest (·.fullName = qualified scope name) g.types d := by
  rw [List.findSome?_eq_some_iff]
  constructor
  · rintro ⟨front, scope, back, hsplit, hfound, hfront⟩
    have hmem : scope ∈ scopes ns := hsplit ▸ List.mem_append_right _ (List.mem_cons_self ..)
    refine ⟨scope, (mem_scopes_iff scope ns).1 hmem, fun inner henc hlonger => ?_,
      find?_eq_some_iff_earliest.1 hfound⟩
    exact not_declares_iff.2 (hfront inner ((mem_front_iff hsplit inner).2 ⟨henc, hlonger⟩))
  · rintro ⟨scope, henc, hinner, hfirst⟩
    obtain ⟨front, back, hsplit⟩ := List.append_of_mem ((mem_scopes_iff scope ns).2 henc)
    refine ⟨front, scope, back, hsplit, find?_eq_some_iff_earliest.2 hfirst, fun inner hmem => ?_⟩
    obtain ⟨hencloses, hlonger⟩ := (mem_front_iff hsplit inner).1 hmem
    exact not_declares_iff.1 (hinner inner hencloses hlonger)

theorem findSome?_scopes_eq_none_iff (g : Graph) (name : String) (ns : List Char) :
    ((scopes ns).findSome? fun scope => g.types.find? (·.fullName == qualified scope name)) =
        none ↔
      ∀ scope, Encloses scope ns → ¬g.Declares (qualified scope name) := by
  simp only [List.findSome?_eq_none_iff, mem_scopes_iff, ← not_declares_iff]

theorem denotesIn_iff {g : Graph} (hroots : ∀ d ∈ g.types, ¬Rooted d.fullName) {name : String}
    (hname : ¬Rooted name) (ns : String) (found : Option Declaration) :
    DenotesIn g name ns found ↔ g.resolveIn? name ns = found := by
  simp only [resolveIn?_eq, unrooted_of_not_rooted hname, resolveFull?_eq hroots]
  constructor
  · intro h
    cases h with
    | inScope henc hinner hfirst =>
      rw [(findSome?_scopes_eq_some_iff ..).2 ⟨_, henc, hinner, hfirst⟩, Option.some_or]
    | byItself hscopes =>
      rw [(findSome?_scopes_eq_none_iff ..).2 hscopes, Option.none_or]
  · rintro rfl
    cases hscoped : (scopes ns.toList).findSome? fun scope =>
        g.types.find? (·.fullName == qualified scope name) with
    | some d =>
      obtain ⟨scope, henc, hinner, hfirst⟩ := (findSome?_scopes_eq_some_iff ..).1 hscoped
      exact .inScope henc hinner hfirst
    | none =>
      rw [Option.none_or]
      exact .byItself ((findSome?_scopes_eq_none_iff ..).1 hscoped)

/-- The innermost scope with a declaration of the name decides, or else the name by itself.  A scope
that declares the name is passed over only for one inside it that declares it too: what a scoped
name denotes by its simple name does not count. -/
theorem resolveIn?_iff_denotesIn (g : Graph) (hroots : ∀ d ∈ g.types, ¬Rooted d.fullName)
    (name : String) (hname : ¬Rooted name) (ns : String) :
    (∀ found, g.resolveIn? name ns = found ↔ DenotesIn g name ns found) ∧
      ∀ scope, Encloses scope ns.toList → g.Declares (qualified scope name) →
        ∃ inner d, Encloses inner ns.toList ∧ scope.length ≤ inner.length ∧
          d.fullName = qualified inner name ∧ g.resolveIn? name ns = some d := by
  have hiff (found : Option Declaration) :
      g.resolveIn? name ns = found ↔ DenotesIn g name ns found :=
    (denotesIn_iff hroots hname ns found).symm
  refine ⟨hiff, fun scope henc hdeclares => ?_⟩
  generalize hfound : g.resolveIn? name ns = found
  cases (hiff found).1 hfound with
  | @inScope inner d hencloses hinner hfirst =>
    refine ⟨inner, d, hencloses, Nat.le_of_not_lt fun hlonger => ?_, hfirst.holds, rfl⟩
    exact hinner scope henc hlonger hdeclares
  | byItself hscopes => exact absurd hdeclares (hscopes scope henc)

/-- The namesakes with another base block around them. -/
def shelved : Graph where
  types := namesakes ++ [
    ⟨"Teaser", "Site", .classType, false, none, [], [], []⟩,
    ⟨"BaseBlock", "Blocks", .classType, false, none, [], [], []⟩]

theorem resolveIn?_iff_denotesIn_shelved :
    (∀ d ∈ shelved.types, ¬Rooted d.fullName) ∧ ¬Rooted "Blocks.BaseBlock" ∧
      Encloses "Site".toList "Site.Blocks.Inner".toList ∧
      shelved.Declares (qualified "Site".toList "Blocks.BaseBlock") ∧
      shelved.resolveIn? "Blocks.BaseBlock" "Site.Blocks.Inner" = shelved.types[1]? ∧
      shelved.resolveIn? "Blocks.BaseBlock" "Vendors" = shelved.types[5]? ∧
      ∃ inner d, Encloses inner "Site.Blocks.Inner".toList ∧ "Site".toList.length ≤ inner.length ∧
        d.fullName = qualified inner "Blocks.BaseBlock" ∧
        shelved.resolveIn? "Blocks.BaseBlock" "Site.Blocks.Inner" = some d := by
  have hroots : ∀ d ∈ shelved.types, ¬Rooted d.fullName := by decide
  have hname : ¬Rooted "Blocks.BaseBlock" := by decide
  have henc : Encloses "Site".toList "Site.Blocks.Inner".toList := by decide
  have hdeclares : shelved.Declares (qualified "Site".toList "Blocks.BaseBlock") := by decide
  have hinner : ∀ inner ∈ "Site.Blocks.Inner".toList.inits,
      Encloses inner "Site.Blocks.Inner".toList → "Site".toList.length < inner.length →
      ¬shelved.Declares (qualified inner "Blocks.BaseBlock") := by decide
  have hscopes : ∀ scope ∈ "Vendors".toList.inits, Encloses scope "Vendors".toList →
      ¬shelved.Declares (qualified scope "Blocks.BaseBlock") := by decide
  have hscoped : DenotesIn shelved "Blocks.BaseBlock" "Site.Blocks.Inner" shelved.types[1]? :=
    .inScope henc (fun inner h hlonger => hinner inner ((List.mem_inits ..).2 h.isPrefix) h hlonger)
      ⟨[_], _, rfl, by decide, by decide⟩
  have hitself : DenotesIn shelved "Blocks.BaseBlock" "Vendors" shelved.types[5]? := by
    rw [show shelved.types[5]? = shelved.resolve? "Blocks.BaseBlock" from
      (resolve?_of_find? hname rfl).symm]
    exact .byItself fun scope h => hscopes scope ((List.mem_inits ..).2 h.isPrefix) h
  obtain ⟨hsite, hover⟩ := resolveIn?_iff_denotesIn shelved hroots _ hname "Site.Blocks.Inner"
  obtain ⟨hvendors, -⟩ := resolveIn?_iff_denotesIn shelved hroots _ hname "Vendors"
  exact ⟨hroots, hname, henc, hdeclares, (hsite _).2 hscoped, (hvendors _).2 hitself,
    hover _ henc hdeclares⟩

end ContentLoom.Graph

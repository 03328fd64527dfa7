import ContentLoom.Graph.Hierarchy
import ContentLoom.Proofs.Loops
import Mathlib.Data.Set.Card
import Mathlib.Logic.Relation

/-!
# Searches for an interface

A name that denotes a declaration leads to the names of its base and of its
interfaces, and these lead on.  A search finds an interface only under a name
that can be reached so.  It looks at 64 names at most; where no more can be
reached, it finds the interface whenever one of them offers it.  No search runs
on for ever, whatever comes back to itself.
-/

namespace ContentLoom.Graph

/-! ### What a name leads to -/

/-- The name denotes a declaration that uses a type of the other name. -/
inductive Leads (g : Graph) (name : String) : String → Prop
  | base {d t} (denoted : g.resolve? name = some d) (written : d.base = some t) :
    Leads g name (g.onward d t)
  | interface {d t} (denoted : g.resolve? name = some d) (written : t ∈ d.interfaces) :
    Leads g name (g.onward d t)

/-- The names that a name leads to in any number of steps, among them the name itself. -/
def reachable (g : Graph) (name : String) : Set String :=
  {other | Relation.ReflTransGen g.Leads name other}

/-- The names that a name leads to, in the order in which they are searched. -/
def leadsTo (g : Graph) (name : String) : List String :=
  ((g.resolve? name).map g.successors).getD []

theorem mem_leadsTo_iff {g : Graph} {name other : String} :
    other ∈ g.leadsTo name ↔ g.Leads name other := by
  unfold leadsTo
  constructor
  · intro h
    cases hd : g.resolve? name with
    | none => simp [hd] at h
    | some d =>
      rw [hd, Option.map_some, Option.getD_some, successors, List.mem_append] at h
      rcases h with h | h
      · obtain ⟨t, ht, rfl⟩ := Option.map_eq_some_iff.1 (Option.mem_toList.1 h)
        exact .base hd ht
      · obtain ⟨t, ht, rfl⟩ := List.mem_map.1 (List.mem_reverse.1 h)
        exact .interface hd ht
  · intro h
    cases h with
    | base denoted written => simp [denoted, successors, written]
    | interface denoted written =>
      simp only [denoted, Option.map_some, Option.getD_some, successors]
      exact List.mem_append_right _ (List.mem_reverse.2 (List.mem_map_of_mem written))

/-- Names that lead only to each other hold all that one of them leads to. -/
theorem reachable_subset {g : Graph} {name : String} {names : Set String} (hname : name ∈ names)
    (hclosed : ∀ n ∈ names, ∀ m ∈ g.leadsTo n, m ∈ names) : g.reachable name ⊆ names := by
  intro other hother
  induction hother with
  | refl => exact hname
  | tail _ hleads ih => exact hclosed _ ih _ (mem_leadsTo_iff.2 hleads)

theorem encard_reachable_le {g : Graph} {name : String} {names : List String}
    (hname : name ∈ names) (hclosed : ∀ n ∈ names, ∀ m ∈ g.leadsTo n, m ∈ names) :
    (g.reachable name).encard ≤ names.length := by
  have hsubset : g.reachable name ⊆ (names.toFinset : Set String) := by
    rw [List.coe_toFinset]
    exact reachable_subset hname hclosed
  have hcard : (names.toFinset : Set String).encard ≤ names.length := by
    rw [Set.encard_coe_eq_coe_finsetCard, Nat.cast_le]
    exact names.toFinset_card_le
  exact (Set.encard_le_encard hsubset).trans hcard

theorem reachable_closed {g : Graph} {name n m : String} (hn : n ∈ g.reachable name)
    (hm : m ∈ g.leadsTo n) : m ∈ g.reachable name :=
  Relation.ReflTransGen.tail hn (mem_leadsTo_iff.1 hm)

theorem mem_reachable_self (g : Graph) (name : String) : name ∈ g.reachable name :=
  Relation.ReflTransGen.refl

/-! ### Where an interface is found -/

/-- The name is that of a type of the framework with the interface, or denotes a declaration that
lists the interface. -/
inductive Offers (g : Graph) (interface name : String) : Prop
  | known {interfaces} (entry : (TypeRef.simpleOf name, interfaces) ∈ frameworkTypes)
    (has : interface ∈ interfaces)
  | listed {d t} (denoted : g.resolve? name = some d) (written : t ∈ d.interfaces)
    (simple : t.simpleName = interface)

/-- The interface as it is found under a name. -/
def offer? (g : Graph) (interface name : String) : Option TypeRef :=
  if frameworkHas (TypeRef.simpleOf name) interface then some (.named interface)
  else (g.resolve? name).bind fun d => d.interfaces.find? (·.simpleName == interface)

theorem frameworkHas_iff (simple interface : String) :
    frameworkHas simple interface = true ↔
      ∃ interfaces, (simple, interfaces) ∈ frameworkTypes ∧ interface ∈ interfaces := by
  have hdistinct : (frameworkTypes.map Prod.fst).Nodup := by decide
  unfold frameworkHas
  constructor
  · intro h
    cases hfound : frameworkTypes.lookup simple with
    | none => simp [hfound] at h
    | some interfaces =>
      obtain ⟨front, back, hsplit, -⟩ := List.lookup_eq_some_iff.1 hfound
      refine ⟨interfaces, ?_, by simpa [hfound] using h⟩
      rw [hsplit]
      exact List.mem_append_right _ (List.mem_cons_self ..)
  · rintro ⟨interfaces, hentry, hmem⟩
    obtain ⟨front, back, hsplit⟩ := List.append_of_mem hentry
    have hfound : frameworkTypes.lookup simple = some interfaces := by
      refine List.lookup_eq_some_iff.2 ⟨front, back, hsplit, fun p hp => ?_⟩
      rw [hsplit, List.map_append, List.nodup_append] at hdistinct
      have hne := hdistinct.2.2 p.1 (List.mem_map_of_mem hp) simple (List.mem_cons_self ..)
      simpa using Ne.symm hne
    simpa [hfound] using hmem

theorem isSome_offer?_iff {g : Graph} {interface name : String} :
    (g.offer? interface name).isSome = true ↔ g.Offers interface name := by
  unfold offer?
  constructor
  · intro h
    split at h
    · rename_i hknown
      obtain ⟨interfaces, hentry, hhas⟩ := (frameworkHas_iff ..).1 hknown
      exact .known hentry hhas
    · obtain ⟨t, ht⟩ := Option.isSome_iff_exists.1 h
      obtain ⟨d, hd, hfound⟩ := Option.bind_eq_some_iff.1 ht
      exact .listed hd (List.mem_of_find?_eq_some hfound) (by simpa using List.find?_some hfound)
  · intro h
    split
    · rfl
    · rename_i hunknown
      cases h with
      | known entry has => exact absurd ((frameworkHas_iff ..).2 ⟨_, entry, has⟩) hunknown
      | listed denoted written simple =>
        rw [denoted, Option.bind_some, List.find?_isSome]
        exact ⟨_, written, beq_iff_eq.2 simple⟩

/-! ### The search -/

/-- The search of the pending names, with room for so many more visited names, has this result. -/
inductive Searches (g : Graph) (interface : String) :
    Nat → List String → List String → Option TypeRef → Prop
  | full {visited pending} : Searches g interface 0 visited pending none
  | done {room visited} : Searches g interface (room + 1) visited [] none
  | skip {room visited name pending r} (hseen : name ∈ visited)
    (rest : Searches g interface (room + 1) visited pending r) :
    Searches g interface (room + 1) visited (name :: pending) r
  | found {room visited name pending t} (hnew : name ∉ visited)
    (hoffer : g.offer? interface name = some t) :
    Searches g interface (room + 1) visited (name :: pending) (some t)
  | visit {room visited name pending r} (hnew : name ∉ visited)
    (hbare : g.offer? interface name = none)
    (rest : Searches g interface room (name :: visited) (g.leadsTo name ++ pending) r) :
    Searches g interface (room + 1) visited (name :: pending) r

theorem searches_searchInterface (g : Graph) (interface : String) (room : Nat)
    (visited pending : List String) :
    g.Searches interface room visited pending
      (g.searchInterface interface room visited pending) := by
  fun_induction searchInterface g interface room visited pending with
  | case1 => exact .full
  | case2 => exact .done
  | case3 room visited name pending hseen ih => exact .skip (by simpa using hseen) ih
  | case4 room visited name pending hnew hknown =>
    exact .found (by simpa using hnew) (by rw [offer?, if_pos hknown])
  | case5 room visited name pending hnew hunknown hnone ih =>
    have hleads : g.leadsTo name = [] := by rw [leadsTo, hnone]; rfl
    refine .visit (by simpa using hnew) (by rw [offer?, if_neg hunknown, hnone]; rfl) ?_
    rwa [hleads]
  | case6 room visited name pending hnew hunknown d hsome written hwritten =>
    refine .found (by simpa using hnew) ?_
    rw [offer?, if_neg hunknown, hsome, Option.bind_some, hwritten]
  | case7 room visited name pending hnew hunknown d hsome hnone ih =>
    have hleads : g.leadsTo name = g.successors d := by rw [leadsTo, hsome]; rfl
    refine .visit (by simpa using hnew) ?_ (by rwa [hleads])
    rw [offer?, if_neg hunknown, hsome, Option.bind_some, hnone]

/-! ### The order of a search -/

/-- The names that a search comes to, in order, if nothing ends it before: each pending name that
was not visited, and at once what it leads to. -/
def visits (g : Graph) : Nat → List String → List String → List String
  | 0, _, _ => []
  | _ + 1, _, [] => []
  | room + 1, visited, name :: pending =>
    if name ∈ visited then visits g (room + 1) visited pending
    else name :: visits g room (name :: visited) (g.leadsTo name ++ pending)
termination_by room _ pending => (room, pending.length)

/-- The names that a search from a name comes to, whatever it looks for. -/
def searched (g : Graph) (name : String) : List String := g.visits hierarchyLimit [] [name]

/-- What is found is the offer of the first name in the order that has one. -/
theorem Searches.eq_findSome? {g : Graph} {interface : String} {room : Nat}
    {visited pending : List String} {r : Option TypeRef}
    (h : g.Searches interface room visited pending r) :
    r = (g.visits room visited pending).findSome? (g.offer? interface) := by
  induction h with
  | full => rw [visits, List.findSome?_nil]
  | done => rw [visits, List.findSome?_nil]
  | skip hseen rest ih => rw [visits, if_pos hseen, ih]
  | found hnew hoffer => rw [visits, if_neg hnew, List.findSome?_cons, hoffer]
  | visit hnew hbare rest ih => rw [visits, if_neg hnew, List.findSome?_cons, hbare, ih]

theorem findInterface?_eq_findSome? (g : Graph) (type interface : String) :
    g.findInterface? type interface = (g.searched type).findSome? (g.offer? interface) :=
  (searches_searchInterface g interface hierarchyLimit [] [type]).eq_findSome?

theorem visits_congr {g h : Graph} (hleads : h.leadsTo = g.leadsTo) (room : Nat)
    (visited pending : List String) :
    h.visits room visited pending = g.visits room visited pending := by
  fun_induction visits g room visited pending with
  | case1 => rw [visits]
  | case2 => rw [visits]
  | case3 room visited name pending hseen ih => rw [visits, if_pos hseen, ih]
  | case4 room visited name pending hnew ih => rw [visits, if_neg hnew, hleads, ih]

/-- Which names a search comes to is decided by what each name leads to. -/
theorem searched_congr {g h : Graph} (hleads : h.leadsTo = g.leadsTo) (name : String) :
    h.searched name = g.searched name :=
  visits_congr hleads ..

theorem nodup_visits (g : Graph) (room : Nat) (visited pending : List String) :
    (g.visits room visited pending).Nodup ∧
      ∀ n ∈ g.visits room visited pending, n ∉ visited := by
  fun_induction visits g room visited pending with
  | case1 => exact ⟨List.nodup_nil, nofun⟩
  | case2 => exact ⟨List.nodup_nil, nofun⟩
  | case3 room visited name pending hseen ih => exact ih
  | case4 room visited name pending hnew ih =>
    obtain ⟨hnodup, hfresh⟩ := ih
    refine ⟨List.nodup_cons.2 ⟨fun hmem => ?_, hnodup⟩, fun n hn => ?_⟩
    · exact hfresh name hmem (List.mem_cons_self ..)
    · rcases List.mem_cons.1 hn with rfl | hn
      · exact hnew
      · exact fun hseen => hfresh n hn (List.mem_cons_of_mem _ hseen)

theorem visits_subset {g : Graph} {names : Set String}
    (hclosed : ∀ n ∈ names, ∀ m ∈ g.leadsTo n, m ∈ names) (room : Nat)
    (visited pending : List String) (hpending : ∀ n ∈ pending, n ∈ names) :
    ∀ n ∈ g.visits room visited pending, n ∈ names := by
  fun_induction visits g room visited pending with
  | case1 => exact nofun
  | case2 => exact nofun
  | case3 room visited name pending hseen ih =>
    exact ih fun n hn => hpending n (List.mem_cons_of_mem _ hn)
  | case4 room visited name pending hnew ih =>
    have hname : name ∈ names := hpending name (List.mem_cons_self ..)
    intro n hn
    rcases List.mem_cons.1 hn with rfl | hn
    · exact hname
    · refine ih (fun m hm => ?_) n hn
      rcases List.mem_append.1 hm with hm | hm
      · exact hclosed name hname m hm
      · exact hpending m (List.mem_cons_of_mem _ hm)

/-- A search with room left has come to all pending names and to whatever its names lead to. -/
theorem visits_closed {g : Graph} {room : Nat} {visited pending : List String}
    (hroom : (g.visits room visited pending).length < room) :
    (∀ n ∈ pending, n ∈ visited ∨ n ∈ g.visits room visited pending) ∧
      ∀ n ∈ g.visits room visited pending, ∀ m ∈ g.leadsTo n,
        m ∈ visited ∨ m ∈ g.visits room visited pending := by
  fun_induction visits g room visited pending with
  | case1 => exact absurd hroom (Nat.lt_irrefl 0)
  | case2 => exact ⟨nofun, nofun⟩
  | case3 room visited name pending hseen ih =>
    obtain ⟨hpending, honward⟩ := ih hroom
    refine ⟨fun n hn => ?_, honward⟩
    rcases List.mem_cons.1 hn with rfl | hn
    · exact Or.inl hseen
    · exact hpending n hn
  | case4 room visited name pending hnew ih =>
    obtain ⟨hpending, honward⟩ := ih (Nat.lt_of_succ_lt_succ hroom)
    have hmove {n : String} (h : n ∈ name :: visited ∨
        n ∈ g.visits room (name :: visited) (g.leadsTo name ++ pending)) :
        n ∈ visited ∨
          n ∈ name :: g.visits room (name :: visited) (g.leadsTo name ++ pending) := by
      rw [List.mem_cons] at h ⊢
      rcases h with (rfl | hn) | hn
      · exact Or.inr (Or.inl rfl)
      · exact Or.inl hn
      · exact Or.inr (Or.inr hn)
    refine ⟨fun n hn => ?_, fun n hn m hm => ?_⟩
    · rcases List.mem_cons.1 hn with rfl | hn
      · exact Or.inr (List.mem_cons_self ..)
      · exact hmove (hpending n (List.mem_append_right _ hn))
    · rcases List.mem_cons.1 hn with rfl | hn
      · exact hmove (hpending m (List.mem_append_left _ hm))
      · exact hmove (honward n hn m hm)

theorem nodup_searched (g : Graph) (name : String) : (g.searched name).Nodup :=
  (nodup_visits g hierarchyLimit [] [name]).1

theorem searched_subset {g : Graph} {name n : String} (hn : n ∈ g.searched name) :
    n ∈ g.reachable name := by
  refine visits_subset (fun n hn m hm => reachable_closed hn hm) _ _ _ (fun m hm => ?_) n hn
  rw [List.mem_singleton.1 hm]
  exact g.mem_reachable_self name

/-- Where no more names can be reached than a search has room for, it comes to each of them. -/
theorem mem_searched_iff {g : Graph} {name : String}
    (hfits : (g.reachable name).encard ≤ hierarchyLimit) (n : String) :
    n ∈ g.searched name ↔ n ∈ g.reachable name := by
  refine ⟨searched_subset, fun hn => ?_⟩
  rcases Nat.lt_or_ge (g.searched name).length hierarchyLimit with hroom | hfull
  · obtain ⟨hpending, honward⟩ := visits_closed hroom
    have hself : name ∈ g.searched name :=
      (hpending name (List.mem_singleton.2 rfl)).resolve_left List.not_mem_nil
    have hall : g.reachable name ⊆ {m | m ∈ g.searched name} :=
      reachable_subset hself fun m hm k hk =>
        (honward m hm k hk).resolve_left List.not_mem_nil
    exact hall hn
  · have hsubset : ((g.searched name).toFinset : Set String) ⊆ g.reachable name := by
      intro m hm
      exact searched_subset (List.mem_toFinset.1 hm)
    have hcard : (g.reachable name).encard ≤ ((g.searched name).toFinset : Set String).encard := by
      rw [Set.encard_coe_eq_coe_finsetCard, List.toFinset_card_of_nodup (g.nodup_searched name)]
      exact hfits.trans (Nat.cast_le.2 hfull)
    have hall := (Set.toFinite _).eq_of_subset_of_encard_le hsubset hcard
    rw [← hall] at hn
    exact List.mem_toFinset.1 hn

/-! ### The search turn by turn -/

/-- Where a search stands: the names it still has to look at, the next one first, and those that it
has visited. -/
structure Search where
  pending : List String
  visited : List String

namespace Search

/-- A search before its first turn. -/
def start (type : String) : Search := ⟨[type], []⟩

/-- One turn takes a name off the pending ones.  It is passed over where it was visited, or where
the bound is reached; the names left then are still taken off one by one. -/
def turn (g : Graph) (interface : String) (s : Search) : Search ⊕ Option TypeRef :=
  match s.pending with
  | [] => .inr none
  | name :: pending =>
    if hierarchyLimit ≤ s.visited.length ∨ name ∈ s.visited then .inl ⟨pending, s.visited⟩
    else
      match g.offer? interface name with
      | some found => .inr (some found)
      | none => .inl ⟨g.leadsTo name ++ pending, name :: s.visited⟩

end Search

theorem ends_full (g : Graph) (interface : String) {visited : List String} (pending : List String)
    (hfull : hierarchyLimit ≤ visited.length) :
    Loop.Ends (Search.turn g interface) ⟨pending, visited⟩ (pending.length + 1) none := by
  induction pending with
  | nil => exact .stop rfl
  | cons name pending ih => exact .go (if_pos (Or.inl hfull)) ih

theorem Searches.ends {g : Graph} {interface : String} {room : Nat}
    {visited pending : List String} {r : Option TypeRef}
    (h : g.Searches interface room visited pending r)
    (hroom : visited.length + room = hierarchyLimit) :
    ∃ turns, Loop.Ends (Search.turn g interface) ⟨pending, visited⟩ turns r := by
  have hopen {visited : List String} {room : Nat}
      (hroom : visited.length + (room + 1) = hierarchyLimit) {name : String}
      (hnew : name ∉ visited) : ¬(hierarchyLimit ≤ visited.length ∨ name ∈ visited) := by
    rintro (hfull | hseen)
    · omega
    · exact hnew hseen
  induction h with
  | full => exact ⟨_, ends_full g interface _ (by omega)⟩
  | done => exact ⟨1, .stop rfl⟩
  | skip hseen rest ih =>
    obtain ⟨turns, hends⟩ := ih hroom
    exact ⟨turns + 1, .go (if_pos (Or.inr hseen)) hends⟩
  | found hnew hoffer =>
    refine ⟨1, .stop ?_⟩
    simp only [Search.turn, if_neg (hopen hroom hnew), hoffer]
  | visit hnew hbare rest ih =>
    obtain ⟨turns, hends⟩ := ih (by rw [List.length_cons]; omega)
    refine ⟨turns + 1, .go ?_ hends⟩
    simp only [Search.turn, if_neg (hopen hroom hnew), hbare]

/-! ### What a search tells -/

theorem implements_iff_searched {g : Graph} {type interface : String} :
    g.implements type interface = true ↔ ∃ name ∈ g.searched type, g.Offers interface name := by
  simp only [implements, findInterface?_eq_findSome?, List.findSome?_isSome_iff,
    isSome_offer?_iff]

theorem exists_offers_of_implements {g : Graph} {type interface : String}
    (h : g.implements type interface = true) :
    ∃ name ∈ g.reachable type, g.Offers interface name := by
  obtain ⟨name, hname, hoffers⟩ := implements_iff_searched.1 h
  exact ⟨name, searched_subset hname, hoffers⟩

theorem implements_of_offers {g : Graph} {type interface name : String}
    (hfits : (g.reachable type).encard ≤ hierarchyLimit) (hname : name ∈ g.reachable type)
    (hoffers : g.Offers interface name) : g.implements type interface = true :=
  implements_iff_searched.2 ⟨name, (mem_searched_iff hfits name).2 hname, hoffers⟩

/-- A type has an interface only if a name that can be reached from it offers the interface, and
this is enough where at most 64 names can be reached.  The search ends for every graph. -/
theorem implements_reachable (g : Graph) (type interface : String) :
    (g.implements type interface = true →
        ∃ name ∈ g.reachable type, g.Offers interface name) ∧
      ((g.reachable type).encard ≤ hierarchyLimit →
        (∃ name ∈ g.reachable type, g.Offers interface name) →
        g.implements type interface = true) ∧
      ∃ turns, ∀ n r, Loop.Ends (Search.turn g interface) (.start type) n r ↔
        n = turns ∧ r = g.findInterface? type interface := by
  refine ⟨exists_offers_of_implements, fun hfits hoffers => ?_, ?_⟩
  · obtain ⟨name, hname, hoffers⟩ := hoffers
    exact implements_of_offers hfits hname hoffers
  · obtain ⟨turns, hends⟩ :=
      (searches_searchInterface g interface hierarchyLimit [] [type]).ends (Nat.zero_add _)
    exact ⟨turns, hends.iff⟩

/-- A page and its base that are each the base of the other, and an interface that lists itself. -/
def looped : Graph where
  types := [
    ⟨"Page", "Site", .classType, false, some (.named "Base"), [.named "IShown"], [], []⟩,
    ⟨"Base", "Site", .classType, false, some (.named "Site.Page"), [], [], []⟩,
    ⟨"IShown", "Site", .interfaceType, false, none, [.named "IShown", .named "Web.IListed"],
      [], []⟩]

theorem implements_reachable_looped :
    (looped.reachable "Site.Base").encard ≤ hierarchyLimit ∧
      looped.implements "Site.Base" "IListed" = true ∧
      looped.implements "Site.Base" "IContent" = false ∧
      ∃ turns, Loop.Ends (Search.turn looped "IContent") (.start "Site.Base") turns none := by
  have hclosed : ∀ n ∈ ["Site.Base", "Site.Page", "Site.IShown", "Web.IListed"],
      ∀ m ∈ looped.leadsTo n, m ∈ ["Site.Base", "Site.Page", "Site.IShown", "Web.IListed"] := by
    decide +kernel
  have hbare : ∀ n ∈ ["Site.Base", "Site.Page", "Site.IShown", "Web.IListed"],
      (looped.offer? "IContent" n).isSome = false := by
    decide +kernel
  have hfits : (looped.reachable "Site.Base").encard ≤ hierarchyLimit :=
    (encard_reachable_le (List.mem_cons_self ..) hclosed).trans (by decide)
  have hshown : "Site.IShown" ∈ looped.reachable "Site.Base" :=
    reachable_closed (reachable_closed (mem_reachable_self ..) (m := "Site.Page")
      (by decide +kernel)) (by decide +kernel)
  have hlists : looped.Offers "IListed" "Site.IShown" :=
    isSome_offer?_iff.1 (by decide +kernel)
  obtain ⟨-, hfound, -⟩ := implements_reachable looped "Site.Base" "IListed"
  obtain ⟨hsound, -, turns, hends⟩ := implements_reachable looped "Site.Base" "IContent"
  have hnot : looped.implements "Site.Base" "IContent" = false := by
    rw [Bool.eq_false_iff]
    intro htrue
    obtain ⟨name, hname, hoffers⟩ := hsound htrue
    have hnone := hbare name (reachable_subset (List.mem_cons_self ..) hclosed hname)
    rw [isSome_offer?_iff.2 hoffers] at hnone
    cases hnone
  have hnothing : looped.findInterface? "Site.Base" "IContent" = none := by
    simpa [implements] using hnot
  exact ⟨hfits, hfound hfits ⟨_, hshown, hlists⟩, hnot, turns,
    (hends turns none).2 ⟨rfl, hnothing.symm⟩⟩

end ContentLoom.Graph

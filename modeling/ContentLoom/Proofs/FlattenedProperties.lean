import ContentLoom.Proofs.ClassRoster
import ContentLoom.Proofs.ClassifiedProperties
import Mathlib.Data.List.Induction

/-!
# Properties of a whole chain

The properties of a class come from all types on its chain that are not of the
framework, from the root on.  A name that is declared more than once keeps its
first place and its last declaration, and this one decides whether the name is
ignored, how it is mapped, and in which type it is looked at.
-/

namespace ContentLoom.Resolution

/-! ### First places and last declarations -/

/-- The declared properties along the chain of a type, from the root on. -/
def declaredProperties (g : Graph) (d : Declaration) : List Owned :=
  ((g.baseChain d).rootFirst.filter fun e => !e.isFramework).flatMap fun e =>
    e.properties.map fun p => ⟨e.fullName, p⟩

/-- The names of some properties, each once, in the order of their first places. -/
def firstNames (os : List Owned) : List String := (os.map (·.property.name)).eraseDups

/-- The last declaration of a name. -/
def lastOf? (os : List Owned) (name : String) : Option Owned :=
  os.reverse.find? (·.property.name == name)

/-- Every name with its last declaration, at its first place. -/
def settled (os : List Owned) : List Owned := (firstNames os).filterMap (lastOf? os)

/-- The settled declarations that no marker leaves out. -/
def kept (os : List Owned) : List Owned :=
  (settled os).filter fun o => ¬Markers.Among o.property.attributes .ignore

theorem name_of_lastOf? {os : List Owned} {name : String} {o : Owned}
    (h : lastOf? os name = some o) : o.property.name = name := by
  simpa using List.find?_some h

theorem isSome_lastOf?_iff (os : List Owned) (name : String) :
    (lastOf? os name).isSome = true ↔ name ∈ os.map (·.property.name) := by
  simp [lastOf?, List.mem_map]

theorem mem_firstNames_iff (os : List Owned) (name : String) :
    name ∈ firstNames os ↔ (lastOf? os name).isSome = true := by
  rw [isSome_lastOf?_iff, firstNames, List.mem_eraseDups]

theorem firstNames_snoc (os : List Owned) (o : Owned) :
    firstNames (os ++ [o]) =
      if o.property.name ∈ os.map (·.property.name) then firstNames os
      else firstNames os ++ [o.property.name] := by
  rw [firstNames, List.map_append, List.eraseDups_append, List.map_singleton]
  split
  · next hknown => simp [firstNames, List.removeAll, -List.mem_map, hknown]
  · next hnew => simp [firstNames, List.removeAll, -List.mem_map, hnew, List.eraseDups_cons]

theorem lastOf?_snoc (os : List Owned) (o : Owned) (name : String) :
    lastOf? (os ++ [o]) name = if o.property.name = name then some o else lastOf? os name := by
  rw [lastOf?, List.reverse_append, List.reverse_singleton, List.singleton_append]
  by_cases hname : o.property.name = name
  · rw [List.find?_cons_of_pos (by simpa using hname), if_pos hname]
  · rw [List.find?_cons_of_neg (by simpa using hname), if_neg hname, lastOf?]

theorem names_filter_settled (os : List Owned) (p : Owned → Bool) :
    ((settled os).filter p).map (·.property.name) =
      (firstNames os).filter fun name => (lastOf? os name).any p := by
  have hall (names : List String) (h : ∀ n ∈ names, (lastOf? os n).isSome = true) :
      ((names.filterMap (lastOf? os)).filter p).map (·.property.name) =
        names.filter fun name => (lastOf? os name).any p := by
    induction names with
    | nil => rfl
    | cons n names ih =>
      obtain ⟨o, ho⟩ := Option.isSome_iff_exists.1 (h n (List.mem_cons_self ..))
      have hrest := ih fun m hm => h m (List.mem_cons_of_mem _ hm)
      rw [List.filterMap_cons_some ho, List.filter_cons, List.filter_cons, ho, Option.any_some,
        ← hrest]
      split
      · rw [List.map_cons, name_of_lastOf? ho]
      · rfl
  exact hall _ fun n hn => (mem_firstNames_iff os n).1 hn

theorem mem_settled_iff (os : List Owned) (o : Owned) :
    o ∈ settled os ↔ lastOf? os o.property.name = some o := by
  rw [settled, List.mem_filterMap]
  constructor
  · rintro ⟨name, -, h⟩
    rwa [name_of_lastOf? h]
  · intro h
    exact ⟨_, (mem_firstNames_iff ..).2 (Option.isSome_iff_exists.2 ⟨o, h⟩), h⟩

/-! ### One more declaration at a time -/

theorem names_addOwned (os : List Owned) (o : Owned) :
    (addOwned os o).map (·.property.name) =
      if o.property.name ∈ os.map (·.property.name) then os.map (·.property.name)
      else os.map (·.property.name) ++ [o.property.name] := by
  induction os with
  | nil => rfl
  | cons first rest ih =>
    rw [addOwned]
    by_cases hfirst : first.property.name = o.property.name
    · simp [hfirst]
    · rw [if_neg hfirst, List.map_cons, ih]
      by_cases hrest : o.property.name ∈ rest.map (·.property.name)
      · rw [if_pos hrest, List.map_cons, if_pos (List.mem_cons_of_mem _ hrest)]
      · have hnew : o.property.name ∉ (first :: rest).map (·.property.name) := by
          rw [List.map_cons, List.mem_cons, not_or]
          exact ⟨Ne.symm hfirst, hrest⟩
        rw [if_neg hrest, if_neg hnew]
        rfl

theorem nodup_foldl_addOwned (os seen : List Owned)
    (h : (seen.map (·.property.name)).Nodup) :
    ((os.foldl addOwned seen).map (·.property.name)).Nodup := by
  induction os generalizing seen with
  | nil => exact h
  | cons o os ih =>
    refine ih (addOwned seen o) ?_
    rw [names_addOwned]
    split
    · exact h
    · rename_i hnew
      rw [← List.concat_eq_append, List.nodup_concat]
      exact ⟨hnew, h⟩

theorem find?_addOwned (os : List Owned) (o : Owned) (name : String) :
    (addOwned os o).find? (·.property.name == name) =
      if o.property.name = name then some o else os.find? (·.property.name == name) := by
  induction os with
  | nil =>
    by_cases hname : o.property.name = name
    · simp [addOwned, hname]
    · simp [addOwned, hname]
  | cons first rest ih =>
    rw [addOwned]
    by_cases hfirst : first.property.name = o.property.name
    · by_cases hname : o.property.name = name
      · simp [hfirst, hname]
      · simp [hfirst, hname]
    · rw [if_neg hfirst, List.find?_cons, List.find?_cons, ih]
      by_cases hname : o.property.name = name
      · have hother : (first.property.name == name) = false := by
          rw [beq_eq_false_iff_ne, ← hname]
          exact hfirst
        rw [hother, if_pos hname]
      · rw [if_neg hname, if_neg hname]

theorem names_foldl_addOwned (os : List Owned) :
    (os.foldl addOwned []).map (·.property.name) = firstNames os := by
  induction os using List.reverseRecOn with
  | nil => rfl
  | append_singleton os o ih =>
    rw [List.foldl_append, List.foldl_cons, List.foldl_nil, names_addOwned, ih, firstNames_snoc]
    simp only [mem_firstNames_iff, isSome_lastOf?_iff]

theorem find?_foldl_addOwned (os : List Owned) (name : String) :
    (os.foldl addOwned []).find? (·.property.name == name) = lastOf? os name := by
  induction os using List.reverseRecOn with
  | nil => rfl
  | append_singleton os o ih =>
    rw [List.foldl_append, List.foldl_cons, List.foldl_nil, find?_addOwned, ih, lastOf?_snoc]

/-- Properties with different names are known by their names and what each of them finds. -/
theorem filterMap_find?_names {os : List Owned} (h : (os.map (·.property.name)).Nodup) :
    ((os.map (·.property.name)).filterMap fun n => os.find? (·.property.name == n)) = os := by
  induction os with
  | nil => rfl
  | cons o os ih =>
    obtain ⟨hnew, hrest⟩ := List.nodup_cons.1 h
    have hothers : (os.map (·.property.name)).filterMap
        (fun n => (o :: os).find? (·.property.name == n)) = os := by
      refine (List.filterMap_congr fun n hn => ?_).trans (ih hrest)
      have hne : o.property.name ≠ n := by
        rintro rfl
        exact hnew hn
      exact List.find?_cons_of_neg (by simpa using hne)
    have hself : (o :: os).find? (·.property.name == o.property.name) = some o :=
      List.find?_cons_of_pos (beq_self_eq_true _)
    rw [List.map_cons, List.filterMap_cons]
    simp only [hself, hothers]

/-- Replacing in place gives every name its last declaration at its first place. -/
theorem foldl_addOwned_eq_settled (os : List Owned) : os.foldl addOwned [] = settled os := by
  have hnodup := nodup_foldl_addOwned os [] List.nodup_nil
  rw [← filterMap_find?_names hnodup, names_foldl_addOwned, settled]
  exact List.filterMap_congr fun n _ => find?_foldl_addOwned os n

theorem ownedProperties_eq_settled (g : Graph) (d : Declaration) :
    ownedProperties g d = settled (declaredProperties g d) :=
  foldl_addOwned_eq_settled (declaredProperties g d)

/-! ### Properties of a class -/

theorem names_classified (g : Graph) (os : List Owned) :
    ((os.filterMap fun o => (Classifier.classify g o.owner o.property).1).map (·.name)).Sublist
      (os.map (·.property.name)) := by
  induction os with
  | nil => exact List.Sublist.refl _
  | cons o os ih =>
    rw [List.filterMap_cons]
    cases hmapped : (Classifier.classify g o.owner o.property).1 with
    | none => exact ih.cons _
    | some mapped =>
      rw [List.map_cons, List.map_cons, Classifier.name_classify hmapped]
      exact ih.cons_cons _

theorem exists_origin?_of_mem {g : Graph} {c : ContentClass} (hc : c ∈ declaredClasses g) :
    ∃ d ∈ g.types, ∃ r, origin? g d = some r ∧ r.contentClass = c := by
  have hmem : c ∈ classesOf g g.types := (sortClasses_perm _).mem_iff.1 hc
  obtain ⟨r, hr, hclass⟩ := List.mem_map.1 hmem
  obtain ⟨d, hd, horigin⟩ := List.mem_filterMap.1 hr
  exact ⟨d, hd, r, horigin, hclass⟩

theorem properties_of_origin? {g : Graph} {d : Declaration} {r : Resolved}
    (hr : origin? g d = some r) : r.contentClass.properties =
      (ownedProperties g d).filterMap fun o => (Classifier.classify g o.owner o.property).1 := by
  obtain ⟨markers, -, rfl⟩ := Option.map_eq_some_iff.1 hr
  rfl

theorem nodup_propertyNames {g : Graph} {c : ContentClass} (hc : c ∈ declaredClasses g) :
    (c.properties.map (·.name)).Nodup := by
  obtain ⟨d, -, r, hr, rfl⟩ := exists_origin?_of_mem hc
  rw [properties_of_origin? hr]
  exact (nodup_foldl_addOwned _ [] List.nodup_nil).sublist (names_classified g _)

theorem declaredClasses_of_run {g : Graph} {w v : Watch} {classes : List ContentClass}
    (h : (resolveAll g).run.run w = (.ok classes, v)) : classes = declaredClasses g :=
  (resolveAll_performs g).eq_of_ok h

theorem forall₂_classify (g : Graph) (os : List Owned) :
    List.Forall₂ (fun o p => (Classifier.classify g o.owner o.property).1 = some p)
      (os.filter fun o => ¬Markers.Among o.property.attributes .ignore)
      (os.filterMap fun o => (Classifier.classify g o.owner o.property).1) := by
  induction os with
  | nil => exact .nil
  | cons o os ih =>
    have hignored := (Classifier.classified_classify g o.owner o.property).eq_none_iff
    cases hmapped : (Classifier.classify g o.owner o.property).1 with
    | none =>
      have hleft : Markers.Among o.property.attributes .ignore := hignored.1 hmapped
      simp only [List.filterMap_cons, hmapped]
      rw [List.filter_cons_of_neg (by simpa using hleft)]
      exact ih
    | some p =>
      have hkept : ¬Markers.Among o.property.attributes .ignore := by
        intro hleft
        rw [hignored.2 hleft] at hmapped
        cases hmapped
      simp only [List.filterMap_cons, hmapped]
      rw [List.filter_cons_of_pos (by simpa using hkept)]
      exact .cons hmapped ih

theorem names_of_forall₂_classify {g : Graph} {os : List Owned} {ps : List ContentProperty}
    (h : List.Forall₂ (fun o p => (Classifier.classify g o.owner o.property).1 = some p) os ps) :
    ps.map (·.name) = os.map (·.property.name) := by
  induction h with
  | nil => rfl
  | cons hmapped _ ih => rw [List.map_cons, List.map_cons, ih, Classifier.name_classify hmapped]

/-- The properties of a class are the declarations that its whole chain settles on, without those
that are ignored, each classified in the type that declares it.  So a name is left out where its
last declaration is ignored, and stands at its first place where only an earlier one is. -/
theorem properties_settled (g : Graph) (d : Declaration) (heligible : Eligible g d) :
    ∃ c, Alone g d (some c) ∧
      (∀ w r v, (resolve g d).run.run w = (.ok r, v) → r = some c) ∧
      List.Forall₂ (fun o p => (Classifier.classify g o.owner o.property).1 = some p)
        (kept (declaredProperties g d)) c.properties ∧
      c.properties.map (·.name) = (firstNames (declaredProperties g d)).filter fun name =>
        (lastOf? (declaredProperties g d) name).any fun o =>
          ¬Markers.Among o.property.attributes .ignore := by
  obtain ⟨r, hr⟩ := (eligible_iff_origin? g d).1 heligible
  have halone := alone_origin? g d
  have hperforms := resolve_performs g d
  rw [hr, Option.map_some] at halone hperforms
  have hclassified := forall₂_classify g (settled (declaredProperties g d))
  rw [← ownedProperties_eq_settled, ← properties_of_origin? hr, ownedProperties_eq_settled]
    at hclassified
  refine ⟨_, halone, fun w r v => hperforms.eq_of_ok, hclassified, ?_⟩
  rw [names_of_forall₂_classify hclassified, names_filter_settled]

/-- The marker of an ignored property. -/
def ignoring : Attribute := ⟨"ContentPipelineIgnore", [], [], [], []⟩

/-- A page on a type of the framework on a base.  The page ignores a body that the base declares
twice, and declares the title and the summary that the base or the framework ignores. -/
def layered : Graph where
  types := [
    ⟨"Base", "Site", .classType, true, none, [], [],
      [⟨"Title", .named "string", false, [ignoring]⟩, ⟨"Body", .named "string", false, []⟩,
        ⟨"Body", .named "XhtmlString", false, []⟩, ⟨"Banner", .named "Url", false, []⟩]⟩,
    ⟨"Framed", "episerver.Core", .classType, true, some (.named "Site.Base"), [], [],
      [⟨"Summary", .named "string", false, [ignoring]⟩, ⟨"Banner", .named "int", false, []⟩]⟩,
    ⟨"Page", "Site", .classType, false, some (.named "Framed"), [],
      [⟨"ContentType", [], [], [], []⟩, ⟨"ContentPipelineModel", [], [], [], []⟩],
      [⟨"Body", .named "string", false, [ignoring]⟩, ⟨"Summary", .named "string", true, []⟩,
        ⟨"Title", .named "XhtmlString", false, []⟩]⟩]

theorem properties_settled_layered :
    Eligible layered layered.types[2] ∧
      (kept (declaredProperties layered layered.types[2])).map
        (fun o => (o.owner, o.property.name)) =
          [("Site.Page", "Title"), ("Site.Base", "Banner"), ("Site.Page", "Summary")] ∧
      ∃ c, Alone layered layered.types[2] (some c) ∧
        c.properties.map (·.name) = ["Title", "Banner", "Summary"] := by
  have heligible : Eligible layered layered.types[2] :=
    ⟨rfl, rfl, by decide, 0, _, layered.onChain_zero _, by decide⟩
  have hkept : (kept (declaredProperties layered layered.types[2])).map
      (fun o => (o.owner, o.property.name)) =
        [("Site.Page", "Title"), ("Site.Base", "Banner"), ("Site.Page", "Summary")] := by
    decide +kernel
  obtain ⟨c, halone, -, hclassified, -⟩ := properties_settled layered _ heligible
  refine ⟨heligible, hkept, c, halone, ?_⟩
  have hnames := congrArg (List.map Prod.snd) hkept
  rw [List.map_map] at hnames
  exact (names_of_forall₂_classify hclassified).trans hnames

end ContentLoom.Resolution

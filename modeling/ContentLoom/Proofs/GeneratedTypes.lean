import ContentLoom.Generated.Serializers
import ContentLoom.Proofs.GroupNames
import ContentLoom.Resolution

/-!
# Names of generated types

Which classes have the same model, the same step, or the same tag.  The
identifier of a group has no dot, so models and steps meet exactly where groups
and names do; a tag is made of the group as it was written, so tags can also
meet where a dot belongs to the group of one class and to the name of another.
-/

namespace ContentLoom

namespace Generated

open Naming Resolution

/-! ### Dotted names -/

theorem append_dot_inj {a b : List Char} (s t : List Char) (ha : '.' ∉ a) (hb : '.' ∉ b) :
    a ++ '.' :: s = b ++ '.' :: t ↔ a = b ∧ s = t := by
  induction a generalizing b with
  | nil =>
    cases b with
    | nil => simp
    | cons d b =>
      have hd : '.' ≠ d := fun h => hb (h ▸ List.mem_cons_self ..)
      simp [hd]
  | cons c a ih =>
    have hc : c ≠ '.' := fun h => ha (h ▸ List.mem_cons_self ..)
    cases b with
    | nil => simp [hc]
    | cons d b =>
      have hrest := ih (fun h => ha (List.mem_cons_of_mem _ h))
        (fun h => hb (List.mem_cons_of_mem _ h))
      rw [List.cons_append, List.cons_append, List.cons.injEq, hrest, List.cons.injEq, and_assoc]

theorem dotted_inj {a b : String} (s t : String) (ha : '.' ∉ a.toList) (hb : '.' ∉ b.toList) :
    a ++ "." ++ s = b ++ "." ++ t ↔ a = b ∧ s = t := by
  have hchars := append_dot_inj s.toList t.toList ha hb
  simp only [String.toList_inj] at hchars
  rw [← hchars, ← String.toList_inj]
  simp [String.toList_append]

theorem dot_not_mem_groupName (c : ContentClass) : '.' ∉ (groupName c).toList := by
  rw [groupName, sanitize, String.toList_ofList]
  exact dot_not_mem_sanitizeChars c.group.toList

/-! ### Models and steps -/

theorem typeKey_eq_iff (a b : ContentClass) :
    typeKey a = typeKey b ↔ groupName a = groupName b ∧ a.name = b.name :=
  dotted_inj a.name b.name (dot_not_mem_groupName a) (dot_not_mem_groupName b)

theorem modelType_eq_iff (o : Options) (a b : ContentClass) :
    modelType o a = modelType o b ↔ typeKey a = typeKey b := by
  have hparts (c : ContentClass) : modelType o c =
      (o.sharedNamespace ++ ".Models.") ++ (groupName c ++ "." ++ c.modelName) := by
    simp [modelType, Options.modelsNamespace, String.append_assoc]
  rw [hparts a, hparts b, String.append_right_inj,
    dotted_inj _ _ (dot_not_mem_groupName a) (dot_not_mem_groupName b), ContentClass.modelName,
    ContentClass.modelName, String.append_left_inj, typeKey_eq_iff]

theorem stepType_eq_iff (o : Options) (a b : ContentClass) :
    stepType o a = stepType o b ↔ typeKey a = typeKey b := by
  have hparts (c : ContentClass) : stepType o c =
      (o.sharedNamespace ++ ".Pipelines.") ++ (groupName c ++ "." ++ ("Steps." ++ c.stepName)) := by
    rw [← String.toList_inj]
    simp [stepType, Options.stepsNamespace, String.toList_append]
  rw [hparts a, hparts b, String.append_right_inj,
    dotted_inj _ _ (dot_not_mem_groupName a) (dot_not_mem_groupName b), String.append_right_inj,
    ContentClass.stepName, ContentClass.stepName, String.append_left_inj, typeKey_eq_iff]

theorem duplicateTypes_eq_nil_iff (owners : List (String × String)) (classes : List ContentClass) :
    duplicateTypes owners classes = [] ↔
      (classes.map typeKey).Nodup ∧ ∀ c ∈ classes, owners.lookup (typeKey c) = none := by
  induction classes generalizing owners with
  | nil => simp [duplicateTypes]
  | cons c classes ih =>
    rw [duplicateTypes]
    cases hfirst : owners.lookup (typeKey c) with
    | some first =>
      have hknown : ¬∀ d ∈ c :: classes, owners.lookup (typeKey d) = none := by
        intro h
        rw [h c (List.mem_cons_self ..)] at hfirst
        exact Option.some_ne_none first hfirst.symm
      simp only [hknown, and_false, reduceCtorEq]
    | none =>
      have hlater (d : ContentClass) :
          ((typeKey c, c.fullName) :: owners).lookup (typeKey d) = none ↔
            typeKey d ≠ typeKey c ∧ owners.lookup (typeKey d) = none := by
        rw [List.lookup_cons]
        by_cases heq : typeKey d = typeKey c
        · simp [heq]
        · have hne : (typeKey d == typeKey c) = false := by simpa using heq
          simp [hne, heq]
      simp only [ih, hlater, List.map_cons, List.nodup_cons, List.mem_map, List.forall_mem_cons,
        hfirst, true_and, not_exists, not_and, forall_and]
      constructor
      · rintro ⟨hnodup, hne, hnone⟩
        exact ⟨⟨hne, hnodup⟩, hnone⟩
      · rintro ⟨⟨hne, hnodup⟩, hnone⟩
        exact ⟨hnodup, hne, hnone⟩

/-! ### Tags -/

theorem append_dot_eq_iff (g n h m : List Char) :
    g ++ '.' :: n = h ++ '.' :: m ↔
      (g = h ∧ n = m) ∨ (∃ cs, h = g ++ '.' :: cs ∧ n = cs ++ '.' :: m) ∨
        ∃ cs, g = h ++ '.' :: cs ∧ m = cs ++ '.' :: n := by
  constructor
  · intro heq
    rcases List.append_eq_append_iff.1 heq with ⟨front, hgroup, hname⟩ | ⟨front, hgroup, hname⟩
    · cases front with
      | nil =>
        have hnames : n = m := (List.cons.inj hname).2
        exact Or.inl ⟨by simpa using hgroup.symm, hnames⟩
      | cons c cs =>
        obtain ⟨rfl, hrest⟩ := List.cons.inj hname
        exact Or.inr (Or.inl ⟨cs, hgroup, hrest⟩)
    · cases front with
      | nil =>
        have hnames : m = n := (List.cons.inj hname).2
        exact Or.inl ⟨by simpa using hgroup, hnames.symm⟩
      | cons c cs =>
        obtain ⟨rfl, hrest⟩ := List.cons.inj hname
        exact Or.inr (Or.inr ⟨cs, hgroup, hrest⟩)
  · rintro (⟨rfl, rfl⟩ | ⟨cs, rfl, rfl⟩ | ⟨cs, rfl, rfl⟩)
    · rfl
    · simp
    · simp

/-- A dotted part that ends the group of `b` begins the name of `a` instead. -/
def Overlaps (a b : ContentClass) : Prop :=
  ∃ part, b.group = a.group ++ "." ++ part ∧ a.name = part ++ "." ++ b.name

theorem overlaps_iff (a b : ContentClass) :
    Overlaps a b ↔ ∃ cs, b.group.toList = a.group.toList ++ '.' :: cs ∧
      a.name.toList = cs ++ '.' :: b.name.toList := by
  constructor
  · rintro ⟨part, hgroup, hname⟩
    exact ⟨part.toList, by simp [hgroup, String.toList_append],
      by simp [hname, String.toList_append]⟩
  · rintro ⟨cs, hgroup, hname⟩
    refine ⟨String.ofList cs, String.toList_inj.1 ?_, String.toList_inj.1 ?_⟩
    · simp [hgroup, String.toList_append]
    · simp [hname, String.toList_append]

theorem discriminant_eq_iff (a b : ContentClass) :
    a.discriminant = b.discriminant ↔
      (a.group = b.group ∧ a.name = b.name) ∨ Overlaps a b ∨ Overlaps b a := by
  have hchars := append_dot_eq_iff a.group.toList a.name.toList b.group.toList b.name.toList
  rw [← overlaps_iff, ← overlaps_iff, String.toList_inj, String.toList_inj] at hchars
  rw [← hchars, ← String.toList_inj]
  simp [ContentClass.discriminant, String.toList_append]

theorem not_overlaps_self (c : ContentClass) : ¬Overlaps c c := by
  rintro ⟨part, -, hname⟩
  have hlength := congrArg (fun s => s.toList.length) hname
  simp only [String.toList_append, List.length_append] at hlength
  have hdot : ".".toList.length = 1 := by decide
  omega

theorem typeKey_eq_of_group_name {a b : ContentClass} (hgroup : a.group = b.group)
    (hname : a.name = b.name) : typeKey a = typeKey b := by
  unfold typeKey
  rw [hgroup, hname]

/-- Classes with models of their own have tags of their own, except those whose groups and names
overlap. -/
theorem nodup_discriminants_iff {classes : List ContentClass}
    (hkeys : (classes.map typeKey).Nodup) :
    (classes.map (·.discriminant)).Nodup ↔ ∀ a ∈ classes, ∀ b ∈ classes, ¬Overlaps a b := by
  constructor
  · intro hnodup a ha b hb hoverlap
    have htag : a.discriminant = b.discriminant :=
      (discriminant_eq_iff a b).2 (Or.inr (Or.inl hoverlap))
    have hsame : a = b := List.inj_on_of_nodup_map hnodup ha hb htag
    rw [hsame] at hoverlap
    exact not_overlaps_self b hoverlap
  · intro hapart
    have hclasses : classes.Nodup := hkeys.of_map typeKey
    apply hclasses.map_on
    intro a ha b hb htag
    rcases (discriminant_eq_iff a b).1 htag with ⟨hgroup, hname⟩ | hoverlap | hoverlap
    · exact List.inj_on_of_nodup_map hkeys ha hb (typeKey_eq_of_group_name hgroup hname)
    · exact absurd hoverlap (hapart a ha b hb)
    · exact absurd hoverlap (hapart b hb a ha)

/-! ### Cases of a switch -/

/-- The case of a class. -/
def caseOf (o : Options) (c : ContentClass) : Case := ⟨c.discriminant, modelType o c⟩

/-- The cases after one more class. -/
def addCase (o : Options) (found : List Case) (c : ContentClass) : List Case :=
  if found.any (·.tag == c.discriminant) then found else found ++ [caseOf o c]

theorem cases_eq_foldl (o : Options) (classes : List ContentClass) :
    cases o classes = classes.foldl (addCase o) [] := rfl

theorem any_tag_iff (found : List Case) (tag : String) :
    found.any (·.tag == tag) = true ↔ tag ∈ found.map (·.tag) := by
  simp

theorem nodup_tags_addCase (o : Options) {found : List Case} (hnodup : (found.map (·.tag)).Nodup)
    (c : ContentClass) : ((addCase o found c).map (·.tag)).Nodup := by
  unfold addCase
  split
  · exact hnodup
  · rename_i hnew
    rw [any_tag_iff] at hnew
    rw [List.map_append, List.nodup_append]
    refine ⟨hnodup, List.nodup_singleton _, ?_⟩
    rintro tag htag other hother rfl
    have hsame : tag = c.discriminant := List.mem_singleton.1 hother
    exact hnew (hsame ▸ htag)

theorem nodup_tags_foldl (o : Options) {found : List Case} (hnodup : (found.map (·.tag)).Nodup)
    (classes : List ContentClass) :
    ((classes.foldl (addCase o) found).map (·.tag)).Nodup := by
  induction classes generalizing found with
  | nil => exact hnodup
  | cons c classes ih => exact ih (nodup_tags_addCase o hnodup c)

theorem foldl_addCase_of_nodup {o : Options} {found : List Case} {classes : List ContentClass}
    (hnodup : (found.map (·.tag) ++ classes.map (·.discriminant)).Nodup) :
    classes.foldl (addCase o) found = found ++ classes.map (caseOf o) := by
  induction classes generalizing found with
  | nil => simp
  | cons c classes ih =>
    have hnew : ¬found.any (·.tag == c.discriminant) = true := by
      rw [any_tag_iff]
      intro hmem
      exact (List.nodup_append.1 hnodup).2.2 _ hmem _ (List.mem_cons_self ..) rfl
    have hmoved : (found ++ [caseOf o c]).map (·.tag) ++ classes.map (·.discriminant) =
        found.map (·.tag) ++ (c :: classes).map (·.discriminant) := by
      simp [caseOf]
    rw [List.foldl_cons, addCase, if_neg hnew, ih (by rw [hmoved]; exact hnodup)]
    simp

/-- Every class has its own case exactly where all tags are different. -/
theorem cases_eq_iff (o : Options) (classes : List ContentClass) :
    cases o classes = classes.map (caseOf o) ↔ (classes.map (·.discriminant)).Nodup := by
  rw [cases_eq_foldl]
  constructor
  · intro heq
    have hempty : (([] : List Case).map (·.tag)).Nodup := List.nodup_nil
    have htags := nodup_tags_foldl o hempty classes
    rw [heq, List.map_map] at htags
    exact htags
  · intro hnodup
    exact foldl_addCase_of_nodup hnodup

end Generated

end ContentLoom

import ContentLoom.Proofs.StepFields
import Mathlib.Data.List.Induction

/-!
# Claimed names

Items that claim names in turn are given different ones, each by a search that
ends: the members of the service one for each class, and the converters of a
step one for each conversion that its properties use.
-/

namespace ContentLoom.Naming

/-! ### Names claimed in turn -/

variable {render : String → String}

/-- Every item takes the name that its search gives, and it is taken for the items behind it. -/
inductive ClaimedInTurn {α : Type} (forms : α → String × String) (render : String → String) :
    List α → Finset String → List String → Finset String → Prop
  | nil (taken : Finset String) : ClaimedInTurn forms render [] taken [] taken
  | cons {a : α} {items : List α} {name : String} {names : List String} {tries : Nat}
      {taken next last : Finset String}
      (head : Search (forms a).1 (forms a).2 render taken 0 tries name next)
      (tail : ClaimedInTurn forms render items next names last) :
      ClaimedInTurn forms render (a :: items) taken (name :: names) last

theorem claimedInTurn_claimEach {α : Type} (forms : α → String × String)
    (hrender : Function.Injective render) (items : List α) (taken : List String) :
    ClaimedInTurn forms render items taken.toFinset (claimEach forms render taken items)
      ((claimEach forms render taken items).toFinset ∪ taken.toFinset) := by
  induction items generalizing taken with
  | nil =>
    rw [claimEach, List.toFinset_nil, Finset.empty_union]
    exact .nil _
  | cons a items ih =>
    obtain ⟨n, hclaims⟩ := exists_claims taken (forms a).1 (forms a).2 hrender
    have hhead := (hclaims.search _ _ _).2 ⟨rfl, rfl, rfl⟩
    have htail := ih (claim taken (forms a).1 (forms a).2 render :: taken)
    rw [List.toFinset_cons] at htail
    rw [claimEach, List.toFinset_cons, Finset.insert_union, ← Finset.union_insert]
    exact .cons hhead htail

theorem claimedInTurn_of_free {α : Type} (forms : α → String × String) (items : List α) :
    ClaimedInTurn forms id items ∅ (claimEach forms id [] items)
      (claimEach forms id [] items).toFinset := by
  have hclaimed := claimedInTurn_claimEach forms Function.injective_id items []
  rwa [List.toFinset_nil, Finset.union_empty] at hclaimed

/-! ### Uses of conversions -/

/-- The conversions of some properties other than copies. -/
def uses (ps : List ContentProperty) : List Conversion :=
  (ps.map (·.conversion)).filter (· ≠ .copy)

/-- The conversions that some properties use, each once, in the order of their first uses. -/
def firstUses (ps : List ContentProperty) : List Conversion := (uses ps).eraseDups

theorem uses_append (ps : List ContentProperty) (p : ContentProperty) :
    uses (ps ++ [p]) = uses ps ++ if p.conversion = .copy then [] else [p.conversion] := by
  rw [uses, List.map_append, List.filter_append, ← uses, List.map_singleton]
  split
  · next hcopy => simp [hcopy]
  · next hother => simp [hother]

theorem mem_firstUses {ps : List ContentProperty} {k : Conversion} :
    k ∈ firstUses ps ↔ k ∈ uses ps := List.mem_eraseDups

theorem firstUses_append (ps : List ContentProperty) (p : ContentProperty) :
    firstUses (ps ++ [p]) = ContentClass.noteConversion (firstUses ps) p := by
  rw [firstUses, uses_append, List.eraseDups_append, ← firstUses]
  unfold ContentClass.noteConversion
  by_cases hcopy : p.conversion = .copy
  · simp [hcopy, Conversion.isCopy_iff, List.removeAll]
  · by_cases hold : p.conversion ∈ uses ps
    · simp [hcopy, hold, mem_firstUses, List.removeAll]
    · simp [hcopy, hold, mem_firstUses, Conversion.isCopy_iff, List.removeAll, List.eraseDups_cons]

theorem conversions_eq_firstUses (c : ContentClass) : c.conversions = firstUses c.properties := by
  have hall (ps : List ContentProperty) :
      ps.foldl ContentClass.noteConversion [] = firstUses ps := by
    induction ps using List.reverseRecOn with
    | nil => rfl
    | append_singleton ps p ih =>
      rw [List.foldl_concat, ih, firstUses_append]
  exact hall c.properties

/-! ### Members, converters and files -/

/-- The two forms of the name of the service member for a class. -/
def memberForms (c : ContentClass) : String × String :=
  (memberForm c c.stableId.short, memberForm c c.stableId.hex)

/-- The two forms of the name of a converter, which are the same. -/
def converterForms (k : Conversion) : String × String := (converterName k, converterName k)

/-- The members of the service have different names, one for each class in order. -/
structure MembersClaimed (classes : List ContentClass) : Prop where
  length_eq : (pipelineMembers classes).length = classes.length
  differ : (pipelineMembers classes).Nodup
  claimed : ClaimedInTurn memberForms id classes ∅ (pipelineMembers classes)
    (pipelineMembers classes).toFinset

/-- The converters of a step have different names, one for each conversion that the properties of
the class use, in the order of the first uses. -/
structure ConvertersClaimed (c : ContentClass) : Prop where
  conversions : (converterMembers c).map Prod.fst = firstUses c.properties
  differ : ((converterMembers c).map Prod.snd).Nodup
  claimed : ClaimedInTurn converterForms id (firstUses c.properties) ∅
    ((converterMembers c).map Prod.snd) ((converterMembers c).map Prod.snd).toFinset

theorem membersClaimed (classes : List ContentClass) : MembersClaimed classes where
  length_eq := length_claimEach ..
  differ := (nodup_claimEach memberForms Function.injective_id [] classes).1
  claimed := claimedInTurn_of_free memberForms classes

theorem convertersClaimed (c : ContentClass) : ConvertersClaimed c := by
  have huses := conversions_eq_firstUses c
  constructor
  · rw [conversions_converterMembers, huses]
  · rw [names_converterMembers]
    exact nodup_converterNames c.conversions
  · rw [names_converterMembers, ← huses]
    exact claimedInTurn_of_free converterForms c.conversions

/-- The name of a file of a class is searched for, and it is noted as taken. -/
theorem search_perClass (names : FileNames) (c : ContentClass) (kind : ArtifactKind) :
    ∃ tries ≤ names.taken.toFinset.card + 2,
      Search (FileNames.classStem c kind c.stableId.short)
        (FileNames.classStem c kind c.stableId.hex) (FileNames.fileName names.extension)
        names.taken.toFinset 0 tries (names.perClass c kind).1
        (names.perClass c kind).2.taken.toFinset := by
  obtain ⟨n, hclaims⟩ := exists_claims names.taken (FileNames.classStem c kind c.stableId.short)
    (FileNames.classStem c kind c.stableId.hex) (Generated.fileName_injective names.extension)
  refine ⟨n + 1, hclaims.tries_le, (hclaims.search _ _ _).2 ⟨rfl, rfl, ?_⟩⟩
  exact List.toFinset_cons

/-- Whatever the two forms are, a claim ends after at most two more tries than names are taken.  It
gives the first candidate whose name is free, and takes this name and no other.  So the members of
the service have different names, and so have the converters of a step. -/
theorem claims_end :
    (∀ (taken : List String) (short wide : String) (render : String → String),
      Function.Injective render → ∃ n, Claims taken short wide render n) ∧
      (∀ classes, MembersClaimed classes) ∧ ∀ c, ConvertersClaimed c := by
  refine ⟨?_, membersClaimed, convertersClaimed⟩
  intro taken short wide render hrender
  exact exists_claims taken short wide hrender

/-- A class with converters whose names meet: the number that the second is given makes a name
that the third has by itself. -/
def clipped : ContentClass where
  name := "Teaser"
  stableId := ⟨1⟩
  group := "Site"
  order := 0
  fullName := "Site.Teaser"
  properties := [⟨"Lead", ⟨"string", true⟩, .custom "One.Clip", none⟩,
    ⟨"Title", ⟨"string", true⟩, .copy, none⟩,
    ⟨"Body", ⟨"string", true⟩, .custom "Two.Clip", none⟩,
    ⟨"Foot", ⟨"string", true⟩, .custom "Site.Clip_2", none⟩,
    ⟨"Note", ⟨"string", true⟩, .custom "One.Clip", none⟩]

theorem claims_end_clipped :
    Function.Injective (id : String → String) ∧
      Search "Clip" "Clip" id {"Clip_2", "Clip"} 0 4 "Clip_3" {"Clip_3", "Clip_2", "Clip"} ∧
      (pipelineMembers [clipped, clipped]).Nodup ∧
      (converterMembers clipped).map Prod.fst =
        [.custom "One.Clip", .custom "Two.Clip", .custom "Site.Clip_2"] ∧
      (converterMembers clipped).map Prod.snd = ["Clip", "Clip_2", "Clip_2_2"] := by
  obtain ⟨hclaims, hmembers, hconverters⟩ := claims_end
  have hid : Function.Injective (id : String → String) := Function.injective_id
  obtain ⟨n, hclaim⟩ := hclaims ["Clip_2", "Clip"] "Clip" "Clip" id hid
  have hname : claim ["Clip_2", "Clip"] "Clip" "Clip" id = "Clip_3" := by decide +kernel
  have hfirst : FirstFree "Clip" "Clip" id ["Clip_2", "Clip"].toFinset 3 :=
    ⟨by decide +kernel, by decide +kernel⟩
  have hnumber : n = 3 := hclaim.first.unique hfirst
  refine ⟨hid, (hclaim.search _ _ _).2 ⟨?_, hname.symm, rfl⟩, (hmembers _).differ, ?_, ?_⟩
  · rw [hnumber]
  · rw [(hconverters clipped).conversions]
    decide +kernel
  · decide +kernel

end ContentLoom.Naming

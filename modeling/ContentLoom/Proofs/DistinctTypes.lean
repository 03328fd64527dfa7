import ContentLoom.Proofs.ClassOrder
import ContentLoom.Proofs.GeneratedTypes
import ContentLoom.Proofs.ReportCodes
import ContentLoom.Proofs.SharedFileNames

/-!
# Distinct generated types

A run that reports no error gives every declared class types of its own.  The
container of forms comes after the classes were compared, so its types can be
those of a declared class; and tags are not compared at all, so those of classes
that overlap are the same.
-/

namespace ContentLoom.Generation

open Generated Resolution

/-! ### The container of forms -/

/-- The container of forms joins the declared classes, and one of them has its group and name. -/
def MeetsContainer (o : Options) (declared : List ContentClass) : Prop :=
  o.formsEnabled = true ∧ (∀ c ∈ declared, c.fullName ≠ formContainerType) ∧
    ∃ c ∈ declared, c.group = formContainer.group ∧ c.name = formContainer.name

theorem typeKey_eq_formContainer (c : ContentClass) :
    typeKey c = typeKey formContainer ↔
      c.group = formContainer.group ∧ c.name = formContainer.name := by
  have hself : Naming.sanitize "Form" = "Form" := by decide
  have hgroup : groupName c = groupName formContainer ↔ c.group = formContainer.group := by
    have hcontainer : groupName formContainer = "Form" := hself
    rw [hcontainer]
    exact Naming.sanitize_eq_iff hself (by decide)
  rw [typeKey_eq_iff, hgroup]

theorem runClasses_perm {g : Graph} {o : Options} (hforms : o.formsEnabled = true)
    (habsent : ∀ c ∈ declaredClasses g, c.fullName ≠ formContainerType) :
    (runClasses g o).Perm (formContainer :: declaredClasses g) := by
  unfold runClasses
  rw [if_pos hforms]
  exact withFormContainer_perm _ habsent

theorem runClasses_eq_declared {g : Graph} {o : Options}
    (h : ¬(o.formsEnabled = true ∧ ∀ c ∈ declaredClasses g, c.fullName ≠ formContainerType)) :
    runClasses g o = declaredClasses g := by
  unfold runClasses
  split
  · rename_i hforms
    have hpresent : (declaredClasses g).any (·.fullName == formContainerType) = true := by
      by_contra hany
      apply h
      refine ⟨hforms, fun c hc hname => hany ?_⟩
      exact List.any_eq_true.2 ⟨c, hc, by simpa using hname⟩
    exact if_pos hpresent
  · rfl

theorem nodup_typeKeys_runClasses {g : Graph} (o : Options)
    (hdeclared : ((declaredClasses g).map typeKey).Nodup) :
    ((runClasses g o).map typeKey).Nodup ↔ ¬MeetsContainer o (declaredClasses g) := by
  by_cases hjoins : o.formsEnabled = true ∧
      ∀ c ∈ declaredClasses g, c.fullName ≠ formContainerType
  · have hperm := (runClasses_perm hjoins.1 hjoins.2).map typeKey
    have hmeets : MeetsContainer o (declaredClasses g) ↔
        typeKey formContainer ∈ (declaredClasses g).map typeKey := by
      simp only [MeetsContainer, hjoins.1, true_and, List.mem_map, typeKey_eq_formContainer]
      exact and_iff_right hjoins.2
    rw [hperm.nodup_iff, List.map_cons, List.nodup_cons, hmeets]
    exact and_iff_left hdeclared
  · have hnever : ¬MeetsContainer o (declaredClasses g) := fun h => hjoins ⟨h.1, h.2.1⟩
    rw [runClasses_eq_declared hjoins]
    exact iff_of_true hdeclared hnever

theorem nodup_discriminants_runClasses {g : Graph} (o : Options)
    (hdeclared : ((declaredClasses g).map typeKey).Nodup) :
    ((runClasses g o).map (·.discriminant)).Nodup ↔
      ¬MeetsContainer o (declaredClasses g) ∧
        ∀ a ∈ runClasses g o, ∀ b ∈ runClasses g o, ¬Overlaps a b := by
  have hkeys := nodup_typeKeys_runClasses o hdeclared
  by_cases hmeets : MeetsContainer o (declaredClasses g)
  · obtain ⟨hforms, habsent, c, hc, hgroup, hname⟩ := hmeets
    have htag : c.discriminant = formContainer.discriminant :=
      (discriminant_eq_iff c formContainer).2 (Or.inl ⟨hgroup, hname⟩)
    have hrepeated : ¬((runClasses g o).map (·.discriminant)).Nodup := by
      rw [((runClasses_perm hforms habsent).map (·.discriminant)).nodup_iff, List.map_cons,
        List.nodup_cons]
      exact fun h => h.1 (List.mem_map.2 ⟨c, hc, htag⟩)
    exact iff_of_false hrepeated fun h => h.1 ⟨hforms, habsent, c, hc, hgroup, hname⟩
  · rw [nodup_discriminants_iff (hkeys.2 hmeets)]
    exact (and_iff_right hmeets).symm

/-! ### Runs without errors -/

theorem nodup_declared_of_clean {g : Graph}
    (hclean : Diagnostic.anyError (graphReports g) = false) :
    ((declaredClasses g).map typeKey).Nodup := by
  have hnone : duplicateTypes [] (declaredClasses g) = [] := by
    apply List.eq_nil_iff_forall_not_mem.2
    intro d hd
    have hreported : d ∈ graphReports g :=
      List.mem_append_right _ (List.mem_append_right _ hd)
    obtain ⟨location, message, rfl⟩ := mem_duplicateTypes hd
    exact List.any_eq_false.1 hclean _ hreported rfl
  exact ((duplicateTypes_eq_nil_iff [] _).1 hnone).1

theorem nodup_map_congr {α β γ : Type} {f : α → β} {k : α → γ}
    (h : ∀ a b, f a = f b ↔ k a = k b) (xs : List α) : (xs.map f).Nodup ↔ (xs.map k).Nodup := by
  simp only [List.Nodup, List.pairwise_map, ne_eq, h]

/-- Without errors, models and steps are all different unless a class meets the container of forms;
tags, and with them the cases of the switch, are so if besides no two classes overlap. -/
theorem distinct_types_iff (g : Graph) (o : Options) (result : Generation)
    (hrun : run g o false = .ok result) (hclean : result.hasErrors = false) :
    ((result.classes.map (modelType o)).Nodup ↔ ¬MeetsContainer o (declaredClasses g)) ∧
    ((result.classes.map (stepType o)).Nodup ↔ ¬MeetsContainer o (declaredClasses g)) ∧
    ((result.classes.map (·.discriminant)).Nodup ↔
      ¬MeetsContainer o (declaredClasses g) ∧
        ∀ a ∈ result.classes, ∀ b ∈ result.classes, ¬Overlaps a b) ∧
    (cases o result.classes = result.classes.map (caseOf o) ↔
      (result.classes.map (·.discriminant)).Nodup) := by
  obtain ⟨hclasses, hreports⟩ := run_eq_of_ok hrun
  have hquiet : Diagnostic.anyError (graphReports g) = false := by
    rw [← hreports]
    exact hclean
  have hdeclared := nodup_declared_of_clean hquiet
  have hkeys := nodup_typeKeys_runClasses o hdeclared
  rw [hclasses]
  refine ⟨?_, ?_, nodup_discriminants_runClasses o hdeclared, cases_eq_iff o _⟩
  · rw [nodup_map_congr (modelType_eq_iff o)]
    exact hkeys
  · rw [nodup_map_congr (stepType_eq_iff o)]
    exact hkeys

/-- A class with the group and the name of the container of forms. -/
def ownContainer : Declaration := grouped "FormContainerBlock" "Form"

/-- The standard options with the container of forms. -/
def withForms : Options := { Options.standard with formsEnabled := true }

theorem declaredClasses_ownContainer :
    ∃ c, declaredClasses ⟨[ownContainer]⟩ = [c] ∧ c.fullName ≠ formContainerType ∧
      c.group = formContainer.group ∧ c.name = formContainer.name :=
  ⟨_, List.mergeSort_singleton _, by decide, rfl, rfl⟩

theorem types_of_ownContainer :
    ∃ result, run ⟨[ownContainer]⟩ withForms false = .ok result ∧ result.hasErrors = false ∧
      ¬(result.classes.map (modelType withForms)).Nodup ∧
      ¬(result.classes.map (stepType withForms)).Nodup ∧
      ¬(result.classes.map (·.discriminant)).Nodup := by
  obtain ⟨c, hdeclared, hfull, hgroup, hname⟩ := declaredClasses_ownContainer
  have hmeets : MeetsContainer withForms (declaredClasses ⟨[ownContainer]⟩) := by
    rw [hdeclared]
    exact ⟨rfl, by simpa using hfull, c, List.mem_singleton.2 rfl, hgroup, hname⟩
  have hperm := runClasses_perm hmeets.1 hmeets.2.1
  have hcontested : contested? (runClasses ⟨[ownContainer]⟩ withForms) = none := by
    unfold contested?
    rw [hperm.any_eq, hperm.any_eq, hdeclared]
    simp [hgroup, formContainer]
  have hrun : run ⟨[ownContainer]⟩ withForms false =
      .ok ⟨runClasses ⟨[ownContainer]⟩ withForms,
        allFiles withForms (runClasses ⟨[ownContainer]⟩ withForms),
        graphReports ⟨[ownContainer]⟩⟩ := by
    rw [run_of_valid _ _ rfl, artifacts_eq, hcontested]
    rfl
  have hclean : Diagnostic.anyError (graphReports ⟨[ownContainer]⟩) = false := by
    unfold graphReports
    rw [hdeclared]
    rfl
  obtain ⟨hmodels, hsteps, htags, -⟩ := distinct_types_iff _ _ _ hrun hclean
  exact ⟨_, hrun, hclean, fun h => hmodels.1 h hmeets, fun h => hsteps.1 h hmeets,
    fun h => (htags.1 h).1 hmeets⟩

end ContentLoom.Generation

import ContentLoom.Proofs.Lookups
import ContentLoom.Proofs.WrittenIdentifiers

/-!
# The order of declarations

Where no full name is declared twice, the order of declarations has no part in
what is generated: permuted graphs give the same classes in the same order, the
same files, and the same reports up to order, except that of the classes with
one written identifier another may be the first.
-/

namespace ContentLoom.Generation

open Resolution Watched

/-! ### Runs that agree -/

/-- The class is one of the graph, and its marker gives its identifier. -/
def Written (g : Graph) (c : ContentClass) : Prop := ∃ d ∈ g.types, origin? g d = some ⟨c, true⟩

/-- The reports of doubled identifiers are those of the pairs, each of two different classes that
have written one identifier. -/
structure NamesDoubled (g : Graph) (reports : List Diagnostic)
    (pairs : List (ContentClass × ContentClass)) : Prop where
  told : doubled reports = pairs.map fun p => duplicateId p.1 p.2.fullName
  shared : ∀ p ∈ pairs, Written g p.1 ∧ Written g p.2 ∧
    p.1.fullName ≠ p.2.fullName ∧ p.1.stableId = p.2.stableId

/-- Two runs on the declarations of a graph give the same, except for the order of reports and for
which of the classes with one written identifier are named as its duplicates. -/
structure Same (g : Graph) (a b : Generation) : Prop where
  classes : a.classes = b.classes
  artifacts : a.artifacts = b.artifacts
  counts : ∀ code, (Diagnostic.withCode a.reports code).length =
    (Diagnostic.withCode b.reports code).length
  others : (others a.reports).Perm (others b.reports)
  doubled : ∃ ps qs, NamesDoubled g a.reports ps ∧ NamesDoubled g b.reports qs ∧
    (ps.map (·.1.stableId)).Perm (qs.map (·.1.stableId))

/-- Both runs fail alike, or both succeed with the same. -/
inductive SameOutcome (g : Graph) : Except Failure Generation → Except Failure Generation → Prop
  | ok {a b : Generation} (same : Same g a b) : SameOutcome g (.ok a) (.ok b)
  | error (f : Failure) : SameOutcome g (.error f) (.error f)

theorem withCode_others {code : DiagnosticCode} (hne : code ≠ .duplicateStableId)
    (ds : List Diagnostic) :
    Diagnostic.withCode (others ds) code = Diagnostic.withCode ds code := by
  unfold Diagnostic.withCode others
  rw [List.filter_filter]
  apply List.filter_congr
  intro d _
  by_cases hcode : d.code = code
  · simp [hcode, hne]
  · simp [hcode]

/-- Reports that agree up to doubled identifiers, and in the identifiers of these, agree in the
number of each code. -/
theorem length_withCode_eq {g : Graph} {ds es : List Diagnostic}
    {ps qs : List (ContentClass × ContentClass)} (hothers : (others ds).Perm (others es))
    (hps : NamesDoubled g ds ps) (hqs : NamesDoubled g es qs)
    (hids : (ps.map (·.1.stableId)).Perm (qs.map (·.1.stableId))) (code : DiagnosticCode) :
    (Diagnostic.withCode ds code).length = (Diagnostic.withCode es code).length := by
  by_cases hcode : code = .duplicateStableId
  · have hlength := hids.length_eq
    subst hcode
    change (doubled ds).length = (doubled es).length
    rw [hps.told, hqs.told, List.length_map, List.length_map]
    simpa using hlength
  · have hfiltered := (hothers.filter (·.code == code)).length_eq
    rw [← withCode_others hcode ds, ← withCode_others hcode es]
    exact hfiltered

/-! ### The reports of one graph -/

theorem others_graphReports (g : Graph) :
    others (graphReports g) =
      (g.types.flatMap fun d => told (originActs g d)) ++ collisionReports (declaredClasses g) := by
  have hcollisions : others (collisionReports (declaredClasses g)) =
      collisionReports (declaredClasses g) := by
    apply List.filter_eq_self.2
    intro d hd
    simpa using collisionReports_code hd
  rw [graphReports, others_append, hcollisions]
  exact congrArg (· ++ _) (others_told_eachActs g [] g.types)

theorem doubled_graphReports (g : Graph) :
    doubled (graphReports g) = (sharedIds [] (g.types.filterMap (origin? g))).map fun p =>
      duplicateId p.1 p.2.fullName := by
  have hcollisions : doubled (collisionReports (declaredClasses g)) = [] := by
    apply List.filter_eq_nil_iff.2
    intro d hd
    simpa using collisionReports_code hd
  rw [graphReports, doubled_append, hcollisions, List.append_nil]
  exact doubled_told_eachActs g [] g.types

theorem namesDoubled_graphReports (g : Graph)
    (hdistinct : (g.types.map Declaration.fullName).Nodup) :
    NamesDoubled g (graphReports g) (sharedIds [] (g.types.filterMap (origin? g))) := by
  refine ⟨doubled_graphReports g, ?_⟩
  intro p hp
  have hnames : (([] ++ classesOf g g.types : List ContentClass).map (·.fullName)).Nodup :=
    hdistinct.sublist (fullNames_classesOf g g.types)
  have hwritten : ∀ c, (∃ r ∈ g.types.filterMap (origin? g),
      r.explicit = true ∧ r.contentClass = c) → Written g c := by
    rintro c ⟨⟨contentClass, explicit⟩, hr, hexplicit, hclass⟩
    obtain ⟨d, hd, horigin⟩ := List.mem_filterMap.1 hr
    simp only at hexplicit hclass
    rw [hexplicit, hclass] at horigin
    exact ⟨d, hd, horigin⟩
  obtain ⟨hfirst, hsecond, hid⟩ := mem_sharedIds hp
  have hsecond := hsecond.resolve_left (List.not_mem_nil)
  exact ⟨hwritten p.1 hfirst, hwritten p.2 hsecond,
    fullName_ne_of_mem_sharedIds hnames hp, hid⟩

/-! ### Two orders -/

section

variable {g h : Graph}

theorem origins_perm (hperm : g.types.Perm h.types) (halike : g.Alike h) :
    (g.types.filterMap (origin? g)).Perm (h.types.filterMap (origin? h)) := by
  have horigin : origin? h = origin? g := by
    funext d
    exact (halike.origin? d).symm
  rw [horigin]
  exact hperm.filterMap _

theorem declaredClasses_eq (hperm : g.types.Perm h.types)
    (hdistinct : (g.types.map Declaration.fullName).Nodup) :
    declaredClasses g = declaredClasses h := by
  have halike := Graph.alike_of_perm hperm hdistinct
  exact sortClasses_eq_of_perm ((origins_perm hperm halike).map _)
    (hdistinct.sublist (fullNames_classesOf g g.types))

theorem others_graphReports_perm (hperm : g.types.Perm h.types)
    (hdistinct : (g.types.map Declaration.fullName).Nodup) :
    (others (graphReports g)).Perm (others (graphReports h)) := by
  have halike := Graph.alike_of_perm hperm hdistinct
  have hacts : originActs h = originActs g := by
    funext d
    exact (halike.originActs d).symm
  rw [others_graphReports, others_graphReports, declaredClasses_eq hperm hdistinct, hacts]
  exact (hperm.flatMap_right _).append_right _

theorem sharedIds_perm {rs ss : List Resolved} (hperm : rs.Perm ss) :
    ((sharedIds [] rs).map (·.1.stableId)).Perm ((sharedIds [] ss).map (·.1.stableId)) := by
  rw [List.perm_iff_count]
  intro id
  rw [count_sharedIds, count_sharedIds]
  have hcount := ((hperm.filter (·.explicit)).map (·.contentClass.stableId)).count_eq id
  rw [hcount]

theorem written_of_perm (hperm : g.types.Perm h.types) (halike : g.Alike h) {c : ContentClass}
    (hwritten : Written h c) : Written g c := by
  obtain ⟨d, hd, horigin⟩ := hwritten
  refine ⟨d, hperm.mem_iff.2 hd, ?_⟩
  rw [halike.origin? d]
  exact horigin

theorem same_of_perm (hperm : g.types.Perm h.types)
    (hdistinct : (g.types.map Declaration.fullName).Nodup) (classes : List ContentClass)
    (artifacts : List Artifact) :
    Same g ⟨classes, artifacts, graphReports g⟩ ⟨classes, artifacts, graphReports h⟩ := by
  have halike := Graph.alike_of_perm hperm hdistinct
  have hdistinct' : (h.types.map Declaration.fullName).Nodup :=
    (hperm.map Declaration.fullName).nodup_iff.1 hdistinct
  have hothers := others_graphReports_perm hperm hdistinct
  have hleft := namesDoubled_graphReports g hdistinct
  have hright := namesDoubled_graphReports h hdistinct'
  have hright' : NamesDoubled g (graphReports h)
      (sharedIds [] (h.types.filterMap (origin? h))) := by
    refine ⟨hright.told, fun p hp => ?_⟩
    obtain ⟨hfirst, hsecond, hshared⟩ := hright.shared p hp
    exact ⟨written_of_perm hperm halike hfirst, written_of_perm hperm halike hsecond, hshared⟩
  have hids := sharedIds_perm (origins_perm hperm halike)
  exact {
    classes := rfl
    artifacts := rfl
    counts := length_withCode_eq hothers hleft hright' hids
    others := hothers
    doubled := ⟨_, _, hleft, hright', hids⟩ }

/-- Declarations with different full names may come in any order. -/
theorem run_of_perm (o : Options) (hperm : g.types.Perm h.types)
    (hdistinct : (g.types.map Declaration.fullName).Nodup) :
    SameOutcome g (run g o false) (run h o false) := by
  cases hvalid : o.validate with
  | error f =>
    rw [run_of_invalid g o f hvalid, run_of_invalid h o f hvalid]
    exact .error f
  | ok =>
    have hclasses : runClasses g o = runClasses h o := by
      unfold runClasses
      rw [declaredClasses_eq hperm hdistinct]
    rw [run_of_valid g o hvalid, run_of_valid h o hvalid, hclasses]
    cases Generated.artifacts o false (runClasses h o) with
    | error f => exact .error f
    | ok artifacts => exact .ok (same_of_perm hperm hdistinct (runClasses h o) artifacts)

end

/-- A class with a written identifier, the same for every name. -/
def identified (name : String) : Declaration where
  name := name
  ns := "Site"
  kind := .classType
  isAbstract := false
  base := none
  interfaces := []
  attributes := [
    ⟨"ContentType", [], [], [("GUID", .str "02ec61ff-819f-4978-add6-a097f5bd944e")], []⟩,
    ⟨"ContentPipelineModel", [], [], [], []⟩]
  properties := []

theorem run_of_swapped :
    [identified "Hero", identified "Page"].Perm [identified "Page", identified "Hero"] ∧
      ([identified "Hero", identified "Page"].map Declaration.fullName).Nodup ∧
      SameOutcome ⟨[identified "Hero", identified "Page"]⟩
        (run ⟨[identified "Hero", identified "Page"]⟩ .standard false)
        (run ⟨[identified "Page", identified "Hero"]⟩ .standard false) := by
  have hperm : [identified "Hero", identified "Page"].Perm [identified "Page", identified "Hero"] :=
    List.Perm.swap ..
  have hdistinct :
      ([identified "Hero", identified "Page"].map Declaration.fullName).Nodup := by decide
  exact ⟨hperm, hdistinct, run_of_perm .standard hperm hdistinct⟩

end ContentLoom.Generation

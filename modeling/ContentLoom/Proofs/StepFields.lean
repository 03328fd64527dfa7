import ContentLoom.Generated.StepClass
import ContentLoom.Proofs.ArtifactNames
import Mathlib.Data.List.Nodup

/-!
# Fields of a mapping step

A step has a field and a parameter of its constructor for each conversion of its
class.  They are named by the converter with its first letter lowered, after the
converters were told apart, so two of them are the same exactly where two
converters differ in the case of the first letter only.  The fields that hold
the arguments of converters are named by properties and stand apart.
-/

namespace ContentLoom.Naming

/-! ### Lowering the first letter -/

/-- The names differ in the first letter only, and in lower case not even there. -/
def CaseTwins (a b : String) : Prop :=
  ∃ x y rest, a.toList = x :: rest ∧ b.toList = y :: rest ∧ x ≠ y ∧ Text.toLower x = Text.toLower y

theorem CaseTwins.ne {a b : String} (h : CaseTwins a b) : a ≠ b := by
  obtain ⟨x, y, rest, ha, hb, hne, -⟩ := h
  rintro rfl
  rw [ha] at hb
  exact hne (List.cons.inj hb).1

theorem toLower_append_inj {x y : Char} {xs ys : List Char} (hxs : ∀ c ∈ xs, isWordChar c = true)
    (hys : ∀ c ∈ ys, isWordChar c = true) (h : Text.toLower x ++ xs = Text.toLower y ++ ys) :
    Text.toLower x = Text.toLower y ∧ xs = ys := by
  -- one letter becomes two characters, of which the second can stand in no other name
  have hdot : isWordChar '\u0307' = false := by decide
  have hloose {cs : List Char} (hcs : ∀ c ∈ cs, isWordChar c = true) : '\u0307' ∉ cs := by
    intro hmem
    rw [hcs _ hmem] at hdot
    cases hdot
  simp only [Text.toLower] at h ⊢
  split at h <;> split at h <;> simp only [List.cons_append, List.nil_append, List.cons.injEq] at h
  · rename_i hx hy
    rw [if_pos hx, if_pos hy]
    exact ⟨by rw [h.1], h.2.2⟩
  · exact absurd (h.2 ▸ List.mem_cons_self ..) (hloose hys)
  · exact absurd (h.2 ▸ List.mem_cons_self ..) (hloose hxs)
  · rename_i hx hy
    rw [if_neg hx, if_neg hy]
    exact ⟨by rw [h.1], h.2⟩

theorem lowerFirst_eq_iff {a b : String} (ha : WordText a) (hb : WordText b) :
    lowerFirst a = lowerFirst b ↔ a = b ∨ CaseTwins a b := by
  have hempty {s : String} (hs : s.toList = []) : s = "" := String.toList_eq_nil_iff.1 hs
  have hsome (x : Char) (xs : List Char) : Text.toLower x ++ xs ≠ [] :=
    List.append_ne_nil_of_left_ne_nil (Text.toLower_ne_nil x) xs
  unfold lowerFirst
  constructor
  · intro h
    cases hxs : a.toList with
    | nil =>
      cases hys : b.toList with
      | nil => exact Or.inl (by rw [hempty hxs, hempty hys])
      | cons y ys =>
        simp only [hxs, hys] at h
        exact absurd (String.ofList_eq_empty_iff.1 h.symm) (hsome y ys)
    | cons x xs =>
      cases hys : b.toList with
      | nil =>
        simp only [hxs, hys] at h
        exact absurd (String.ofList_eq_empty_iff.1 h) (hsome x xs)
      | cons y ys =>
        simp only [hxs, hys] at h
        have hwords : (∀ c ∈ xs, isWordChar c = true) ∧ ∀ c ∈ ys, isWordChar c = true :=
          ⟨fun c hc => ha c (hxs ▸ List.mem_cons_of_mem _ hc),
            fun c hc => hb c (hys ▸ List.mem_cons_of_mem _ hc)⟩
        obtain ⟨hlower, rfl⟩ := toLower_append_inj hwords.1 hwords.2 (String.ofList_injective h)
        by_cases hxy : x = y
        · refine Or.inl (String.toList_injective ?_)
          rw [hxs, hys, hxy]
        · exact Or.inr ⟨x, y, xs, hxs, hys, hxy, hlower⟩
  · rintro (rfl | ⟨x, y, rest, hxs, hys, -, hlower⟩)
    · rfl
    · simp only [hxs, hys, hlower]

/-! ### Names of converters -/

theorem nodup_claimEach {α : Type} (forms : α → String × String) {render : String → String}
    (hrender : Function.Injective render) (taken : List String) (items : List α) :
    (claimEach forms render taken items).Nodup ∧
      ∀ name ∈ claimEach forms render taken items, name ∉ taken := by
  induction items generalizing taken with
  | nil => exact ⟨List.nodup_nil, nofun⟩
  | cons a rest ih =>
    let name := claim taken (forms a).1 (forms a).2 render
    obtain ⟨hnodup, hfresh⟩ := ih (name :: taken)
    have hname : name ∉ claimEach forms render (name :: taken) rest :=
      fun hmem => hfresh name hmem (List.mem_cons_self ..)
    refine ⟨List.nodup_cons.2 ⟨hname, hnodup⟩, ?_⟩
    intro other hother
    rcases List.mem_cons.1 hother with rfl | hother
    · exact claim_not_mem taken (forms a).1 (forms a).2 hrender
    · exact fun hmem => hfresh other hother (List.mem_cons_of_mem _ hmem)

theorem wordText_claimEach {α : Type} {forms : α → String × String}
    (hforms : ∀ a, WordText (forms a).1 ∧ WordText (forms a).2) (taken : List String)
    (items : List α) : ∀ name ∈ claimEach forms id taken items, WordText name := by
  induction items generalizing taken with
  | nil => exact nofun
  | cons a rest ih =>
    intro name hname
    rcases List.mem_cons.1 hname with rfl | hname
    · obtain ⟨n, hn⟩ := claim_eq taken (forms a).1 (forms a).2 id
      rw [hn]
      exact wordText_candidate (hforms a).1 (hforms a).2 n
    · exact ih _ name hname

theorem wordText_converterName (k : Conversion) : WordText (converterName k) := by
  cases k with
  | copy => exact nofun
  | known converter => cases converter <;> decide
  | enumeration type =>
    have hback : WordText "EnumConverter" := by decide
    exact (wordText_sanitize _).append hback
  | custom type => exact wordText_sanitize _

theorem nodup_converterNames (ks : List Conversion) : (converterNames ks).Nodup :=
  (nodup_claimEach _ Function.injective_id [] ks).1

theorem wordText_converterNames (ks : List Conversion) :
    ∀ name ∈ converterNames ks, WordText name :=
  wordText_claimEach (fun k => ⟨wordText_converterName k, wordText_converterName k⟩) [] ks

theorem length_converterNames (ks : List Conversion) : (converterNames ks).length = ks.length :=
  length_claimEach ..

theorem conversions_converterMembers (c : ContentClass) :
    (converterMembers c).map Prod.fst = c.conversions :=
  List.map_fst_zip (Nat.le_of_eq (length_converterNames c.conversions).symm)

theorem names_converterMembers (c : ContentClass) :
    (converterMembers c).map Prod.snd = converterNames c.conversions :=
  List.map_snd_zip (Nat.le_of_eq (length_converterNames c.conversions))

theorem wordText_converterMembers {c : ContentClass} {m : Conversion × String}
    (h : m ∈ converterMembers c) : WordText m.2 := by
  apply wordText_converterNames c.conversions
  rw [← names_converterMembers]
  exact List.mem_map_of_mem h

end ContentLoom.Naming

namespace ContentLoom.ContentClass

/-! ### Conversions of a class -/

/-- The conversions seen so far with that of a property, unless it is known or a copy. -/
def noteConversion (seen : List Conversion) (p : ContentProperty) : List Conversion :=
  if p.conversion.isCopy || seen.contains p.conversion then seen else seen ++ [p.conversion]

theorem conversionsOf_eq (ps : List ContentProperty) :
    conversionsOf ps = ps.foldl noteConversion [] := rfl

theorem mem_noteConversion {seen : List Conversion} {p : ContentProperty} {k : Conversion} :
    k ∈ noteConversion seen p ↔ k ∈ seen ∨ k ≠ .copy ∧ p.conversion = k := by
  have hcopy := p.conversion.isCopy_iff
  unfold noteConversion
  split
  · rename_i hidle
    have hknown : p.conversion = .copy ∨ p.conversion ∈ seen := by simpa [hcopy] using hidle
    refine ⟨Or.inl, ?_⟩
    rintro (hk | ⟨hne, rfl⟩)
    · exact hk
    · exact hknown.resolve_left hne
  · rename_i hnew
    have hne : p.conversion ≠ .copy := by
      intro h
      exact hnew (by simp [hcopy.2 h])
    rw [List.mem_append, List.mem_singleton]
    refine or_congr_right ⟨?_, fun h => h.2.symm⟩
    rintro rfl
    exact ⟨hne, rfl⟩

theorem nodup_noteConversion {seen : List Conversion} (h : seen.Nodup) (p : ContentProperty) :
    (noteConversion seen p).Nodup := by
  unfold noteConversion
  split
  · exact h
  · rename_i hnew
    have hfresh : p.conversion ∉ seen := by
      intro hmem
      exact hnew (by simp [hmem])
    rw [← List.concat_eq_append, List.nodup_concat]
    exact ⟨hfresh, h⟩

theorem foldl_noteConversion (ps : List ContentProperty) {seen : List Conversion}
    (h : seen.Nodup) :
    (ps.foldl noteConversion seen).Nodup ∧
      ∀ k, k ∈ ps.foldl noteConversion seen ↔
        k ∈ seen ∨ k ≠ .copy ∧ ∃ p ∈ ps, p.conversion = k := by
  induction ps generalizing seen with
  | nil => simp [h]
  | cons p ps ih =>
    obtain ⟨hnodup, hmem⟩ := ih (nodup_noteConversion h p)
    refine ⟨hnodup, fun k => ?_⟩
    rw [List.foldl_cons, hmem k, mem_noteConversion, List.exists_mem_cons_iff, or_assoc,
      and_or_left]

theorem nodup_conversions (c : ContentClass) : c.conversions.Nodup :=
  (foldl_noteConversion c.properties List.nodup_nil).1

theorem mem_conversions {c : ContentClass} {k : Conversion} :
    k ∈ c.conversions ↔ k ≠ .copy ∧ ∃ p ∈ c.properties, p.conversion = k := by
  have hmem := (foldl_noteConversion c.properties List.nodup_nil).2 k
  simpa [conversions, conversionsOf_eq] using hmem

end ContentLoom.ContentClass

namespace ContentLoom.Generated

open Naming

/-! ### What a step declares and runs -/

/-- A field of a step. -/
structure Field where
  type : String
  name : String
deriving DecidableEq

/-- The fields with the arguments of converters, named by properties. -/
def argumentFields (c : ContentClass) : List Field :=
  (c.properties.filter (·.config.isSome)).map fun p =>
    ⟨"Dictionary<string, string>", configField p⟩

/-- The field of a converter. -/
def converterField (i : Injection) : Field := ⟨injectedType i.conversion, "_" ++ i.parameter⟩

/-- All fields of the step of a class. -/
def stepFields (c : ContentClass) : List Field :=
  argumentFields c ++ (injections c).map converterField

/-- Whether a field is declared here. -/
def declaresField : Code.Write → Bool
  | .line text => "private ".toList.isPrefixOf text.toList
  | _ => false

/-- What a step runs: one assignment for each property. -/
def executeCode (o : Options) (c : ContentClass) : List Code.Write :=
  Code.block
    ("public override void Execute(" ++ rooted c.fullName ++ " content, " ++
      rooted (modelType o c) ++
      " contentPipelineModel, IContentPipelineContext pipelineContext)")
    (c.properties.map fun p => .line (assignment (injections c) p))

/-- The code of the step of a class: its fields, its constructor, and what it runs. -/
structure StepCode (o : Options) (c : ContentClass) : Prop where
  fields : (stepClass o c).filter declaresField =
    (argumentFields c).map (fun f =>
      .line ("private static readonly " ++ f.type ++ " " ++ f.name ++ " = new()")) ++
    ((injections c).map converterField).map fun f =>
      .line ("private readonly " ++ f.type ++ " " ++ f.name ++ ";")
  constructed : stepConstructor c (injections c) <:+: stepClass o c
  runs : executeCode o c <:+: stepClass o c

/-! ### Code without fields -/

theorem filter_eq_nil_of_all {ws : List Code.Write} (h : ∀ w ∈ ws, declaresField w = false) :
    ws.filter declaresField = [] :=
  List.filter_eq_nil_iff.2 fun w hw => by rw [h w hw]; exact Bool.false_ne_true

theorem filter_map_line {α : Type} {text : α → String} (xs : List α)
    (h : ∀ x, declaresField (.line (text x)) = false) :
    (xs.map fun x => Code.Write.line (text x)).filter declaresField = [] := by
  apply filter_eq_nil_of_all
  intro w hw
  obtain ⟨x, -, rfl⟩ := List.mem_map.1 hw
  exact h x

theorem filter_block (header : String) (body : List Code.Write) :
    (Code.block header body).filter declaresField = body.filter declaresField := by
  simp [Code.block, Code.blockWith, declaresField]

theorem filter_file (used : List String) (ns : String) (body : List Code.Write) :
    (Code.file used ns body).filter declaresField = body.filter declaresField := by
  have hhead : Code.fileHead.filter declaresField = [] := by decide
  have hused : (Code.usings used).filter declaresField = [] := by
    apply filter_map_line
    intro name
    simp [declaresField, String.toList_append, List.isPrefixOf]
  have hblank : (if used.isEmpty then [] else [Code.Write.blank]).filter declaresField = [] := by
    split <;> rfl
  have hns : (Code.namespaceOf ns).filter declaresField = [] := by
    simp [Code.namespaceOf, declaresField, String.toList_append, List.isPrefixOf]
  simp only [Code.file, List.filter_append, hused, hblank, hhead, hns, List.nil_append]

theorem filter_stepConstructor (c : ContentClass) (given : List Injection) :
    (stepConstructor c given).filter declaresField = [] := by
  have hstores : (given.map fun i =>
      Code.Write.line ("_" ++ i.parameter ++ " = " ++ i.parameter ++ ";")).filter declaresField =
        [] := by
    apply filter_map_line
    intro i
    simp [declaresField, String.toList_append, List.isPrefixOf]
  rw [stepConstructor, List.filter_cons, List.filter_append, filter_block, hstores]
  simp [Code.indented, Code.lines, declaresField, String.toList_append, List.isPrefixOf]

/-! ### Code with fields -/

theorem filter_entries (entries : List (String × String)) :
    (entries.map fun (k, v) =>
      Code.Write.line ("[" ++ Code.literal k ++ "] = " ++ Code.literal v ++ ",")).filter
        declaresField = [] := by
  apply filter_map_line
  intro e
  simp [declaresField, String.toList_append, List.isPrefixOf]

theorem filter_configCode (p : ContentProperty) :
    (configCode p).filter declaresField = if p.config.isSome then
      [.line ("private static readonly Dictionary<string, string> " ++ configField p ++ " = new()")]
      else [] := by
  unfold configCode
  cases p.config with
  | none => rfl
  | some config =>
    simp [Code.blockWith, filter_entries, declaresField, String.toList_append, List.isPrefixOf]

theorem filter_argumentFields (c : ContentClass) :
    (c.properties.flatMap configCode).filter declaresField =
      (argumentFields c).map fun f =>
        .line ("private static readonly " ++ f.type ++ " " ++ f.name ++ " = new()") := by
  have htype : "private static readonly " ++ "Dictionary<string, string>" ++ " " =
      "private static readonly Dictionary<string, string> " := rfl
  rw [argumentFields, List.map_map]
  simp only [Function.comp_def, htype]
  induction c.properties with
  | nil => rfl
  | cons p ps ih =>
    rw [List.flatMap_cons, List.filter_append, filter_configCode, ih, List.filter_cons]
    split <;> rfl

theorem append_mark (front name : String) :
    front ++ " _" ++ name = front ++ " " ++ ("_" ++ name) := by
  have hmark : " _" = " " ++ "_" := rfl
  simp only [hmark, String.append_assoc]

theorem filter_converterFields (given : List Injection) :
    (given.map fun i => Code.Write.line
      ("private readonly " ++ injectedType i.conversion ++ " _" ++ i.parameter ++ ";")).filter
        declaresField =
      (given.map converterField).map fun f =>
        .line ("private readonly " ++ f.type ++ " " ++ f.name ++ ";") := by
  have hall (i : Injection) : declaresField (.line
      ("private readonly " ++ injectedType i.conversion ++ " _" ++ i.parameter ++ ";")) = true := by
    simp [declaresField, String.toList_append, List.isPrefixOf]
  rw [List.filter_eq_self.2 (by simpa using fun i _ => hall i), List.map_map]
  refine List.map_congr_left fun i _ => ?_
  rw [append_mark]
  rfl

theorem filter_assignments (given : List Injection) (ps : List ContentProperty) :
    (ps.map fun p => Code.Write.line (assignment given p)).filter declaresField = [] := by
  apply filter_map_line ps
  intro p
  unfold assignment
  generalize valueExpression p (fieldFor given p) = value
  simp [declaresField, String.toList_append, List.isPrefixOf]

/-! ### The whole step -/

theorem infix_block (header : String) (body : List Code.Write) :
    body <:+: Code.block header body := ⟨[.openBlock header], [.closeBlock Code.closeBrace], rfl⟩

theorem suffix_file (used : List String) (ns : String) (body : List Code.Write) :
    body <:+ Code.file used ns body :=
  (((List.suffix_append _ body).trans (List.suffix_append _ _)).trans
    (List.suffix_append _ _)).trans (List.suffix_append _ _)

theorem infix_stepClass (o : Options) (c : ContentClass) :
    ∃ front, front ++ stepConstructor c (injections c) ++ [.blank] ++ executeCode o c <:+:
      stepClass o c :=
  ⟨_, (infix_block "" _).trans ((List.suffix_cons _ _).isInfix.trans (suffix_file ..).isInfix)⟩

theorem stepCode (o : Options) (c : ContentClass) : StepCode o c where
  fields := by
    have hblank : (if (injections c).isEmpty then [] else [Code.Write.blank]).filter
        declaresField = [] := by
      split <;> rfl
    have hlast : [Code.Write.blank].filter declaresField = [] := rfl
    have hheader : ¬declaresField (.line ("public partial class " ++ c.stepName ++ " : " ++
        rooted (under o "Pipelines.ContentPipelineStep") ++ "<" ++ rooted c.fullName ++ ", " ++
        rooted (modelType o c) ++ ">")) = true := by
      simp [declaresField, String.toList_append, List.isPrefixOf]
    rw [stepClass, filter_file, List.filter_cons_of_neg hheader]
    simp only [filter_block, List.filter_append, filter_argumentFields, filter_converterFields,
      hblank, hlast, filter_stepConstructor, filter_assignments, List.append_nil]
  constructed := by
    obtain ⟨front, hwhole⟩ := infix_stepClass o c
    refine List.IsInfix.trans ⟨front, [.blank] ++ executeCode o c, ?_⟩ hwhole
    simp only [List.append_assoc]
  runs := by
    obtain ⟨front, hwhole⟩ := infix_stepClass o c
    exact (List.suffix_append _ _).isInfix.trans hwhole

/-! ### Names of fields and parameters -/

/-- No two converters of a class are told apart by the case of the first letter alone. -/
def Separate (c : ContentClass) : Prop :=
  ∀ a ∈ converterMembers c, ∀ b ∈ converterMembers c, ¬CaseTwins a.2 b.2

theorem conversions_injections (c : ContentClass) :
    (injections c).map (·.conversion) = c.conversions := by
  rw [injections, List.map_map]
  exact conversions_converterMembers c

theorem parameters_injections (c : ContentClass) :
    (injections c).map (·.parameter) = (converterNames c.conversions).map lowerFirst := by
  rw [injections, List.map_map, ← names_converterMembers, List.map_map]
  rfl

theorem mem_injections {c : ContentClass} {i : Injection} :
    i ∈ injections c ↔ ∃ m ∈ converterMembers c, i = ⟨m.1, lowerFirst m.2⟩ := by
  simp only [injections, List.mem_map, eq_comm]

theorem eq_of_conversion_eq {c : ContentClass} {i j : Injection} (hi : i ∈ injections c)
    (hj : j ∈ injections c) (h : i.conversion = j.conversion) : i = j := by
  have hnodup : ((injections c).map (·.conversion)).Nodup := by
    rw [conversions_injections]
    exact c.nodup_conversions
  exact List.inj_on_of_nodup_map hnodup hi hj h

theorem nodup_parameters_iff (c : ContentClass) :
    ((injections c).map (·.parameter)).Nodup ↔ Separate c := by
  rw [parameters_injections, List.nodup_map_iff_inj_on (nodup_converterNames _),
    ← names_converterMembers]
  constructor
  · intro hinj a ha b hb htwins
    have hlower := (lowerFirst_eq_iff (wordText_converterMembers ha)
      (wordText_converterMembers hb)).2 (Or.inr htwins)
    exact htwins.ne (hinj _ (List.mem_map_of_mem ha) _ (List.mem_map_of_mem hb) hlower)
  · intro hseparate x hx y hy hlower
    obtain ⟨a, ha, rfl⟩ := List.mem_map.1 hx
    obtain ⟨b, hb, rfl⟩ := List.mem_map.1 hy
    exact ((lowerFirst_eq_iff (wordText_converterMembers ha)
      (wordText_converterMembers hb)).1 hlower).resolve_right (hseparate a ha b hb)

theorem append_right_injective (front : String) : Function.Injective (front ++ ·) :=
  fun _ _ h => (String.append_right_inj front).1 h

theorem nodup_fieldNames_iff (c : ContentClass) :
    (((injections c).map converterField).map (·.name)).Nodup ↔ Separate c := by
  have hnames : ((injections c).map converterField).map (·.name) =
      ((injections c).map (·.parameter)).map ("_" ++ ·) := by
    rw [List.map_map, List.map_map]
    rfl
  rw [hnames, List.nodup_map_iff (append_right_injective "_"), nodup_parameters_iff]

/-! ### Fields that are declared once -/

theorem eq_singleton_iff {α : Type} {xs : List α} {a : α} (hnodup : xs.Nodup) (ha : a ∈ xs) :
    xs = [a] ↔ ∀ x ∈ xs, x = a := by
  constructor
  · rintro rfl x hx
    exact List.mem_singleton.1 hx
  · intro hall
    have hperm : xs.Perm [a] := (List.perm_ext_iff_of_nodup hnodup (List.nodup_singleton a)).2
      fun x => ⟨fun hx => List.mem_singleton.2 (hall x hx), fun hx => List.mem_singleton.1 hx ▸ ha⟩
    exact List.perm_singleton.1 hperm

theorem append_map_eq_singleton_iff {α β : Type} {f : α → β} {xs : List β} {ys : List α} {a : α}
    (ha : a ∈ ys) : xs ++ ys.map f = [f a] ↔ xs = [] ∧ ys = [a] := by
  constructor
  · intro h
    have hlength := congrArg List.length h
    have hpos := List.length_pos_of_mem ha
    simp only [List.length_append, List.length_map, List.length_singleton] at hlength
    refine ⟨List.eq_nil_of_length_eq_zero (by omega), ?_⟩
    obtain ⟨b, rfl⟩ := List.length_eq_one_iff.1 (show ys.length = 1 by omega)
    rw [List.mem_singleton.1 ha]
  · rintro ⟨rfl, rfl⟩
    rfl

theorem injections_named_iff {c : ContentClass} {k : Conversion} {member : String}
    (hm : (k, member) ∈ converterMembers c) :
    (injections c).filter (fun i => decide (i.parameter = lowerFirst member)) =
        [⟨k, lowerFirst member⟩] ↔
      ∀ other ∈ converterMembers c, ¬CaseTwins other.2 member := by
  have hnodup : (injections c).Nodup := by
    apply List.Nodup.of_map (·.conversion)
    rw [conversions_injections]
    exact c.nodup_conversions
  have hself : (⟨k, lowerFirst member⟩ : Injection) ∈ injections c := mem_injections.2 ⟨_, hm, rfl⟩
  have hnames : ((converterMembers c).map Prod.snd).Nodup := by
    rw [names_converterMembers]
    exact nodup_converterNames _
  rw [eq_singleton_iff (hnodup.filter _) (List.mem_filter.2 ⟨hself, by simp⟩)]
  constructor
  · intro hall other hother htwins
    have hlower := (lowerFirst_eq_iff (wordText_converterMembers hother)
      (wordText_converterMembers hm)).2 (Or.inr htwins)
    have hsame := hall ⟨other.1, lowerFirst other.2⟩
      (List.mem_filter.2 ⟨mem_injections.2 ⟨other, hother, rfl⟩, by simpa using hlower⟩)
    have hconversions : ((converterMembers c).map Prod.fst).Nodup := by
      rw [conversions_converterMembers]
      exact c.nodup_conversions
    have heq := List.inj_on_of_nodup_map hconversions hother hm (Injection.mk.inj hsame).1
    exact htwins.ne (congrArg Prod.snd heq)
  · intro hseparate i hi
    obtain ⟨hmem, hname⟩ := List.mem_filter.1 hi
    obtain ⟨other, hother, rfl⟩ := mem_injections.1 hmem
    have hlower : lowerFirst other.2 = lowerFirst member := by simpa using hname
    have hsame := ((lowerFirst_eq_iff (wordText_converterMembers hother)
      (wordText_converterMembers hm)).1 hlower).resolve_right (hseparate other hother)
    rw [List.inj_on_of_nodup_map hnames hother hm hsame]

theorem declared_once_iff {c : ContentClass} {k : Conversion} {member : String}
    (hm : (k, member) ∈ converterMembers c) :
    (stepFields c).filter (fun f => decide (f.name = "_" ++ lowerFirst member)) =
        [⟨injectedType k, "_" ++ lowerFirst member⟩] ↔
      (∀ other ∈ converterMembers c, ¬CaseTwins other.2 member) ∧
        ∀ q ∈ c.properties, q.config.isSome → configField q ≠ "_" ++ lowerFirst member := by
  have hconverters : ((injections c).map converterField).filter
        (fun f => decide (f.name = "_" ++ lowerFirst member)) =
      ((injections c).filter fun i => decide (i.parameter = lowerFirst member)).map
        converterField := by
    rw [List.filter_map]
    congr 1
    refine List.filter_congr fun i _ => decide_eq_decide.2 ?_
    exact (append_right_injective "_").eq_iff
  have harguments : (argumentFields c).filter
        (fun f => decide (f.name = "_" ++ lowerFirst member)) = [] ↔
      ∀ q ∈ c.properties, q.config.isSome → configField q ≠ "_" ++ lowerFirst member := by
    rw [argumentFields, List.filter_map, List.map_eq_nil_iff, List.filter_filter,
      List.filter_eq_nil_iff]
    refine forall₂_congr fun q _ => ?_
    rw [Bool.and_eq_true, not_and', Function.comp_apply, decide_eq_true_eq]
  have hself : (⟨k, lowerFirst member⟩ : Injection) ∈
      (injections c).filter fun i => decide (i.parameter = lowerFirst member) :=
    List.mem_filter.2 ⟨mem_injections.2 ⟨_, hm, rfl⟩, by simp⟩
  rw [stepFields, List.filter_append, hconverters, ← harguments, ← injections_named_iff hm,
    and_comm]
  exact append_map_eq_singleton_iff hself

theorem exists_member {c : ContentClass} {p : ContentProperty} (hp : p ∈ c.properties)
    (hconverted : p.conversion ≠ .copy) :
    ∃ member, (p.conversion, member) ∈ converterMembers c := by
  have hmem := ContentClass.mem_conversions.2 ⟨hconverted, p, hp, rfl⟩
  rw [← conversions_converterMembers] at hmem
  obtain ⟨⟨k, member⟩, hm, hk⟩ := List.mem_map.1 hmem
  exact ⟨member, hk ▸ hm⟩

theorem fieldFor_injections {c : ContentClass} {p : ContentProperty} {member : String}
    (hm : (p.conversion, member) ∈ converterMembers c) :
    fieldFor (injections c) p = some ("_" ++ lowerFirst member) := by
  have hself : (⟨p.conversion, lowerFirst member⟩ : Injection) ∈ injections c :=
    mem_injections.2 ⟨_, hm, rfl⟩
  unfold fieldFor
  cases hfind : (injections c).find? (·.conversion == p.conversion) with
  | none => exact absurd (List.find?_eq_none.1 hfind _ hself) (by simp)
  | some i =>
    have hconversion : i.conversion = p.conversion := by simpa using List.find?_some hfind
    rw [eq_of_conversion_eq (List.mem_of_find?_eq_some hfind) hself hconversion]
    rfl

/-- A step declares its fields and parameters under different names exactly where no two converters
of the class are told apart by the case of the first letter alone.  A property is converted by the
field of its own converter, and that is the only field of its name unless another converter is told
apart from this one in that way only, or the arguments of a property have the name. -/
theorem stepClass_fields (o : Options) (c : ContentClass) :
    StepCode o c ∧
    ((((injections c).map converterField).map (·.name)).Nodup ↔ Separate c) ∧
    (((injections c).map (·.parameter)).Nodup ↔ Separate c) ∧
    ∀ p ∈ c.properties, p.conversion ≠ .copy →
      ∃ member, (p.conversion, member) ∈ converterMembers c ∧
        assignment (injections c) p = "contentPipelineModel." ++ p.name ++ " = " ++
          valueExpression p (some ("_" ++ lowerFirst member)) ++ ";" ∧
        ((stepFields c).filter (fun f => decide (f.name = "_" ++ lowerFirst member)) =
            [⟨injectedType p.conversion, "_" ++ lowerFirst member⟩] ↔
          (∀ other ∈ converterMembers c, ¬CaseTwins other.2 member) ∧
            ∀ q ∈ c.properties, q.config.isSome → configField q ≠ "_" ++ lowerFirst member) := by
  refine ⟨stepCode o c, nodup_fieldNames_iff c, nodup_parameters_iff c, fun p hp hconverted => ?_⟩
  obtain ⟨member, hm⟩ := exists_member hp hconverted
  refine ⟨member, hm, ?_, declared_once_iff hm⟩
  exact congrArg (fun field => "contentPipelineModel." ++ p.name ++ " = " ++
    valueExpression p field ++ ";") (fieldFor_injections hm)

/-- A class with properties of two enumerations whose names differ in the case of a letter. -/
def twoColors : ContentClass :=
  ⟨"Page", ⟨1⟩, "Common", 0, "Site.Page",
    [.converted "Front" ⟨"string", false⟩ (.enumeration "Site.Color"),
      .converted "Back" ⟨"string", false⟩ (.enumeration "Site.color")]⟩

example : (injections twoColors).map (·.parameter) =
    ["colorEnumConverter", "colorEnumConverter"] := by decide

end ContentLoom.Generated

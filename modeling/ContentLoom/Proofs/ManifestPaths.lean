import ContentLoom.Command.Invocation
import ContentLoom.Files.Disk
import ContentLoom.Proofs.FolderActions

/-!
# Paths of manifests

The paths in a manifest are taken from the directory of its own file before they
are checked.  An empty path is therefore refused only where this directory is
written as nothing, in the working directory; anywhere else it becomes the path
of the directory itself.
-/

namespace ContentLoom

namespace Files

/-! ### Joined paths -/

theorem join_empty_left (path : String) : join "" path = path := by
  have hempty : path.toList.head? = some '/' ∨ ("" : String).toList = [] := .inr rfl
  rw [join, joinChars, if_pos hempty, String.ofList_toList]

/-- A directory with a slash at its end. -/
def slashed (directory : String) : String :=
  if directory.toList.getLast? = some '/' then directory else directory ++ "/"

theorem join_empty_right {directory : String} (h : directory ≠ "") :
    join directory "" = slashed directory := by
  have hchars : directory.toList ≠ [] := fun hnil => h (String.toList_inj.1 hnil)
  have hrelative : ¬(("" : String).toList.head? = some '/' ∨ directory.toList = []) := by
    rw [not_or]
    exact ⟨by decide, hchars⟩
  rw [join, joinChars, if_neg hrelative, slashed]
  split
  · exact String.toList_inj.1 (by simp)
  · exact String.toList_inj.1 (by simp)

theorem join_eq_empty_iff (directory path : String) :
    join directory path = "" ↔ directory = "" ∧ path = "" := by
  constructor
  · intro h
    have hchars : joinChars directory.toList path.toList = [] := by
      rw [← String.toList_ofList (l := joinChars _ _)]
      exact congrArg String.toList h
    unfold joinChars at hchars
    split at hchars
    · rename_i hpath
      have hnone : path.toList.head? ≠ some '/' := by simp [hchars]
      exact ⟨String.toList_inj.1 (hpath.resolve_left hnone), String.toList_inj.1 hchars⟩
    · rename_i hrelative
      split at hchars
      · exact absurd (.inr (List.append_eq_nil_iff.1 hchars).1) hrelative
      · exact absurd (List.append_eq_nil_iff.1 hchars).2 (List.cons_ne_nil _ _)
  · rintro ⟨rfl, rfl⟩
    exact join_empty_left ""

/-! ### The directory of a path -/

namespace Path

/-- The path names nothing, or it begins with its only name. -/
def InWorkingDirectory (p : Path) : Prop :=
  p.names = [] ∨ p.start = .plain ∧ ∃ name, p.names = [name]

theorem filter_dropWhile_idle (segments : List (List Char)) :
    (segments.dropWhile isIdle).filter (fun s => !isIdle s) =
      segments.filter fun s => !isIdle s := by
  induction segments with
  | nil => rfl
  | cons s segments ih =>
    by_cases hs : isIdle s = true
    · rw [List.dropWhile_cons_of_pos hs, ih, List.filter_cons_of_neg (by simp [hs])]
    · rw [List.dropWhile_cons_of_neg hs]

theorem not_idle_of_dropWhile {segments rest : List (List Char)} {s : List Char}
    (h : segments.dropWhile isIdle = s :: rest) : ¬isIdle s = true := by
  have hhead := List.head?_dropWhile_not isIdle segments
  rw [h] at hhead
  simpa using hhead

/-- What is left of a path without its last name has that much fewer names, and ends in the name
before it or with nothing. -/
theorem behind_cases (reversed : List (List Char)) :
    behind reversed = none ∧ reversed.filter (fun s => !isIdle s) = [] ∨
      ∃ name rest, behind reversed = some rest ∧
        reversed.filter (fun s => !isIdle s) = name :: rest.filter (fun s => !isIdle s) ∧
        (rest = [] ∨ ∃ last others, rest = last :: others ∧ ¬isIdle last = true) := by
  have hfilter := filter_dropWhile_idle reversed
  unfold behind
  cases hfront : reversed.dropWhile isIdle with
  | nil =>
    rw [hfront] at hfilter
    exact .inl ⟨rfl, hfilter.symm⟩
  | cons name front =>
    have hname := not_idle_of_dropWhile hfront
    rw [hfront, List.filter_cons_of_pos (by simp [hname])] at hfilter
    refine .inr ⟨name, front.dropWhile isIdle, rfl, ?_, ?_⟩
    · rw [← hfilter, filter_dropWhile_idle]
    · cases hrest : front.dropWhile isIdle with
      | nil => exact .inl rfl
      | cons last others => exact .inr ⟨last, others, rfl, not_idle_of_dropWhile hrest⟩

theorem names_reverse (p : Path) :
    p.segments.reverse.filter (fun s => !isIdle s) = p.names.reverse := List.filter_reverse

theorem intercalate_eq_nil_iff {segments : List (List Char)} :
    List.intercalate ['/'] segments = [] ↔ segments = [] ∨ segments = [[]] := by
  match segments with
  | [] => simp [List.intercalate]
  | [s] => simp [List.intercalate]
  | s :: next :: others => simp [List.intercalate, List.intersperse]

theorem text_eq_empty_iff (p : Path) :
    p.text = "" ↔ p.start = .plain ∧ (p.segments = [] ∨ p.segments = [[]]) := by
  have hchars : p.text = "" ↔ startChars p.start ++ List.intercalate ['/'] p.segments = [] := by
    rw [text, ← String.toList_inj, String.toList_ofList]
    rfl
  rw [hchars, List.append_eq_nil_iff, intercalate_eq_nil_iff]
  cases p.start <;> simp [startChars]

end Path

/-- The directory that a file is in, as it is written. -/
def directoryOf (path : String) : String := ((Path.ofText path).parent?.map Path.text).getD ""

theorem directoryOf_eq_empty_iff (path : String) :
    directoryOf path = "" ↔ (Path.ofText path).InWorkingDirectory := by
  unfold directoryOf
  generalize Path.ofText path = p
  have hnames := Path.names_reverse p
  unfold Path.parent? Path.InWorkingDirectory
  rcases Path.behind_cases p.segments.reverse with
    ⟨hnone, hempty⟩ | ⟨name, rest, hrest, hlast, hends⟩
  · have hnothing : p.names = [] := by
      rw [hempty] at hnames
      exact List.reverse_eq_nil_iff.1 hnames.symm
    simp only [hnone, hnothing, true_or, iff_true]
    split <;> rfl
  · rw [hlast] at hnames
    have hsome : p.names ≠ [] := by
      intro hnothing
      rw [hnothing] at hnames
      cases hnames
    simp only [hrest, Option.map_some, Option.getD_some, Path.text_eq_empty_iff, hsome, false_or]
    refine and_congr_right fun hplain => ?_
    rcases hends with rfl | ⟨last, others, rfl, hother⟩
    · simp only [List.reverse_nil, true_or, true_iff]
      exact ⟨name, List.reverse_inj.1 hnames.symm⟩
    · have hnonempty : last ≠ [] := fun hnil => hother (hnil ▸ rfl)
      constructor
      · rintro (h | h)
        · simp at h
        · rw [List.reverse_eq_iff, List.reverse_singleton, List.cons.injEq] at h
          exact absurd h.1 hnonempty
      · rintro ⟨only, honly⟩
        rw [honly, List.filter_cons_of_pos (by simp [hother])] at hnames
        cases hnames

end Files

/-! ### Manifests -/

namespace Manifest

open Files

/-- The paths of a manifest are taken from the directory of its file. -/
theorem locatedAt_eq (m : Manifest) (path : String) :
    m.locatedAt path = m.within (directoryOf path) := by
  unfold locatedAt directoryOf
  cases (Path.ofText path).parent? with
  | some directory => rfl
  | none =>
    have hsame : join "" = id := funext join_empty_left
    simp [within, hsame]

theorem validate_eq_ok_iff (m : Manifest) :
    m.validate = .ok () ↔
      m.options.validate = .ok () ∧ m.graph ≠ some "" ∧ m.output ≠ some "" := by
  unfold validate
  cases m.options.validate with
  | error failure => simp
  | ok =>
    simp only [true_and]
    by_cases hgraph : m.graph = some ""
    · simp [hgraph]
    · by_cases houtput : m.output = some "" <;> simp [hgraph, houtput]

theorem options_within (m : Manifest) (directory : String) :
    (m.within directory).options = m.options := rfl

theorem map_join_eq_empty_iff {directory : String} (path : Option String) :
    path.map (join directory) = some "" ↔ directory = "" ∧ path = some "" := by
  rw [Option.map_eq_some_iff]
  constructor
  · rintro ⟨written, rfl, h⟩
    obtain ⟨hdirectory, rfl⟩ := (join_eq_empty_iff directory written).1 h
    exact ⟨hdirectory, rfl⟩
  · rintro ⟨rfl, rfl⟩
    exact ⟨"", rfl, join_empty_left ""⟩

end Manifest

/-! ### Invocations -/

namespace Command

open Files

variable {σ : Type}

theorem merge_eq_ok_iff (flags : Flags) (manifest : Manifest) (i : Invocation) :
    Invocation.merge flags manifest = .ok i ↔
      (Invocation.optionsOf flags manifest).validate = .ok () ∧
      flags.input.or manifest.graph = some i.input ∧
      flags.output.or manifest.output = i.output ∧
      Invocation.optionsOf flags manifest = i.options := by
  unfold Invocation.merge
  simp only
  cases (Invocation.optionsOf flags manifest).validate with
  | error failure => simp
  | ok =>
    cases flags.input.or manifest.graph with
    | none => simp
    | some input =>
      obtain ⟨input', output', options'⟩ := i
      simp

theorem performOn_loadManifest {h : Host (StateM σ)} {path text : String} {state after : σ}
    (hread : h.readText path state = (.ok text, after)) {manifest : Manifest}
    (hmanifest : Manifest.ofText text = .ok manifest) :
    performOn (loadManifest h path) state =
      (match (manifest.within (directoryOf path)).validate with
        | .error refusal => .error (.manifestRefused refusal)
        | .ok () => .ok (manifest.within (directoryOf path)), after) := by
  have hload := performOn_attempt hread (.manifestUnreadable path)
  unfold loadManifest
  rw [performOn_bind_ok hload]
  simp only [hmanifest, Manifest.locatedAt_eq]
  cases (manifest.within (directoryOf path)).validate <;> rfl

theorem performOn_resolve {h : Host (StateM σ)} {flags : Flags} {path text : String}
    (hpath : flags.manifest = some path) {state after : σ}
    (hread : h.readText path state = (.ok text, after)) {manifest : Manifest}
    (hmanifest : Manifest.ofText text = .ok manifest) :
    performOn (Invocation.resolve h flags) state =
      (match (manifest.within (directoryOf path)).validate with
        | .error refusal => .error (.manifestRefused refusal)
        | .ok () => Invocation.merge flags (manifest.within (directoryOf path)), after) := by
  have hload := performOn_loadManifest hread hmanifest
  unfold Invocation.resolve
  simp only [hpath]
  cases hvalid : (manifest.within (directoryOf path)).validate with
  | error refusal =>
    rw [hvalid] at hload
    rw [performOn_bind_error hload]
  | ok =>
    rw [hvalid] at hload
    rw [performOn_bind_ok hload, performOn_mk_pure]

/-- A path of a manifest in a directory; an empty one is the path of the directory. -/
def pathFrom (directory path : String) : String :=
  if path = "" then slashed directory else join directory path

theorem join_eq_pathFrom {directory : String} (h : directory ≠ "") :
    join directory = pathFrom directory := by
  funext path
  unfold pathFrom
  split
  · rename_i hempty
    rw [hempty, join_empty_right h]
  · rfl

/-- The command line and a manifest in a directory give the invocation. -/
structure Gives (flags : Flags) (directory : String) (manifest : Manifest) (i : Invocation) :
    Prop where
  input : flags.input.or (manifest.graph.map (pathFrom directory)) = some i.input
  output : flags.output.or (manifest.output.map (pathFrom directory)) = i.output
  options : Invocation.optionsOf flags manifest = i.options

/-- A manifest with an empty path is refused if its own file is in the working directory.  Anywhere
else its options and the other path decide alone whether there is an invocation, in which the empty
path stands for the directory of the manifest. -/
theorem resolve_emptyPath (h : Host (StateM σ)) {flags : Flags} {path : String}
    (hpath : flags.manifest = some path) {state after : σ} {text : String}
    (hread : h.readText path state = (.ok text, after)) {manifest : Manifest}
    (hmanifest : Manifest.ofText text = .ok manifest)
    (hempty : manifest.graph = some "" ∨ manifest.output = some "") :
    ((Path.ofText path).InWorkingDirectory → ∃ refusal, manifest.validate = .error refusal ∧
      performOn (Invocation.resolve h flags) state = (.error (.manifestRefused refusal), after)) ∧
    (¬(Path.ofText path).InWorkingDirectory → ∀ i,
      performOn (Invocation.resolve h flags) state = (.ok i, after) ↔
        manifest.options.validate = .ok () ∧
        (Invocation.optionsOf flags manifest).validate = .ok () ∧
        Gives flags (directoryOf path) manifest i) := by
  have hrun := performOn_resolve hpath hread hmanifest
  rw [hrun, ← directoryOf_eq_empty_iff]
  constructor
  · intro hhere
    have hsame : manifest.within (directoryOf path) = manifest := by
      have hid : join "" = id := funext join_empty_left
      simp [hhere, Manifest.within, hid]
    rw [hsame]
    cases hvalid : manifest.validate with
    | error refusal => exact ⟨refusal, rfl, rfl⟩
    | ok =>
      obtain ⟨-, hgraph, houtput⟩ := (Manifest.validate_eq_ok_iff manifest).1 hvalid
      exact absurd hempty (not_or.2 ⟨hgraph, houtput⟩)
  · intro helsewhere i
    have hvalid : (manifest.within (directoryOf path)).validate = .ok () ↔
        manifest.options.validate = .ok () := by
      rw [Manifest.validate_eq_ok_iff, Manifest.options_within, and_iff_left]
      exact ⟨fun hgraph => helsewhere ((Manifest.map_join_eq_empty_iff _).1 hgraph).1,
        fun houtput => helsewhere ((Manifest.map_join_eq_empty_iff _).1 houtput).1⟩
    cases hoptions : (manifest.within (directoryOf path)).validate with
    | error refusal =>
      have hrefused : manifest.options.validate ≠ .ok () := by
        intro hok
        rw [hvalid.2 hok] at hoptions
        cases hoptions
      simp [hrefused]
    | ok =>
      rw [← hvalid, hoptions]
      simp only [Prod.mk.injEq, and_true, true_and, merge_eq_ok_iff]
      rw [Manifest.within, join_eq_pathFrom helsewhere]
      exact and_congr_right fun _ => ⟨fun ⟨hinput, houtput, hsame⟩ => ⟨hinput, houtput, hsame⟩,
        fun hgives => ⟨hgives.input, hgives.output, hgives.options⟩⟩

/-- A disk on which a manifest in a directory has an empty path for the graph. -/
def emptyGraphDisk : Disk where
  nodes := [(["work"], .directory), (["work", "conf"], .directory),
    (["work", "conf", "content-pipeline.toml"], .file "[input]\ngraph = \"\"\n")]
  here := ["work"]

/-- The directory of the manifest takes the place of the graph. -/
theorem resolve_emptyPath_inDirectory :
    let flags : Flags := ⟨none, none, some "conf/content-pipeline.toml", false, none⟩
    let machine : Disk.Machine := ⟨emptyGraphDisk, []⟩
    let manifest : Manifest := ⟨none, none, none, some "", none, .empty⟩
    Disk.host.readText "conf/content-pipeline.toml" machine =
      (.ok "[input]\ngraph = \"\"\n", machine) ∧
    Manifest.ofText "[input]\ngraph = \"\"\n" = .ok manifest ∧
    ¬(Path.ofText "conf/content-pipeline.toml").InWorkingDirectory ∧
    performOn (Invocation.resolve Disk.host flags) machine =
      (.ok ⟨"conf/", none, .standard⟩, machine) := by
  intro flags machine manifest
  have hread : Disk.host.readText "conf/content-pipeline.toml" machine =
      (.ok "[input]\ngraph = \"\"\n", machine) := by
    have htext : emptyGraphDisk.readText "conf/content-pipeline.toml" =
        .ok "[input]\ngraph = \"\"\n" := by decide
    rw [← htext]
    rfl
  have hmanifest : Manifest.ofText "[input]\ngraph = \"\"\n" = .ok manifest := by
    have hread : (Manifest.ofText "[input]\ngraph = \"\"\n").toOption = some manifest := by
      decide +kernel
    cases hresult : Manifest.ofText "[input]\ngraph = \"\"\n" with
    | error fault =>
      rw [hresult] at hread
      cases hread
    | ok found =>
      rw [hresult] at hread
      exact congrArg Except.ok (Option.some.inj hread)
  have helsewhere : ¬(Path.ofText "conf/content-pipeline.toml").InWorkingDirectory := by
    rw [← directoryOf_eq_empty_iff]
    decide
  refine ⟨hread, hmanifest, helsewhere, ?_⟩
  refine ((resolve_emptyPath Disk.host rfl hread hmanifest (.inl rfl)).2 helsewhere _).2 ?_
  exact ⟨by decide, by decide, by decide, by decide, by decide⟩

end Command

end ContentLoom

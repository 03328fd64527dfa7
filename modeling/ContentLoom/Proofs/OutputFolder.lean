import ContentLoom.Proofs.FolderRuns

/-!
# The output directory after a run

A run either is refused, and then leaves every file as it is, or it brings the
directory up to date: it writes the generated files and their record, removes
what an earlier record has and the new one has not, and leaves all other files
alone.  A directory that has been brought up to date is found clean, and
another run changes nothing.
-/

namespace ContentLoom.Command

open Files

variable (s : Surroundings) (i : Invocation)

/-! ### Generating -/

theorem remark_host (directory words : String) (files : FileMap) :
    (s.host directory).remark words files = ((), files) := rfl

/-- A whole run: nothing is changed before all that can refuse it has been asked. -/
theorem perform_generate {directory : String} (hdirectory : i.output = some directory)
    (files : FileMap) :
    perform (generate (s.host directory) i) files =
      match generated i (s.textAt directory files i.input) with
      | .error failure => (.error failure, files)
      | .ok result =>
        match s.made directory with
        | .error e => (.error (.outputDirectory directory e), files)
        | .ok () =>
          match texts.lockIn (join directory LockFile.fileName) files with
          | .error failure => (.error failure, files)
          | .ok previous =>
            (.ok ⟨result.artifacts.length, staleNames previous result.artifacts i.options⟩,
              texts.renewed files (staleNames previous result.artifacts i.options) result.artifacts
                i.options) :=
  performOn_generate hdirectory (fun words => remark_host s directory words files) rfl
    (keeps_folder s directory) rfl

/-! ### What is in the directory -/

/-- The directory holds the artifacts and their record, nothing more of what an earlier record had,
and all other files as they were. -/
structure Renewed (files : FileMap) (previous : Option LockFile) (artifacts : List Artifact)
    (o : Options) (after : FileMap) : Prop where
  written : ∀ a ∈ artifacts, after.get? a.fileName = some a.source
  recorded : after.get? LockFile.fileName = some (LockFile.ofArtifacts artifacts o).text
  removed : ∀ lock ∈ previous, ∀ name ∈ lock.files.names,
    name ∉ artifacts.map (·.fileName) → name ≠ LockFile.fileName → after.get? name = none
  kept : ∀ name, name ∉ artifacts.map (·.fileName) →
    (∀ lock ∈ previous, name ∉ lock.files.names) → name ≠ LockFile.fileName →
      after.get? name = files.get? name

theorem get?_renewed {artifacts : List Artifact} (hfiles : Generation.SideBySide artifacts)
    (files : FileMap) (removed : List String) (o : Options) (name : String) :
    (texts.renewed files removed artifacts o).get? name =
      if name = LockFile.fileName then some (LockFile.ofArtifacts artifacts o).text
      else (Entries.get? (artifacts.map fun a => (a.fileName, a.source)) name).or
        (if name ∈ removed then none else files.get? name) :=
  Medium.get?_renewed (μ := texts) hfiles files removed o name

theorem renewed_renewed {artifacts : List Artifact} (hfiles : Generation.SideBySide artifacts)
    (files : FileMap) (previous : Option LockFile) (o : Options) :
    Renewed files previous artifacts o
      (texts.renewed files (staleNames previous artifacts o) artifacts o) := by
  have hnone {name : String} (h : name ∉ artifacts.map (·.fileName)) :
      Entries.get? (artifacts.map fun a => (a.fileName, a.source)) name = none := by
    rw [← Option.not_isSome_iff_eq_none, Entries.isSome_get?, Entries.names, List.map_map]
    exact h
  refine ⟨fun a ha => ?_, ?_, fun lock hlock name hname hfresh hne => ?_,
    fun name hfresh hunrecorded hne => ?_⟩
  · have hget : Entries.get? (artifacts.map fun a => (a.fileName, a.source)) a.fileName =
        some a.source := by
      have hnodup : ((artifacts.map fun a => (a.fileName, a.source)).map Prod.fst).Nodup := by
        rw [List.map_map]
        exact hfiles.nodup
      exact Entries.get?_of_mem hnodup (List.mem_map_of_mem ha)
    rw [get?_renewed hfiles, if_neg (hfiles.ne_lock a ha), hget]
    rfl
  · rw [get?_renewed hfiles, if_pos rfl]
  · have hstale : name ∈ staleNames previous artifacts o :=
      (mem_staleNames previous artifacts o name).2 ⟨⟨lock, hlock, hname⟩, hfresh⟩
    rw [get?_renewed hfiles, if_neg hne, hnone hfresh, if_pos hstale]
    rfl
  · have hstale : name ∉ staleNames previous artifacts o := by
      rw [mem_staleNames]
      rintro ⟨⟨lock, hlock, hname⟩, -⟩
      exact hunrecorded lock hlock hname
    rw [get?_renewed hfiles, if_neg hne, hnone hfresh, if_neg hstale]
    rfl

/-! ### What refuses a run -/

/-- Why a run is refused: nothing can be generated, the reports have an error, or the directory or
its lock file is not as it has to be. -/
inductive Refused (files : FileMap) : Prop where
  | noDirectory (h : i.output = none)
  | noGraph (failure : CommandFailure)
    (h : graphAt i.input (s.textAt (i.output.getD "") files i.input) = .error failure)
  | failed (g : Graph) (failure : Failure)
    (hgraph : graphAt i.input (s.textAt (i.output.getD "") files i.input) = .ok g)
    (h : Generation.run g i.options false = .error failure)
  | reported (g : Graph) (result : Generation)
    (hgraph : graphAt i.input (s.textAt (i.output.getD "") files i.input) = .ok g)
    (hrun : Generation.run g i.options false = .ok result) (h : result.hasErrors = true)
  | unmade (e : FileError) (h : s.made (i.output.getD "") = .error e)
  | malformedLock (text : String) (fault : Json.Fault)
    (htext : files.get? LockFile.fileName = some text) (h : LockFile.ofText text = .error fault)
  | foreignName (text : String) (lock : LockFile) (name : String)
    (htext : files.get? LockFile.fileName = some text) (hlock : LockFile.ofText text = .ok lock)
    (hname : name ∈ lock.files.names) (h : Path.isPlainName name = false)

/-- The record that the files have: none without a lock file, else one whose names are all of files
in the directory itself. -/
def Recorded (files : FileMap) : Option LockFile → Prop
  | none => files.get? LockFile.fileName = none
  | some lock => ∃ text, files.get? LockFile.fileName = some text ∧
      LockFile.ofText text = .ok lock ∧ ∀ name ∈ lock.files.names, Path.isPlainName name = true

theorem Recorded.of_text {files : FileMap} {previous : Option LockFile}
    (h : Recorded files previous) {text : String}
    (htext : files.get? LockFile.fileName = some text) :
    ∃ lock, LockFile.ofText text = .ok lock ∧
      ∀ name ∈ lock.files.names, Path.isPlainName name = true := by
  cases previous with
  | none =>
    have hnone : files.get? LockFile.fileName = none := h
    rw [htext] at hnone
    cases hnone
  | some lock =>
    obtain ⟨found, hfound, hlock, hplain⟩ := h
    rw [htext] at hfound
    cases hfound
    exact ⟨lock, hlock, hplain⟩

theorem recorded_of_lockIn {path : String} {files : FileMap} {previous : Option LockFile}
    (h : texts.lockIn path files = .ok previous) : Recorded files previous := by
  unfold Medium.lockIn texts at h
  simp only at h
  split at h
  · rename_i hnone
    cases h
    exact hnone
  · rename_i text htext
    split at h
    · cases h
    · rename_i lock hlock
      split at h
      · cases h
      · rename_i hbad
        cases h
        refine ⟨text, htext, hlock, fun name hname => ?_⟩
        simpa using List.find?_eq_none.1 hbad name hname

theorem lockIn_of_recorded (path : String) {files : FileMap} {lock : LockFile}
    (h : Recorded files (some lock)) : texts.lockIn path files = .ok (some lock) := by
  obtain ⟨text, htext, hlock, hplain⟩ := h
  exact lockIn_of_content htext rfl hlock hplain path

theorem refused_of_lockIn {path : String} {files : FileMap} {failure : CommandFailure}
    (h : texts.lockIn path files = .error failure) : Refused s i files := by
  unfold Medium.lockIn texts at h
  simp only at h
  split at h
  · cases h
  · rename_i text htext
    split at h
    · rename_i fault hfault
      exact .malformedLock text fault htext hfault
    · rename_i lock hlock
      split at h
      · rename_i name hbad
        have hforeign := List.find?_some hbad
        exact .foreignName text lock name htext hlock (List.mem_of_find?_eq_some hbad)
          (by simpa using hforeign)
      · cases h

theorem refused_of_generated {files : FileMap} {failure : CommandFailure}
    (h : generated i (s.textAt (i.output.getD "") files i.input) = .error failure) :
    Refused s i files := by
  unfold generated at h
  split at h
  · rename_i failure hgraph
    exact .noGraph failure hgraph
  · rename_i g hgraph
    split at h
    · rename_i failure hrun
      exact .failed g failure hgraph hrun
    · rename_i result hrun
      simp only at h
      split at h
      · rename_i herrors
        exact .reported g result hgraph hrun ((hasErrors_iff result).2 herrors)
      · cases h

/-- What a run that succeeds has found, and what it leaves. -/
structure Succeeds (files : FileMap) (g : Graph) (result : Generation) (previous : Option LockFile)
    (after : FileMap) : Prop where
  output : i.output = some (i.output.getD "")
  made : s.made (i.output.getD "") = .ok ()
  graph : graphAt i.input (s.textAt (i.output.getD "") files i.input) = .ok g
  run : Generation.run g i.options false = .ok result
  clean : result.hasErrors = false
  recorded : Recorded files previous
  renewed : Renewed files previous result.artifacts i.options after

theorem Succeeds.not_refused {files after : FileMap} {g : Graph} {result : Generation}
    {previous : Option LockFile} (hrun : Succeeds s i files g result previous after) :
    ¬Refused s i files := by
  intro hrefused
  cases hrefused with
  | noDirectory h =>
    have houtput := hrun.output
    rw [h] at houtput
    cases houtput
  | noGraph failure h =>
    rw [hrun.graph] at h
    cases h
  | failed other failure hother h =>
    rw [hrun.graph] at hother
    cases hother
    rw [hrun.run] at h
    cases h
  | reported other found hother hfound h =>
    rw [hrun.graph] at hother
    cases hother
    rw [hrun.run] at hfound
    cases hfound
    rw [hrun.clean] at h
    cases h
  | unmade e h =>
    rw [hrun.made] at h
    cases h
  | malformedLock text fault htext h =>
    obtain ⟨lock, hlock, -⟩ := hrun.recorded.of_text htext
    rw [hlock] at h
    cases h
  | foreignName text lock name htext hlock hname h =>
    obtain ⟨found, hfound, hplain⟩ := hrun.recorded.of_text htext
    rw [hlock] at hfound
    cases hfound
    rw [hplain name hname] at h
    cases h

theorem refused_or_succeeds (files : FileMap) :
    (Refused s i files ∧ ∃ failure,
      perform (generate (s.host (i.output.getD "")) i) files = (.error failure, files)) ∨
    ∃ g result previous after, Succeeds s i files g result previous after ∧
      perform (generate (s.host (i.output.getD "")) i) files =
        (.ok ⟨result.artifacts.length, staleNames previous result.artifacts i.options⟩, after) := by
  rcases Option.eq_none_or_eq_some i.output with houtput | ⟨directory, houtput⟩
  · have hrefused : perform (ExceptT.mk (pure i.outputDirectory)) files =
        (.error .noOutput, files) := by
      rw [Invocation.outputDirectory, houtput]
      rfl
    refine Or.inl ⟨.noDirectory houtput, .noOutput, ?_⟩
    unfold generate
    rw [perform_bind_error hrefused]
  · have hdirectory : i.output = some (i.output.getD "") := by
      rw [houtput]
      rfl
    have hrun := perform_generate s i hdirectory files
    rw [hrun]
    cases hgenerated : generated i (s.textAt (i.output.getD "") files i.input) with
    | error failure => exact Or.inl ⟨refused_of_generated s i hgenerated, failure, rfl⟩
    | ok result =>
      simp only
      cases hmade : s.made (i.output.getD "") with
      | error e => exact Or.inl ⟨.unmade e hmade, _, rfl⟩
      | ok =>
        simp only
        cases hlock : texts.lockIn (join (i.output.getD "") LockFile.fileName) files with
        | error failure => exact Or.inl ⟨refused_of_lockIn s i hlock, failure, rfl⟩
        | ok previous =>
          obtain ⟨g, hgraph, hresult, hclean⟩ := (generated_eq_ok_iff i _ result).1 hgenerated
          have hrenewed := renewed_renewed (sideBySide_of_generated i hgenerated) files previous
            i.options
          exact Or.inr ⟨g, result, previous, _,
            ⟨hdirectory, hmade, hgraph, hresult, hclean, recorded_of_lockIn hlock, hrenewed⟩, rfl⟩

/-- Every run on a directory, whatever its files and its lock file are, is either refused and leaves
all files as they are, or is not refused and brings the directory up to date. -/
theorem generate_outcome (files : FileMap) :
    match perform (generate (s.host (i.output.getD "")) i) files with
    | (.error _, after) => Refused s i files ∧ after = files
    | (.ok summary, after) => ¬Refused s i files ∧
        ∃ g result previous,
          graphAt i.input (s.textAt (i.output.getD "") files i.input) = .ok g ∧
          Generation.run g i.options false = .ok result ∧ result.hasErrors = false ∧
          Recorded files previous ∧ summary.written = result.artifacts.length ∧
          Renewed files previous result.artifacts i.options after := by
  rcases refused_or_succeeds s i files with
    ⟨hrefused, failure, hrun⟩ | ⟨g, result, previous, after, hsucceeds, hrun⟩
  · rw [hrun]
    exact ⟨hrefused, rfl⟩
  · rw [hrun]
    exact ⟨hsucceeds.not_refused, g, result, previous, hsucceeds.graph, hsucceeds.run,
      hsucceeds.clean, hsucceeds.recorded, rfl, hsucceeds.renewed⟩

/-! ### Another run -/

/-- A directory that holds the artifacts and their record is what another run makes of it. -/
theorem renewed_eq_self {files after : FileMap} {previous : Option LockFile}
    {artifacts : List Artifact} (hfiles : Generation.SideBySide artifacts) {o : Options}
    (h : Renewed files previous artifacts o after) :
    texts.renewed after [] artifacts o = after := by
  apply Dictionary.ext_get?
  intro name
  rw [get?_renewed hfiles]
  by_cases hlock : name = LockFile.fileName
  · rw [if_pos hlock, hlock, h.recorded]
  · rw [if_neg hlock, if_neg List.not_mem_nil]
    cases hget : Entries.get? (artifacts.map fun a => (a.fileName, a.source)) name with
    | none => rfl
    | some source =>
      obtain ⟨a, ha, hentry⟩ := List.mem_map.1 (Entries.mem_of_get? hget)
      cases hentry
      rw [h.written a ha]
      rfl

theorem recorded_ofArtifacts {artifacts : List Artifact}
    (hfiles : Generation.SideBySide artifacts) {o : Options} {files : FileMap}
    (htext : files.get? LockFile.fileName = some (LockFile.ofArtifacts artifacts o).text) :
    Recorded files (some (LockFile.ofArtifacts artifacts o)) :=
  ⟨_, htext, LockFile.ofText_text _, fun _ => LockFile.isPlainName_of_mem_ofArtifacts hfiles⟩

theorem recorded_of_renewed {files after : FileMap} {previous : Option LockFile}
    {artifacts : List Artifact} (hfiles : Generation.SideBySide artifacts) {o : Options}
    (h : Renewed files previous artifacts o after) :
    Recorded after (some (LockFile.ofArtifacts artifacts o)) :=
  recorded_ofArtifacts hfiles h.recorded

theorem perform_compareOutput_renewed {files after : FileMap} {previous : Option LockFile}
    {artifacts : List Artifact} (hfiles : Generation.SideBySide artifacts) {o : Options}
    (h : Renewed files previous artifacts o after) (directory : String) :
    perform (compareOutput (s.folder directory) o artifacts) after =
      (.ok ⟨[], [], [], artifacts.length⟩, after) := by
  have hlock := lockIn_of_recorded (join directory LockFile.fileName)
    (recorded_of_renewed hfiles h)
  have hstale : staleNames (some (LockFile.ofArtifacts artifacts o)) artifacts o = [] :=
    LockFile.staleFiles_self _
  obtain ⟨hmissing, hchanged⟩ := differing_of_written (μ := texts) (fun _ => rfl) h.written
  rw [perform_compareOutput s directory hlock hfiles.plain, hmissing, hchanged, hstale,
    List.filter_nil]

theorem perform_generate_again {directory : String} (hdirectory : i.output = some directory)
    {files after : FileMap} {previous : Option LockFile} {result : Generation}
    (hmade : s.made directory = .ok ())
    (hgenerated : generated i (s.textAt directory after i.input) = .ok result)
    (h : Renewed files previous result.artifacts i.options after) :
    perform (generate (s.host directory) i) after =
      (.ok ⟨result.artifacts.length, []⟩, after) := by
  have hfiles := sideBySide_of_generated i hgenerated
  have hlock := lockIn_of_recorded (join directory LockFile.fileName)
    (recorded_of_renewed hfiles h)
  have hstale : staleNames (some (LockFile.ofArtifacts result.artifacts i.options))
      result.artifacts i.options = [] := LockFile.staleFiles_self _
  rw [perform_generate s i hdirectory, hgenerated]
  simp only [hmade, hlock, hstale, renewed_eq_self hfiles h]

theorem perform_compare_of_generated {directory : String} (hdirectory : i.output = some directory)
    {files : FileMap} {result : Generation}
    (hgenerated : generated i (s.textAt directory files i.input) = .ok result) :
    perform (compare (s.host directory) i) files =
      perform (compareOutput (s.folder directory) i.options result.artifacts) files :=
  performOn_compare hdirectory (fun words => remark_host s directory words files) rfl hgenerated

theorem perform_compare {directory : String} (hdirectory : i.output = some directory)
    {files after : FileMap} {previous : Option LockFile} {result : Generation}
    (hgenerated : generated i (s.textAt directory after i.input) = .ok result)
    (h : Renewed files previous result.artifacts i.options after) :
    perform (compare (s.host directory) i) after =
      (.ok ⟨[], [], [], result.artifacts.length⟩, after) := by
  rw [perform_compare_of_generated s i hdirectory hgenerated]
  exact perform_compareOutput_renewed s (sideBySide_of_generated i hgenerated) h directory

/-- After a run that was not refused, and as long as the text of the graph stays as it is, the
directory is found clean, and another run removes nothing and leaves every file as it is. -/
theorem generate_settles {files after : FileMap} {summary : Summary}
    (hrun : perform (generate (s.host (i.output.getD "")) i) files = (.ok summary, after))
    (hinput : s.textAt (i.output.getD "") after i.input =
      s.textAt (i.output.getD "") files i.input) :
    (∃ drift, perform (compare (s.host (i.output.getD "")) i) after = (.ok drift, after) ∧
        drift.isClean = true) ∧
      perform (generate (s.host (i.output.getD "")) i) after =
        (.ok ⟨summary.written, []⟩, after) := by
  rcases refused_or_succeeds s i files with
    ⟨-, failure, hrefused⟩ | ⟨g, result, previous, found, hsucceeds, hfound⟩
  · rw [hrefused] at hrun
    cases hrun
  · rw [hfound] at hrun
    cases hrun
    have hgenerated : generated i (s.textAt (i.output.getD "") after i.input) = .ok result := by
      rw [hinput]
      exact (generated_eq_ok_iff i _ result).2
        ⟨g, hsucceeds.graph, hsucceeds.run, hsucceeds.clean⟩
    exact ⟨⟨_, perform_compare s i hsucceeds.output hgenerated hsucceeds.renewed, rfl⟩,
      perform_generate_again s i hsucceeds.output hsucceeds.made hgenerated hsucceeds.renewed⟩

/-- An invocation on an empty graph. -/
def emptyInvocation : Invocation := ⟨"graph.json", some "out", .standard⟩

/-- A machine on which every graph is empty. -/
def emptySurroundings : Surroundings := ⟨fun _ => .ok "{}", fun _ => .ok ()⟩

/-- A file of an earlier run, with the record of that run. -/
def earlierFiles : FileMap :=
  (Dictionary.empty.insert "Old.g.cs" "old").insert LockFile.fileName
    (LockFile.mk generatorVersion "ContentPipeline"
      (Dictionary.empty.insert "Old.g.cs" (Checksum.ofText "old"))).text

theorem run_empty : ∃ result, Generation.run ⟨[]⟩ .standard false = .ok result ∧
    result.hasErrors = false ∧ result.artifacts = Generated.allFiles .standard [] := by
  have hvalid : Options.standard.validate = .ok () := by rfl
  have hclasses : Resolution.runClasses ⟨[]⟩ .standard = [] := List.mergeSort_nil
  have hdeclared : Resolution.declaredClasses ⟨[]⟩ = [] := List.mergeSort_nil
  have hreports : Resolution.graphReports ⟨[]⟩ = [] := by
    rw [Resolution.graphReports, hdeclared]
    rfl
  have hrun := Generation.run_of_valid ⟨[]⟩ .standard hvalid
  rw [Generated.artifacts_eq, hclasses, hreports] at hrun
  exact ⟨_, hrun, rfl, rfl⟩

theorem generate_settles_earlierFiles :
    ∃ summary after,
      perform (generate (emptySurroundings.host "out") emptyInvocation) earlierFiles =
        (.ok summary, after) ∧
      emptySurroundings.textAt "out" after "graph.json" =
        emptySurroundings.textAt "out" earlierFiles "graph.json" ∧
      (∃ drift, perform (compare (emptySurroundings.host "out") emptyInvocation) after =
        (.ok drift, after) ∧ drift.isClean = true) ∧
      perform (generate (emptySurroundings.host "out") emptyInvocation) after =
        (.ok ⟨summary.written, []⟩, after) := by
  have hinput (files : FileMap) :
      emptySurroundings.textAt "out" files "graph.json" = .ok "{}" :=
    textAt_of_outside emptySurroundings (by decide) files
  have hgraph : graphAt "graph.json" (.ok "{}") = .ok ⟨[]⟩ := by rfl
  obtain ⟨result, hresult, hclean, -⟩ := run_empty
  have hgenerated : generated emptyInvocation (emptySurroundings.textAt "out" earlierFiles
      emptyInvocation.input) = .ok result := by
    have hloaded := (congrArg (graphAt "graph.json") (hinput earlierFiles)).trans hgraph
    exact (generated_eq_ok_iff emptyInvocation _ result).2 ⟨⟨[]⟩, hloaded, hresult, hclean⟩
  have hrecorded : Recorded earlierFiles (some (LockFile.mk generatorVersion "ContentPipeline"
      (Dictionary.empty.insert "Old.g.cs" (Checksum.ofText "old")))) := by
    refine ⟨_, ?_, LockFile.ofText_text _, ?_⟩
    · rw [earlierFiles, Dictionary.get?_insert, if_pos rfl]
    · intro name hname
      obtain rfl : name = "Old.g.cs" := List.mem_singleton.1 hname
      decide
  have hrun := perform_generate emptySurroundings emptyInvocation rfl earlierFiles
  rw [hgenerated] at hrun
  have hmade : emptySurroundings.made "out" = .ok () := rfl
  rw [hmade, lockIn_of_recorded _ hrecorded] at hrun
  have hsame (files : FileMap) : emptySurroundings.textAt "out" files "graph.json" =
      emptySurroundings.textAt "out" earlierFiles "graph.json" :=
    (hinput files).trans (hinput earlierFiles).symm
  exact ⟨_, _, hrun, hsame _, generate_settles emptySurroundings emptyInvocation hrun (hsame _)⟩

end ContentLoom.Command

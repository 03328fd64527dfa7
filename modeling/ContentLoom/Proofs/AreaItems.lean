import ContentLoom.Pipeline.Service
import ContentLoom.Proofs.RunsInTurn

/-!
# Items of content areas

A content area becomes the models of its entries.  Entries whose item is not
found are left out wherever they stand; the items of the others are run in turn,
and their models stand beside the display options in the order of the entries.
The first run that fails is the failure of the whole area.
-/

namespace ContentLoom.Pipeline

variable {σ : Type}

/-- An entry of an area with the item that was found for it. -/
structure Loaded where
  displayOption : Option String
  item : ContentItem

/-- The entries of an area whose items are found, in the order of the area. -/
def loaded (site : Site) (language : Option String) (entries : List AreaEntry) : List Loaded :=
  entries.filterMap fun e => (site.load e.reference language).map fun item =>
    ⟨e.displayOption, item⟩

/-- The entry with a model in place of the item. -/
def Loaded.withModel (e : Loaded) (model : PipelineModel) : AreaModel :=
  ⟨e.displayOption, some model⟩

theorem loaded_of_none {site : Site} {language : Option String} {e : AreaEntry}
    (h : site.load e.reference language = none) (entries : List AreaEntry) :
    loaded site language (e :: entries) = loaded site language entries := by
  rw [loaded, List.filterMap_cons, h]
  rfl

theorem loaded_of_some {site : Site} {language : Option String} {e : AreaEntry}
    {item : ContentItem} (h : site.load e.reference language = some item)
    (entries : List AreaEntry) :
    loaded site language (e :: entries) =
      ⟨e.displayOption, item⟩ :: loaded site language entries := by
  rw [loaded, List.filterMap_cons, h]
  rfl

/-- The entries are run in turn, and nothing is run for those without an item. -/
theorem areaModels_eq (site : Site) (context : Context σ) (entries : List AreaEntry) :
    areaModels site context entries =
      ((loaded site context.language entries).mapM fun e => context.nested e.item) >>= fun models =>
        pure ((loaded site context.language entries).zipWith Loaded.withModel models) := by
  induction entries with
  | nil => rfl
  | cons e entries ih =>
    rw [areaModels]
    cases hload : site.load e.reference context.language with
    | none =>
      rw [loaded_of_none hload]
      exact ih
    | some item =>
      simp only [loaded_of_some hload, List.mapM_cons, ih, bind_assoc, pure_bind,
        List.zipWith_cons_cons]
      rfl

/-- The pipeline of an item nested in another is run one level deeper, down to the limit. -/
theorem nested_contextAbove (s : Service σ) (language : Option String) (room : Nat)
    (item : ContentItem) :
    (s.contextAbove language room).nested item =
      if room = 0 then throw (.recursionLimit s.maxDepth)
      else s.runIn .immediate (s.contextAbove language (room - 1)) item := by
  cases room with
  | zero => rfl
  | succ room =>
    rw [if_neg (Nat.succ_ne_zero room), Nat.add_sub_cancel, ← Service.runAbove_eq_runIn]
    rfl

/-- Whatever a site finds and whatever the nested runs do: an area is converted exactly where the
runs of all items found for its entries succeed in turn, into one entry for each of them, in order,
with its display option and its model; it fails exactly as the first of these runs that fails. -/
theorem contentArea_converts (site : Site) (context : Context σ) (r : Request)
    (entries : List AreaEntry) (start : σ) :
    (∀ value last,
      ((contentAreaConverter site).convert context r (.area entries)).run.run start =
          (.ok value, last) ↔
        ∃ models, InTurn (fun e => context.nested e.item) (loaded site context.language entries)
            start models last ∧
          models.length = (loaded site context.language entries).length ∧
          value = .area ((loaded site context.language entries).zipWith Loaded.withModel models)) ∧
    (∀ failure last,
      ((contentAreaConverter site).convert context r (.area entries)).run.run start =
          (.error failure, last) ↔
        FailsInTurn (fun e => context.nested e.item) (loaded site context.language entries)
          start failure last) ∧
    ∀ (s : Service σ) (language : Option String) (room : Nat) (item : ContentItem),
      (s.contextAbove language room).nested item =
        if room = 0 then throw (.recursionLimit s.maxDepth)
        else s.runIn .immediate (s.contextAbove language (room - 1)) item := by
  have hconvert : (contentAreaConverter site).convert context r (.area entries) =
      areaModels site context entries >>= fun models => pure (.area models) := rfl
  rw [hconvert, areaModels_eq]
  refine ⟨fun value last => ?_, fun failure last => ?_, nested_contextAbove⟩
  · simp only [Run.bind_pure_ok_iff, mapM_ok_iff]
    constructor
    · rintro ⟨areas, ⟨models, hmodels, rfl⟩, rfl⟩
      exact ⟨models, hmodels, hmodels.length_eq, rfl⟩
    · rintro ⟨models, hmodels, -, rfl⟩
      exact ⟨_, ⟨models, hmodels, rfl⟩, rfl⟩
  · simp only [Run.bind_pure_error_iff, mapM_error_iff]

end ContentLoom.Pipeline

import ContentLoom.Pipeline.Known
import Mathlib.Data.List.TakeWhile

/-!
# Where links lead

A store keeps its addresses by increasing references.  A reference therefore has
one address, and a relative address leads to the least reference that is
published there.  A link that leads to an item has the address of the item,
which is its own address without query and fragment; any other link keeps its
address as it is written.  Converting a link a second time changes nothing.
-/

namespace ContentLoom

/-! ### Values by reference -/

theorem ContentReference.isEmpty_eq_false_iff {r : ContentReference} :
    r.isEmpty = false ↔ r ≠ .empty := by
  rw [isEmpty, beq_eq_false_iff_ne, not_iff_not]
  exact ⟨congrArg ContentReference.mk, congrArg ContentReference.id⟩

namespace ByReference

variable {α : Type}

/-- The references increase. -/
def Increasing (values : ByReference α) : Prop := values.Pairwise fun a b => a.1.id < b.1.id

theorem mem_insert {values : ByReference α} {r : ContentReference} {value : α}
    {e : ContentReference × α} (h : e ∈ insert values r value) : e = (r, value) ∨ e ∈ values := by
  induction values with
  | nil => exact .inl (List.mem_singleton.1 h)
  | cons first rest ih =>
    obtain ⟨k, v⟩ := first
    unfold insert at h
    split at h
    · exact (List.mem_cons.1 h).imp_right (List.mem_cons_of_mem _)
    · split at h
      · exact List.mem_cons.1 h
      · rcases List.mem_cons.1 h with rfl | hrest
        · exact .inr List.mem_cons_self
        · exact (ih hrest).imp_right (List.mem_cons_of_mem _)

theorem Increasing.insert {values : ByReference α} (h : Increasing values) (r : ContentReference)
    (value : α) : Increasing (ByReference.insert values r value) := by
  induction values with
  | nil => exact List.pairwise_singleton _ _
  | cons first rest ih =>
    obtain ⟨k, v⟩ := first
    obtain ⟨hfirst, hrest⟩ := List.pairwise_cons.1 h
    unfold ByReference.insert
    split
    · rename_i hsame
      subst hsame
      exact List.pairwise_cons.2 ⟨hfirst, hrest⟩
    · rename_i hother
      split
      · rename_i hless
        refine List.pairwise_cons.2 ⟨fun e he => ?_, h⟩
        rcases List.mem_cons.1 he with rfl | he
        · exact hless
        · exact UInt64.lt_trans hless (hfirst e he)
      · rename_i hnotLess
        refine List.pairwise_cons.2 ⟨fun e he => ?_, ih hrest⟩
        rcases mem_insert he with rfl | he
        · have hne : k.id ≠ r.id := fun hid => hother (congrArg ContentReference.mk hid)
          exact UInt64.lt_of_le_of_ne (UInt64.not_lt.1 hnotLess) hne
        · exact hfirst e he

theorem mem_of_get? {values : ByReference α} {r : ContentReference} {value : α}
    (h : get? values r = some value) : (r, value) ∈ values := by
  obtain ⟨before, after, rfl, -⟩ := List.lookup_eq_some_iff.1 h
  exact List.mem_append_right _ List.mem_cons_self

theorem Increasing.get?_of_mem {values : ByReference α} (h : Increasing values)
    {r : ContentReference} {value : α} (hmem : (r, value) ∈ values) :
    get? values r = some value := by
  obtain ⟨before, after, rfl⟩ := List.append_of_mem hmem
  refine List.lookup_eq_some_iff.2 ⟨before, after, rfl, fun e he => ?_⟩
  have hless : e.1.id < r.id := (List.pairwise_append.1 h).2.2 e he _ List.mem_cons_self
  rw [bne_iff_ne]
  rintro rfl
  exact UInt64.lt_irrefl _ hless

end ByReference

/-! ### Stores -/

namespace ContentStore

/-- What can be done to a store. -/
inductive Change where
  | insert (item : ContentItem)
  | publish (item : ContentItem) (address : String)

/-- A store after a change. -/
def change (s : ContentStore) : Change → ContentStore
  | .insert item => s.insert item
  | .publish item address => s.publish item address

/-- The store that some changes make of the one without content. -/
def ofChanges (changes : List Change) : ContentStore := changes.foldl change empty

theorem increasing_change {s : ContentStore} (h : s.addresses.Increasing) (c : Change) :
    (s.change c).addresses.Increasing := by
  cases c with
  | insert item => exact h
  | publish item address => exact h.insert item.reference address

theorem increasing_ofChanges (changes : List Change) :
    (ofChanges changes).addresses.Increasing := by
  unfold ofChanges
  have hempty : empty.addresses.Increasing := List.Pairwise.nil
  generalize empty = s at hempty ⊢
  induction changes generalizing s with
  | nil => exact hempty
  | cons c changes ih => exact ih _ (increasing_change hempty c)

theorem path_path (address : String) : path (path address) = path address := by
  unfold path
  rw [String.toList_ofList, List.takeWhile_idem]

section

variable {s : ContentStore} {address : String} {r : ContentReference}

theorem route?_ne_none (h : s.addressOf? r = some (path address)) : s.route? address ≠ none := by
  intro hnone
  have hother := List.find?_eq_none.1 (Option.map_eq_none_iff.1 hnone) _
    (ByReference.mem_of_get? h)
  simp at hother

/-- An address leads to the least of the references that are published there. -/
theorem least_of_route? (hs : s.addresses.Increasing) (h : s.route? address = some r) :
    s.addressOf? r = some (path address) ∧
      ∀ other, s.addressOf? other = some (path address) → r.id ≤ other.id := by
  obtain ⟨⟨found, published⟩, hfind, rfl⟩ := Option.map_eq_some_iff.1 h
  obtain ⟨hhere, before, after, hsplit, hbefore⟩ := List.find?_eq_some_iff_append.1 hfind
  obtain rfl : published = path address := by simpa using hhere
  have hmem : (found, path address) ∈ s.addresses := by
    rw [hsplit]
    exact List.mem_append_right _ List.mem_cons_self
  refine ⟨hs.get?_of_mem hmem, fun other hother => ?_⟩
  have hentry := ByReference.mem_of_get? hother
  rw [hsplit, List.mem_append, List.mem_cons] at hentry
  -- an entry before the found one has another address, and one behind it a greater reference
  rcases hentry with hentry | hentry | hentry
  · simpa using hbefore _ hentry
  · cases hentry
    exact UInt64.le_refl _
  · rw [ByReference.Increasing, hsplit, List.pairwise_append, List.pairwise_cons] at hs
    exact UInt64.le_of_lt (hs.2.1.1 _ hentry)

end

end ContentStore

/-! ### Links -/

namespace Pipeline

/-- The address becomes a link to the target, whether it is given as an address or as a text. -/
def LinksTo (site : Site) (address target : String) : Prop :=
  ∀ (σ : Type) (context : Context σ) (r : Request) (value : ContentValue),
    value = .url address ∨ value = .text address →
      (linkConverter site).convert context r value = pure (.link (some target))

theorem linksTo_of_friendlyAddress {site : Site} {address target : String}
    (h : ∀ language, friendlyAddress site language address = target) :
    LinksTo site address target := by
  intro σ context r value hvalue
  rw [← h context.language]
  rcases hvalue with rfl | rfl <;> rfl

/-- The address has no scheme, and what is left of it without query and fragment is an address at
which items are published, but not the empty reference, which would come first among them. -/
structure LeadsToItem (s : ContentStore) (address : String) : Prop where
  relative : isAbsolute address.toList = false
  nonempty : ContentStore.path address ≠ ""
  published : ∃ r, s.addressOf? r = some (ContentStore.path address)
  notNothing : s.addressOf? .empty ≠ some (ContentStore.path address)

theorem friendlyAddress_of_absolute (site : Site) (language : Option String) {address : String}
    (h : isAbsolute address.toList = true) : friendlyAddress site language address = address :=
  if_pos h

section

variable {s : ContentStore} (hs : s.addresses.Increasing) (language : Option String)
include hs

theorem exists_route?_iff {address : String} :
    (∃ r, s.route? address = some r ∧ r ≠ .empty) ↔
      (∃ r, s.addressOf? r = some (ContentStore.path address)) ∧
        s.addressOf? .empty ≠ some (ContentStore.path address) := by
  constructor
  · rintro ⟨r, hroute, hr⟩
    obtain ⟨hpublished, hleast⟩ := ContentStore.least_of_route? hs hroute
    refine ⟨⟨r, hpublished⟩, fun hnothing => hr ?_⟩
    have hid : r.id = 0 := UInt64.le_zero_iff.1 (hleast _ hnothing)
    exact congrArg ContentReference.mk hid
  · rintro ⟨⟨r, hpublished⟩, hnothing⟩
    obtain ⟨found, hroute⟩ :=
      Option.ne_none_iff_exists'.1 (ContentStore.route?_ne_none hpublished)
    refine ⟨found, hroute, ?_⟩
    rintro rfl
    exact hnothing (ContentStore.least_of_route? hs hroute).1

/-- A relative address is exchanged for that of the item it leads to, which is its own path. -/
theorem friendlyAddress_of_relative {address : String} (h : isAbsolute address.toList = false) :
    friendlyAddress (.ofStore s) language address =
      if (∃ r, s.route? address = some r ∧ r ≠ .empty) ∧ ContentStore.path address ≠ "" then
        ContentStore.path address
      else address := by
  have hsite : (Site.ofStore s).route address = s.route? address := rfl
  unfold friendlyAddress
  rw [if_neg (by simp [h]), hsite]
  cases hroute : s.route? address with
  | none => simp
  | some r =>
    have haddress : (Site.ofStore s).addressOf r language = some (ContentStore.path address) :=
      (ContentStore.least_of_route? hs hroute).1
    simp only [haddress, Option.some.injEq, exists_eq_left']
    by_cases hr : r = .empty
    · simp [hr, ContentReference.isEmpty, ContentReference.empty]
    · by_cases hpath : ContentStore.path address = ""
      · simp [ContentReference.isEmpty_eq_false_iff.2 hr, hpath]
      · simp [ContentReference.isEmpty_eq_false_iff.2 hr, hpath, hr]

theorem friendlyAddress_of_leads {address : String} (h : LeadsToItem s address) :
    friendlyAddress (.ofStore s) language address = ContentStore.path address := by
  rw [friendlyAddress_of_relative hs language h.relative, if_pos]
  exact ⟨(exists_route?_iff hs).2 ⟨h.published, h.notNothing⟩, h.nonempty⟩

theorem friendlyAddress_of_not_leads {address : String} (h : ¬LeadsToItem s address) :
    friendlyAddress (.ofStore s) language address = address := by
  by_cases habsolute : isAbsolute address.toList = true
  · exact friendlyAddress_of_absolute _ language habsolute
  · have hrelative : isAbsolute address.toList = false := by simpa using habsolute
    rw [friendlyAddress_of_relative hs language hrelative, if_neg]
    rintro ⟨hroute, hpath⟩
    obtain ⟨hpublished, hnothing⟩ := (exists_route?_iff hs).1 hroute
    exact h ⟨hrelative, hpath, hpublished, hnothing⟩

/-- A path has neither query nor fragment, so it leads to itself, whether to an item or not. -/
theorem friendlyAddress_path (address : String) :
    friendlyAddress (.ofStore s) language (ContentStore.path address) =
      ContentStore.path address := by
  by_cases h : LeadsToItem s (ContentStore.path address)
  · rw [friendlyAddress_of_leads hs language h, ContentStore.path_path]
  · exact friendlyAddress_of_not_leads hs language h

end

/-- Whatever is published in a store, an address becomes a link with a target: its path where it
leads to an item, and itself elsewhere, so also where it has a scheme.  The target is linked to
itself. -/
theorem linkConverter_settles (changes : List ContentStore.Change) (address : String) :
    ∃ target, LinksTo (.ofStore (.ofChanges changes)) address target ∧
      LinksTo (.ofStore (.ofChanges changes)) target target ∧
      (isAbsolute address.toList = true → target = address) ∧
      (LeadsToItem (.ofChanges changes) address → target = ContentStore.path address) ∧
      (¬LeadsToItem (.ofChanges changes) address → target = address) := by
  have hs := ContentStore.increasing_ofChanges changes
  by_cases h : LeadsToItem (.ofChanges changes) address
  · refine ⟨ContentStore.path address, ?_, ?_, fun habsolute => ?_, fun _ => rfl,
      fun hnot => absurd h hnot⟩
    · exact linksTo_of_friendlyAddress fun language => friendlyAddress_of_leads hs language h
    · exact linksTo_of_friendlyAddress fun language => friendlyAddress_path hs language address
    · rw [h.relative] at habsolute
      cases habsolute
  · have hkept := linksTo_of_friendlyAddress fun language =>
      friendlyAddress_of_not_leads hs language h
    exact ⟨address, hkept, hkept, fun _ => rfl, fun hleads => absurd hleads h, fun _ => rfl⟩

example :
    let s := ContentStore.ofChanges [.publish ⟨"Page", ⟨7⟩, []⟩ "/en/",
      .publish ⟨"Page", ⟨5⟩, []⟩ "/en/", .publish ⟨"Page", .empty, []⟩ "/"]
    ["/en/?page=2#top", "/?page=2", "mailto:a@example.com", "#top"].map
        (friendlyAddress (.ofStore s) none) =
      ["/en/", "/?page=2", "mailto:a@example.com", "#top"] := by decide

end Pipeline

end ContentLoom

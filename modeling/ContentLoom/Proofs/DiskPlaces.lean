import ContentLoom.Proofs.ChildNames

/-!
# Places on a disk

An operation on a path of a disk concerns the one place that the path leads to,
and succeeds only if all places on the way are directories.  For a name in a
directory this place is right below that of the directory.  Files come and go at
such a place without any change to the directories, so no other path leads
elsewhere afterwards.
-/

namespace ContentLoom.Files.Disk

open Json.Document (bind_eq_ok_iff)

/-! ### Nodes -/

/-- There is a file at the place. -/
def HasFile (d : Disk) (place : Place) : Prop := ∃ text, d.node? place = some (.file text)

/-- The disk without what is at a place. -/
def without (d : Disk) (place : Place) : Disk := { d with nodes := d.nodes.filter (·.1 ≠ place) }

theorem isDirectoryAt_iff {d : Disk} {place : Place} :
    d.isDirectoryAt place = true ↔ d.node? place = some .directory := beq_iff_eq

theorem HasFile.not_directory {d : Disk} {place : Place} (h : d.HasFile place) :
    ¬d.isDirectoryAt place = true := by
  obtain ⟨text, htext⟩ := h
  rw [isDirectoryAt_iff, htext]
  simp

theorem HasFile.ne_nil {d : Disk} {place : Place} (h : d.HasFile place) : place ≠ [] := by
  rintro rfl
  exact h.not_directory rfl

theorem lookup_cons_eq (nodes : List (Place × Node)) (place : Place) (node : Node)
    (other : Place) :
    List.lookup other ((place, node) :: nodes) =
      if other = place then some node else nodes.lookup other := by
  rw [List.lookup_cons]
  by_cases h : other = place
  · simp [h]
  · rw [if_neg h, beq_eq_false_iff_ne.2 h]

theorem lookup_filter_ne (nodes : List (Place × Node)) (place other : Place) :
    (nodes.filter (·.1 ≠ place)).lookup other =
      if other = place then none else nodes.lookup other := by
  induction nodes with
  | nil => simp
  | cons n nodes ih =>
    obtain ⟨at_, node⟩ := n
    by_cases hplace : at_ = place
    · subst hplace
      rw [List.filter_cons_of_neg (by simp), ih, lookup_cons_eq]
      split <;> rfl
    · rw [List.filter_cons_of_pos (by simp [hplace]), lookup_cons_eq, lookup_cons_eq, ih]
      by_cases hother : other = at_
      · rw [if_pos hother, if_pos hother, if_neg (by rwa [hother])]
      · rw [if_neg hother, if_neg hother]

theorem node?_without {d : Disk} {place : Place} (hplace : place ≠ []) (other : Place) :
    (d.without place).node? other = if other = place then none else d.node? other := by
  unfold node? without
  rw [lookup_filter_ne]
  by_cases hroot : other = []
  · rw [if_pos hroot, if_pos hroot, if_neg fun h => hplace (h.symm.trans hroot)]
  · rw [if_neg hroot, if_neg hroot]

theorem node?_put {d : Disk} {place : Place} (hplace : place ≠ []) (node : Node) (other : Place) :
    (d.put place node).node? other = if other = place then some node else d.node? other := by
  unfold node? put
  rw [lookup_cons_eq, lookup_filter_ne]
  by_cases hroot : other = []
  · rw [if_pos hroot, if_pos hroot, if_neg fun h => hplace (h.symm.trans hroot)]
  · rw [if_neg hroot, if_neg hroot]
    split <;> rfl

/-! ### Following a path -/

/-- A segment is no name, or a name that is not too long. -/
def Short (segment : List Char) : Prop :=
  isIdle segment = true ∨ segment = upward ∨
    (String.ofList segment).utf8ByteSize ≤ nameLimit

theorem towards_eq_ok_iff {place next : Place} {segment : List Char} :
    towards place segment = .ok next ↔ Short segment ∧ place.towards segment = next := by
  unfold towards Short Place.towards
  by_cases hidle : isIdle segment = true
  · simp [hidle]
  · by_cases hupward : segment = upward
    · rw [if_neg hidle, if_pos hupward, if_neg hidle, if_pos hupward]
      simp [hupward]
    · rw [if_neg hidle, if_neg hupward, if_neg hidle, if_neg hupward]
      simp only [hidle, hupward, false_or, Bool.false_eq_true]
      split
      · rename_i hlong
        simp [Nat.not_le.2 hlong]
      · rename_i hshort
        simp [Nat.not_lt.1 hshort]

theorem guarded_eq_ok_iff {α : Type} {refused : Prop} [Decidable refused] {e : FileError}
    {rest : PUnit → Except FileError α} {a : α} :
    (if refused then (throw e : Except FileError PUnit) >>= rest else rest ⟨⟩) = .ok a ↔
      ¬refused ∧ rest ⟨⟩ = .ok a := by
  by_cases h : refused
  · rw [if_pos h]
    exact ⟨nofun, fun hok => absurd h hok.1⟩
  · rw [if_neg h, and_iff_right h]

theorem enter_eq_ok_iff {d : Disk} {place next : Place} {segment : List Char} :
    d.enter place segment = .ok next ↔
      d.isDirectoryAt place = true ∧ Short segment ∧ place.towards segment = next ∧
        (d.node? next).isSome = true := by
  unfold enter
  simp only [guarded_eq_ok_iff, bind_eq_ok_iff, towards_eq_ok_iff, pure, Except.pure]
  constructor
  · rintro ⟨hdirectory, -, ⟨hshort, rfl⟩, hthere, ⟨⟩⟩
    refine ⟨by simpa using hdirectory, hshort, rfl, ?_⟩
    simpa [Option.isSome_iff_ne_none] using hthere
  · rintro ⟨hdirectory, hshort, rfl, hthere⟩
    refine ⟨by simpa using hdirectory, _, ⟨hshort, rfl⟩, ?_, rfl⟩
    simpa [Option.isSome_iff_ne_none] using hthere

/-- All places that the segments lead through from a place, the last of them included, are
directories. -/
def Opens (d : Disk) : Place → List (List Char) → Prop
  | place, [] => d.isDirectoryAt place = true
  | place, s :: segments =>
    d.isDirectoryAt place = true ∧ Short s ∧ d.Opens (place.towards s) segments

theorem Opens.first {d : Disk} {place : Place} {segments : List (List Char)}
    (h : d.Opens place segments) : d.isDirectoryAt place = true := by
  cases segments with
  | nil => exact h
  | cons s segments => exact h.1

theorem foldlM_enter_iff {d : Disk} {segments : List (List Char)} {start place : Place} :
    segments.foldlM d.enter start = .ok place ∧ d.isDirectoryAt place = true ↔
      d.Opens start segments ∧ segments.foldl Place.towards start = place := by
  -- each segment asks for a directory before it, and only the second part for one at the end
  induction segments generalizing start with
  | nil =>
    rw [List.foldlM_nil, List.foldl_nil, Opens]
    simp only [pure, Except.pure, Except.ok.injEq]
    constructor
    · rintro ⟨rfl, h⟩
      exact ⟨h, rfl⟩
    · rintro ⟨h, rfl⟩
      exact ⟨rfl, h⟩
  | cons s segments ih =>
    rw [List.foldlM_cons, List.foldl_cons, Opens, bind_eq_ok_iff]
    constructor
    · rintro ⟨⟨next, henter, hrest⟩, hplace⟩
      obtain ⟨hstart, hshort, rfl, -⟩ := enter_eq_ok_iff.1 henter
      obtain ⟨hopens, hfold⟩ := ih.1 ⟨hrest, hplace⟩
      exact ⟨⟨hstart, hshort, hopens⟩, hfold⟩
    · rintro ⟨⟨hstart, hshort, hopens⟩, hfold⟩
      obtain ⟨hrest, hplace⟩ := ih.2 ⟨hopens, hfold⟩
      have hthere : (d.node? (Place.towards start s)).isSome = true := by
        rw [isDirectoryAt_iff.1 hopens.first]
        rfl
      exact ⟨⟨_, enter_eq_ok_iff.2 ⟨hstart, hshort, rfl, hthere⟩, hrest⟩, hplace⟩

theorem foldlM_enter_concat_iff {d : Disk} {front : List (List Char)} {last : List Char}
    {start place : Place} :
    (front ++ [last]).foldlM d.enter start = .ok place ↔
      ∃ before, front.foldlM d.enter start = .ok before ∧ d.enter before last = .ok place := by
  rw [List.foldlM_append, bind_eq_ok_iff]
  refine exists_congr fun before => and_congr_right fun _ => ?_
  rw [List.foldlM_cons, bind_eq_ok_iff]
  exact ⟨fun ⟨next, henter, hnext⟩ => Except.ok.inj hnext ▸ henter, fun h => ⟨place, h, rfl⟩⟩

/-- A path that can be that of something. -/
structure Admissible (path : String) : Prop where
  noNul : '\x00' ∉ path.toList
  nonempty : path ≠ ""
  short : path.utf8ByteSize ≤ pathLimit

theorem route_eq_ok_iff {d : Disk} {path : String} {start : Place}
    {segments : List (List Char)} :
    d.route path = .ok (start, segments) ↔
      Admissible path ∧ startOf d.here path.toList = start ∧ pieces path.toList = segments := by
  have hchars : path.toList = [] ↔ path = "" := by
    rw [← String.toList_inj]
    rfl
  unfold route
  simp only [hchars, List.contains_iff_mem]
  constructor
  · intro h
    split at h
    · cases h
    · rename_i hnul
      split at h
      · cases h
      · rename_i hempty
        split at h
        · cases h
        · rename_i hlong
          cases h
          exact ⟨⟨hnul, hempty, Nat.not_lt.1 hlong⟩, rfl, rfl⟩
  · rintro ⟨hpath, rfl, rfl⟩
    rw [if_neg hpath.noNul, if_neg hpath.nonempty, if_neg (Nat.not_lt.2 hpath.short)]
    rfl

theorem readText_eq_ok_iff {d : Disk} {path text : String} :
    d.readText path = .ok text ↔
      ∃ place, d.locate path = .ok place ∧ d.node? place = some (.file text) := by
  unfold readText
  rw [bind_eq_ok_iff]
  refine exists_congr fun place => and_congr_right fun _ => ?_
  constructor
  · intro hnode
    split at hnode
    · rename_i found hfound
      cases hnode
      exact hfound
    · cases hnode
    · cases hnode
  · intro hnode
    rw [hnode]
    rfl

theorem isFile_iff {d : Disk} {path : String} :
    d.isFile path = true ↔ ∃ text, d.readText path = .ok text := by
  unfold isFile
  cases d.readText path <;> simp

/-! ### Names in a directory -/

/-- The way to a name in a directory is open: the path can be followed through directories up to
the name. -/
structure Reaches (d : Disk) (directory name : String) : Prop where
  admissible : Admissible (join directory name)
  opens : d.Opens (startOf d.here directory.toList) (pieces directory.toList)
  short : Short name.toList

/-- A file can be written under a name in a directory. -/
structure Free (d : Disk) (directory name : String) : Prop where
  reaches : d.Reaches directory name
  free : ¬d.isDirectoryAt (placeOf d.here directory ++ [name]) = true

theorem placeOf_eq (here : Place) (path : String) :
    (pieces path.toList).foldl Place.towards (startOf here path.toList) = placeOf here path :=
  (Path.place_ofChars here path.toList).symm

theorem asksDirectory_join {path : String} (hhead : path.toList.head? ≠ some '/')
    (hpath : path ≠ "") (directory : String) :
    asksDirectory (join directory path) = asksDirectory path := by
  have hchars : path.toList ≠ [] := fun hnil => hpath (String.toList_inj.1 hnil)
  obtain ⟨front, hjoined, -⟩ := exists_front_joinChars [] hhead directory.toList
  rw [asksDirectory, join, String.toList_ofList, hjoined, List.getLast?_append_of_ne_nil _ hchars,
    asksDirectory]

section

variable {d : Disk} {directory name : String} (h : ProperName name)
include h

theorem head_of_proper : name.toList.head? ≠ some '/' := by
  intro hhead
  exact h.noSlash (List.mem_of_head? hhead)

theorem not_asksDirectory_join : ¬asksDirectory (join directory name) = true := by
  rw [asksDirectory_join (head_of_proper h) h.nonempty, asksDirectory, beq_iff_eq]
  exact fun hlast => h.noSlash (List.mem_of_getLast? hlast)

theorem isOwnName_of_proper : isOwnName name.toList = true := by
  simp [isOwnName, h.not_idle, h.ne_upward]

theorem pieces_of_proper : pieces name.toList = [name.toList] := by
  rw [pieces, Text.segments_of_not_mem h.noSlash,
    List.filter_cons_of_pos (by simpa using h.toList_ne_nil)]
  rfl

theorem route_join_eq_ok_iff {start : Place} {segments : List (List Char)} :
    d.route (join directory name) = .ok (start, segments) ↔
      Admissible (join directory name) ∧ startOf d.here directory.toList = start ∧
        pieces directory.toList ++ [name.toList] = segments := by
  rw [route_eq_ok_iff, join, String.toList_ofList, startOf_joinChars _ (head_of_proper h),
    pieces_joinChars (head_of_proper h), pieces_of_proper h]

theorem locate_join_iff {place : Place} :
    d.locate (join directory name) = .ok place ↔ d.Reaches directory name ∧
      placeOf d.here directory ++ [name] = place ∧ (d.node? place).isSome = true := by
  unfold locate
  rw [bind_eq_ok_iff]
  constructor
  · rintro ⟨⟨start, segments⟩, hroute, hrest⟩
    obtain ⟨hpath, rfl, rfl⟩ := (route_join_eq_ok_iff h).1 hroute
    obtain ⟨last, hwalk, hlast⟩ := bind_eq_ok_iff.1 hrest
    obtain ⟨-, ⟨⟩⟩ := guarded_eq_ok_iff.1 hlast
    obtain ⟨before, hdirectory, henter⟩ := foldlM_enter_concat_iff.1 hwalk
    obtain ⟨hopen, hshort, rfl, hthere⟩ := enter_eq_ok_iff.1 henter
    obtain ⟨hopens, rfl⟩ := foldlM_enter_iff.1 ⟨hdirectory, hopen⟩
    rw [placeOf_eq, h.towards] at hthere ⊢
    exact ⟨⟨hpath, hopens, hshort⟩, rfl, hthere⟩
  · rintro ⟨⟨hpath, hopens, hshort⟩, rfl, hthere⟩
    obtain ⟨hwalk, hopen⟩ := foldlM_enter_iff.2 ⟨hopens, placeOf_eq d.here directory⟩
    refine ⟨_, (route_join_eq_ok_iff h).2 ⟨hpath, rfl, rfl⟩, bind_eq_ok_iff.2 ⟨_, ?_,
      guarded_eq_ok_iff.2 ⟨?_, rfl⟩⟩⟩
    · exact foldlM_enter_concat_iff.2
        ⟨_, hwalk, enter_eq_ok_iff.2 ⟨hopen, hshort, h.towards _, hthere⟩⟩
    · simp [not_asksDirectory_join h]

theorem readText_join_iff {text : String} :
    d.readText (join directory name) = .ok text ↔ d.Reaches directory name ∧
      d.node? (placeOf d.here directory ++ [name]) = some (.file text) := by
  rw [readText_eq_ok_iff]
  constructor
  · rintro ⟨place, hlocate, hnode⟩
    obtain ⟨hreaches, rfl, -⟩ := (locate_join_iff h).1 hlocate
    exact ⟨hreaches, hnode⟩
  · rintro ⟨hreaches, hnode⟩
    refine ⟨_, (locate_join_iff h).2 ⟨hreaches, rfl, ?_⟩, hnode⟩
    rw [hnode]
    rfl

theorem isFile_join_iff :
    d.isFile (join directory name) = true ↔ d.Reaches directory name ∧
      d.HasFile (placeOf d.here directory ++ [name]) := by
  simp only [isFile_iff, readText_join_iff h]
  exact ⟨fun ⟨text, hreaches, htext⟩ => ⟨hreaches, text, htext⟩,
    fun ⟨hreaches, text, htext⟩ => ⟨text, hreaches, htext⟩⟩

theorem locateLast_join_iff {place : Place} {segment : List Char} :
    d.locateLast (join directory name) = .ok (place, segment) ↔
      Admissible (join directory name) ∧
      d.Opens (startOf d.here directory.toList) (pieces directory.toList) ∧
      placeOf d.here directory = place ∧ name.toList = segment := by
  unfold locateLast
  rw [bind_eq_ok_iff]
  constructor
  · rintro ⟨⟨start, segments⟩, hroute, hrest⟩
    obtain ⟨hpath, rfl, rfl⟩ := (route_join_eq_ok_iff h).1 hroute
    obtain ⟨last, hwalk, hlast⟩ := bind_eq_ok_iff.1 hrest
    obtain ⟨hopen, hsame⟩ := guarded_eq_ok_iff.1 hlast
    rw [List.dropLast_concat] at hwalk
    rw [List.getLast?_concat] at hsame
    cases hsame
    obtain ⟨hopens, rfl⟩ := foldlM_enter_iff.1 ⟨hwalk, by simpa using hopen⟩
    exact ⟨hpath, hopens, (placeOf_eq _ _).symm, rfl⟩
  · rintro ⟨hpath, hopens, rfl, rfl⟩
    obtain ⟨hwalk, hopen⟩ := foldlM_enter_iff.2 ⟨hopens, placeOf_eq d.here directory⟩
    have hlast := List.getLast?_concat (l := pieces directory.toList) (a := name.toList)
    refine ⟨_, (route_join_eq_ok_iff h).2 ⟨hpath, rfl, rfl⟩,
      bind_eq_ok_iff.2 ⟨placeOf d.here directory, ?_, ?_⟩⟩
    · rw [List.dropLast_concat]
      exact hwalk
    · rw [hlast]
      exact guarded_eq_ok_iff.2 ⟨by simp [hopen], rfl⟩

theorem removeFile_join_iff {after : Disk} :
    d.removeFile (join directory name) = .ok after ↔ d.Reaches directory name ∧
      d.HasFile (placeOf d.here directory ++ [name]) ∧
      d.without (placeOf d.here directory ++ [name]) = after := by
  unfold removeFile
  rw [bind_eq_ok_iff]
  constructor
  · rintro ⟨⟨place, segment⟩, hlocate, hrest⟩
    obtain ⟨hpath, hopens, rfl, rfl⟩ := (locateLast_join_iff h).1 hlocate
    obtain ⟨-, hchange⟩ := guarded_eq_ok_iff.1 hrest
    obtain ⟨target, htowards, hchange⟩ := bind_eq_ok_iff.1 hchange
    obtain ⟨hshort, rfl⟩ := towards_eq_ok_iff.1 htowards
    rw [h.towards] at hchange
    refine ⟨⟨hpath, hopens, hshort⟩, ?_⟩
    split at hchange
    · cases hchange
    · cases hchange
    · rename_i text hnode
      obtain ⟨-, ⟨⟩⟩ := guarded_eq_ok_iff.1 hchange
      exact ⟨⟨text, hnode⟩, rfl⟩
  · rintro ⟨⟨hpath, hopens, hshort⟩, ⟨text, hnode⟩, rfl⟩
    refine ⟨_, (locateLast_join_iff h).2 ⟨hpath, hopens, rfl, rfl⟩,
      guarded_eq_ok_iff.2 ⟨by simp [isOwnName_of_proper h], ?_⟩⟩
    refine bind_eq_ok_iff.2 ⟨_, towards_eq_ok_iff.2 ⟨hshort, rfl⟩, ?_⟩
    rw [h.towards]
    simp only [hnode]
    exact guarded_eq_ok_iff.2 ⟨not_asksDirectory_join h, rfl⟩

theorem writeText_join_iff {text : String} {after : Disk} :
    d.writeText (join directory name) text = .ok after ↔ d.Free directory name ∧
      d.put (placeOf d.here directory ++ [name]) (.file text) = after := by
  unfold writeText
  rw [bind_eq_ok_iff]
  constructor
  · rintro ⟨⟨place, segment⟩, hlocate, hrest⟩
    obtain ⟨hpath, hopens, rfl, rfl⟩ := (locateLast_join_iff h).1 hlocate
    obtain ⟨-, hchange⟩ := guarded_eq_ok_iff.1 hrest
    obtain ⟨target, htowards, hchange⟩ := bind_eq_ok_iff.1 hchange
    obtain ⟨hshort, rfl⟩ := towards_eq_ok_iff.1 htowards
    rw [h.towards] at hchange
    obtain ⟨hfree, ⟨⟩⟩ := guarded_eq_ok_iff.1 hchange
    exact ⟨⟨⟨hpath, hopens, hshort⟩, hfree⟩, rfl⟩
  · rintro ⟨⟨⟨hpath, hopens, hshort⟩, hfree⟩, rfl⟩
    refine ⟨_, (locateLast_join_iff h).2 ⟨hpath, hopens, rfl, rfl⟩, guarded_eq_ok_iff.2 ⟨?_, ?_⟩⟩
    · simp [isOwnName_of_proper h, not_asksDirectory_join h]
    · refine bind_eq_ok_iff.2 ⟨_, towards_eq_ok_iff.2 ⟨hshort, rfl⟩, ?_⟩
      rw [h.towards]
      exact guarded_eq_ok_iff.2 ⟨hfree, rfl⟩

/-! ### Longer spellings of a name -/

/-- A name with something behind it can only be that of a directory. -/
theorem isDirectoryAt_of_locate_spelled {path : String} (hspells : Spells path name)
    (hlonger : path ≠ name) {place : Place} (hlocate : d.locate (join directory path) = .ok place) :
    d.isDirectoryAt place = true := by
  have hhead := head_of_spells h hspells
  obtain ⟨idle, hsegments, hidle⟩ := hspells
  rcases Text.segments_eq_cons hsegments with ⟨hsame, -⟩ | ⟨back, hchars, rfl⟩
  · exact absurd (String.toList_inj.1 hsame) hlonger
  · have hpieces : pieces path.toList = name.toList :: pieces back := by
      rw [pieces, hsegments, List.filter_cons_of_pos (by simpa using h.toList_ne_nil), pieces]
    obtain ⟨⟨start, segments⟩, hroute, hrest⟩ := bind_eq_ok_iff.1 hlocate
    obtain ⟨-, -, rfl⟩ := route_eq_ok_iff.1 hroute
    obtain ⟨last, hwalk, hlast⟩ := bind_eq_ok_iff.1 hrest
    obtain ⟨hslash, ⟨⟩⟩ := guarded_eq_ok_iff.1 hlast
    rw [join, String.toList_ofList, pieces_joinChars hhead, hpieces] at hwalk
    -- either nothing but slashes is behind the name, or a dot that is entered there
    rcases List.eq_nil_or_concat (pieces back) with hnil | ⟨front, dot, hback⟩
    · have hpath : path ≠ "" := by
        rintro rfl
        simp at hchars
      have hasks : asksDirectory (join directory path) = true := by
        have hlast := List.getLast_mem (List.cons_ne_nil '/' back)
        have hslashes : ∀ c ∈ '/' :: back, c = '/' :=
          List.forall_mem_cons.2 ⟨rfl, eq_slash_of_pieces_eq_nil hnil⟩
        rw [asksDirectory_join hhead hpath, asksDirectory, hchars,
          List.getLast?_append_of_ne_nil _ (List.cons_ne_nil _ _),
          List.getLast?_eq_some_getLast (List.cons_ne_nil _ _), hslashes _ hlast]
        rfl
      simpa [hasks] using hslash
    · have hdot : isIdle dot = true := by
        refine hidle dot (List.mem_of_mem_filter (p := fun s => s ≠ []) ?_)
        change dot ∈ pieces back
        simp [hback]
      rw [hback, List.concat_eq_append, ← List.cons_append, ← List.append_assoc] at hwalk
      obtain ⟨before, -, henter⟩ := foldlM_enter_concat_iff.1 hwalk
      obtain ⟨hopen, -, hsame, -⟩ := enter_eq_ok_iff.1 henter
      rw [Place.towards_idle hdot] at hsame
      rwa [← hsame]

/-- A file in a directory is only found under its own name. -/
theorem eq_of_isFile_spelled {path : String} (hspells : Spells path name)
    (hfile : d.isFile (join directory path) = true) : path = name := by
  by_contra hlonger
  obtain ⟨text, htext⟩ := isFile_iff.1 hfile
  obtain ⟨place, hlocate, hnode⟩ := readText_eq_ok_iff.1 htext
  have hdirectory := isDirectoryAt_of_locate_spelled h hspells hlonger hlocate
  exact HasFile.not_directory ⟨text, hnode⟩ hdirectory

end

/-! ### Changes of files -/

/-- The working directory and the directories are the same on both disks. -/
structure SameTree (d e : Disk) : Prop where
  here : e.here = d.here
  directory : ∀ place, e.isDirectoryAt place = d.isDirectoryAt place

namespace SameTree

variable {d e f : Disk}

theorem refl (d : Disk) : d.SameTree d := ⟨rfl, fun _ => rfl⟩

theorem trans (h : d.SameTree e) (hrest : e.SameTree f) : d.SameTree f where
  here := hrest.here.trans h.here
  directory place := (hrest.directory place).trans (h.directory place)

theorem opens_iff (h : d.SameTree e) {place : Place} {segments : List (List Char)} :
    e.Opens place segments ↔ d.Opens place segments := by
  induction segments generalizing place with
  | nil => rw [Opens, Opens, h.directory]
  | cons s segments ih => rw [Opens, Opens, h.directory, ih]

theorem reaches_iff (h : d.SameTree e) {directory name : String} :
    e.Reaches directory name ↔ d.Reaches directory name := by
  constructor
  · rintro ⟨hpath, hopens, hshort⟩
    rw [h.here] at hopens
    exact ⟨hpath, h.opens_iff.1 hopens, hshort⟩
  · rintro ⟨hpath, hopens, hshort⟩
    rw [← h.here] at hopens
    exact ⟨hpath, h.opens_iff.2 hopens, hshort⟩

theorem free_iff (h : d.SameTree e) {directory name : String} :
    e.Free directory name ↔ d.Free directory name := by
  constructor
  · rintro ⟨hreaches, hfree⟩
    rw [h.here, h.directory] at hfree
    exact ⟨h.reaches_iff.1 hreaches, hfree⟩
  · rintro ⟨hreaches, hfree⟩
    rw [← h.here, ← h.directory] at hfree
    exact ⟨h.reaches_iff.2 hreaches, hfree⟩

end SameTree

theorem sameTree_without {d : Disk} {place : Place} (h : d.HasFile place) :
    d.SameTree (d.without place) where
  here := rfl
  directory other := by
    rw [isDirectoryAt, node?_without h.ne_nil]
    split
    · rename_i hother
      rw [hother, Bool.eq_false_iff.2 h.not_directory]
      rfl
    · rfl

theorem ne_nil_of_not_directory {d : Disk} {place : Place}
    (h : ¬d.isDirectoryAt place = true) : place ≠ [] := by
  rintro rfl
  exact h rfl

theorem sameTree_put {d : Disk} {place : Place} (h : ¬d.isDirectoryAt place = true)
    (text : String) : d.SameTree (d.put place (.file text)) where
  here := rfl
  directory other := by
    rw [isDirectoryAt, node?_put (ne_nil_of_not_directory h)]
    split
    · rename_i hother
      rw [hother, Bool.eq_false_iff.2 h]
      rfl
    · rfl

/-! ### Directories that are there -/

theorem exists_join_eq {directory path : String} (hhead : path.toList.head? ≠ some '/')
    (hdirectory : directory ≠ "") : ∃ rest, join directory path = directory ++ rest := by
  have hchars : directory.toList ≠ [] := fun hnil => hdirectory (String.toList_inj.1 hnil)
  unfold join joinChars
  rw [if_neg (not_or.2 ⟨hhead, hchars⟩)]
  split
  · exact ⟨path, by rw [String.ofList_append, String.ofList_toList, String.ofList_toList]⟩
  · exact ⟨_, by rw [String.ofList_append, String.ofList_toList]⟩

theorem Admissible.directory {directory path : String} (h : Admissible (join directory path))
    (hhead : path.toList.head? ≠ some '/') (hdirectory : directory ≠ "") :
    Admissible directory := by
  obtain ⟨rest, hjoined⟩ := exists_join_eq hhead hdirectory
  have hnul := h.noNul
  have hshort := h.short
  rw [hjoined, String.toList_append, List.mem_append, not_or] at hnul
  rw [hjoined, String.utf8ByteSize_append] at hshort
  exact ⟨hnul.1, hdirectory, by omega⟩

section

variable {d : Disk} {path : String} (hpath : Admissible path)
  (hopens : d.Opens (startOf d.here path.toList) (pieces path.toList))
include hpath hopens

theorem isDirectory_of_opens : d.isDirectory path = true := by
  obtain ⟨hwalk, hdirectory⟩ := foldlM_enter_iff.2 ⟨hopens, rfl⟩
  have hlocate : d.locate path = .ok (placeOf d.here path) := by
    rw [← placeOf_eq, locate, bind_eq_ok_iff]
    refine ⟨_, route_eq_ok_iff.2 ⟨hpath, rfl, rfl⟩, bind_eq_ok_iff.2 ⟨_, hwalk,
      guarded_eq_ok_iff.2 ⟨?_, rfl⟩⟩⟩
    simp [hdirectory]
  rw [isDirectory, hlocate, ← placeOf_eq]
  exact hdirectory

theorem locateLast_of_opens : ∃ place segment, d.locateLast path = .ok (place, segment) ∧
    Short segment ∧ d.isDirectoryAt (place.towards segment) = true := by
  obtain ⟨hwalk, hdirectory⟩ := foldlM_enter_iff.2 ⟨hopens, rfl⟩
  have hroute : d.route path = .ok (startOf d.here path.toList, pieces path.toList) :=
    route_eq_ok_iff.2 ⟨hpath, rfl, rfl⟩
  unfold locateLast
  simp only [bind_eq_ok_iff]
  -- a path of nothing but slashes has no last segment, and a dot stands for it
  rcases List.eq_nil_or_concat (pieces path.toList) with hnil | ⟨front, last, hlast⟩
  · rw [hnil] at hroute
    have hdot : isIdle ['.'] = true := rfl
    refine ⟨_, _, ⟨_, hroute, _, rfl, guarded_eq_ok_iff.2 ⟨?_, rfl⟩⟩, .inl hdot, ?_⟩
    · simp [hopens.first]
    · exact hopens.first
  · rw [List.concat_eq_append] at hlast
    rw [hlast] at hwalk hdirectory
    obtain ⟨place, hfront, henter⟩ := foldlM_enter_concat_iff.1 hwalk
    obtain ⟨hopen, hshort, hnext, -⟩ := enter_eq_ok_iff.1 henter
    rw [← hnext] at hdirectory
    rw [hlast] at hroute
    refine ⟨_, _, ⟨_, hroute, place, ?_, guarded_eq_ok_iff.2 ⟨?_, ?_⟩⟩, hshort, hdirectory⟩
    · rw [List.dropLast_concat]
      exact hfront
    · simp [hopen]
    · rw [List.getLast?_concat]
      rfl

theorem createDirectory_of_opens : d.createDirectory path = .error .alreadyExists := by
  obtain ⟨place, segment, hlast, hshort, hdirectory⟩ := locateLast_of_opens hpath hopens
  have hnode := isDirectoryAt_iff.1 hdirectory
  have htowards : towards place segment = .ok (place.towards segment) :=
    towards_eq_ok_iff.2 ⟨hshort, rfl⟩
  unfold createDirectory
  by_cases hown : isOwnName segment = true
  · simp [hlast, hown, htowards, hnode, bind, Except.bind, throw, throwThe, MonadExceptOf.throw]
  · simp [hlast, hown, bind, Except.bind, throw, throwThe, MonadExceptOf.throw]

theorem createDirectories_of_opens : d.createDirectories path = (.ok (), d) := by
  have hempty : path.isEmpty = false := by
    rw [Bool.eq_false_iff, ne_eq, String.isEmpty_iff]
    exact hpath.nonempty
  unfold createDirectories createWithin
  simp only [hempty, createDirectory_of_opens hpath hopens, isDirectory_of_opens hpath hopens]
  rfl

end

end ContentLoom.Files.Disk

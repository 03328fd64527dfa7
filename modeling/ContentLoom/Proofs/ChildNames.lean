import ContentLoom.Files.Disk
import ContentLoom.Proofs.RecordedNames

/-!
# Names of what is in a directory

A path leads from a working directory to a place: a name goes one directory
down, two dots go one up, and empty segments and single dots go nowhere.  A name
that a lock file may record is a name of its own with nothing behind it but
slashes and single dots, so joined to a directory it leads to a place right
below the place of the directory, wherever that is.
-/

namespace ContentLoom

namespace Text

theorem not_mem_of_mem_segments {sep : Char} {cs segment : List Char}
    (h : segment ∈ segments sep cs) : sep ∉ segment := by
  induction cs generalizing segment with
  | nil =>
    obtain rfl := List.mem_singleton.1 h
    exact List.not_mem_nil
  | cons c cs ih =>
    unfold segments at h
    split at h
    · rcases List.mem_cons.1 h with rfl | h
      · exact List.not_mem_nil
      · exact ih h
    · rename_i hc
      split at h
      · rename_i hnil
        exact absurd hnil (segments_ne_nil sep cs)
      · rename_i first rest hsegments
        rw [hsegments] at ih
        rcases List.mem_cons.1 h with rfl | h
        · have hfirst := ih List.mem_cons_self
          simp [Ne.symm hc, hfirst]
        · exact ih (List.mem_cons_of_mem _ h)

/-- The first segment is the whole text, or stands before the first separator. -/
theorem segments_eq_cons {sep : Char} {cs first : List Char} {rest : List (List Char)}
    (h : segments sep cs = first :: rest) :
    cs = first ∧ rest = [] ∨ ∃ back, cs = first ++ sep :: back ∧ segments sep back = rest := by
  by_cases hsep : sep ∈ cs
  · obtain ⟨front, back, rfl, hfront⟩ := List.eq_append_cons_of_mem hsep
    rw [segments_append hfront, List.cons.injEq] at h
    obtain ⟨rfl, rfl⟩ := h
    exact .inr ⟨back, rfl, rfl⟩
  · rw [segments_of_not_mem hsep, List.cons.injEq] at h
    obtain ⟨rfl, rfl⟩ := h
    exact .inl ⟨rfl, rfl⟩

end Text

namespace Files

/-! ### Places of paths -/

/-- The place that a segment leads to. -/
def Place.towards (place : Place) (segment : List Char) : Place :=
  if isIdle segment then place
  else if segment = upward then place.dropLast
  else place ++ [String.ofList segment]

theorem Place.towards_idle {segment : List Char} (h : isIdle segment = true) (place : Place) :
    place.towards segment = place := if_pos h

theorem Place.foldl_towards_idle {segments : List (List Char)}
    (h : ∀ s ∈ segments, isIdle s = true) (place : Place) :
    segments.foldl Place.towards place = place := by
  induction segments with
  | nil => rfl
  | cons s segments ih =>
    rw [List.foldl_cons, towards_idle (h s List.mem_cons_self)]
    exact ih fun other hother => h other (List.mem_cons_of_mem _ hother)

/-- The place that a path leads to from a working directory, whether something is there or not. -/
def Path.place (here : Place) (p : Path) : Place :=
  p.segments.foldl Place.towards (if p.start = .root then [] else here)

/-- The place that a written path leads to. -/
def placeOf (here : Place) (path : String) : Place := (Path.ofText path).place here

/-- Where the following of a path starts. -/
def startOf (here : Place) (cs : List Char) : Place := if cs.head? = some '/' then [] else here

/-- The segments of a path that are not empty. -/
def pieces (cs : List Char) : List (List Char) := (Text.segments '/' cs).filter fun s => s ≠ []

theorem foldl_towards_pieces (cs : List Char) (place : Place) :
    (pieces cs).foldl Place.towards place = (Text.segments '/' cs).foldl Place.towards place := by
  unfold pieces
  generalize Text.segments '/' cs = segments
  induction segments generalizing place with
  | nil => rfl
  | cons s segments ih =>
    by_cases hs : s = []
    · have hskipped : place.towards s = place := Place.towards_idle (by rw [hs]; rfl) place
      rw [List.filter_cons_of_neg (by simp [hs]), List.foldl_cons, hskipped, ih]
    · rw [List.filter_cons_of_pos (by simp [hs]), List.foldl_cons, List.foldl_cons, ih]

theorem eq_slash_of_pieces_eq_nil {cs : List Char} (h : pieces cs = []) :
    ∀ c ∈ cs, c = '/' := by
  induction cs with
  | nil => exact fun c hc => absurd hc List.not_mem_nil
  | cons c cs ih =>
    unfold pieces Text.segments at h
    split at h
    · rename_i hc
      rw [List.filter_cons_of_neg (by simp)] at h
      exact List.forall_mem_cons.2 ⟨hc, ih h⟩
    · split at h
      · rename_i hnil
        exact absurd hnil (Text.segments_ne_nil '/' cs)
      · rw [List.filter_cons_of_pos (by simp)] at h
        cases h

section

variable (here : Place)

/-- Whatever a path begins with, it is followed through all segments between its slashes. -/
theorem Path.place_ofChars (cs : List Char) :
    (ofChars cs).place here = (pieces cs).foldl Place.towards (startOf here cs) := by
  rw [foldl_towards_pieces]
  fun_cases ofChars cs with
  | case1 rest => rfl
  | case2 => rfl
  | case3 rest => rfl
  | case4 cs hroot hdot hhere =>
    have hhead : cs.head? ≠ some '/' := by
      intro hhead
      obtain ⟨rest, rfl⟩ := List.head?_eq_some_iff.1 hhead
      exact hroot rest rfl
    rw [startOf, if_neg hhead]
    rfl

variable {path : List Char} (hpath : path.head? ≠ some '/') (directory : List Char)
include hpath

/-- A path joined to a directory stands behind a front with the pieces of the directory. -/
theorem exists_front_joinChars : ∃ front, joinChars directory path = front ++ path ∧
    startOf here (front ++ path) = startOf here directory ∧
    pieces (front ++ path) = pieces directory ++ pieces path := by
  unfold startOf pieces
  by_cases hempty : directory = []
  · refine ⟨[], ?_, ?_, ?_⟩
    · rw [joinChars, if_pos (Or.inr hempty), List.nil_append]
    · rw [List.nil_append, if_neg hpath, hempty]
      rfl
    · rw [hempty]
      rfl
  · have hrelative : ¬(path.head? = some '/' ∨ directory = []) := not_or.2 ⟨hpath, hempty⟩
    by_cases hslash : directory.getLast? = some '/'
    · -- the slash at the end of the directory has an empty segment behind it
      refine ⟨directory, ?_, ?_, ?_⟩
      · rw [joinChars, if_neg hrelative, if_pos hslash]
      · rw [List.head?_append_of_ne_nil _ hempty]
      · obtain ⟨front, rfl⟩ := List.getLast?_eq_some_iff.1 hslash
        rw [List.append_assoc, List.singleton_append, Text.segments_append_sep,
          Text.segments_append_sep, List.filter_append, List.filter_append]
        simp [Text.segments]
    · refine ⟨directory ++ ['/'], ?_, ?_, ?_⟩
      · rw [joinChars, if_neg hrelative, if_neg hslash, List.append_assoc, List.singleton_append]
      · rw [List.append_assoc, List.head?_append_of_ne_nil _ hempty]
      · rw [List.append_assoc, List.singleton_append, Text.segments_append_sep,
          List.filter_append]

theorem startOf_joinChars :
    startOf here (joinChars directory path) = startOf here directory := by
  obtain ⟨front, hjoined, hstart, -⟩ := exists_front_joinChars here hpath directory
  rw [hjoined, hstart]

omit here in
theorem pieces_joinChars :
    pieces (joinChars directory path) = pieces directory ++ pieces path := by
  obtain ⟨front, hjoined, -, hpieces⟩ := exists_front_joinChars [] hpath directory
  rw [hjoined, hpieces]

end

theorem placeOf_join (here : Place) {path : String} (hpath : path.toList.head? ≠ some '/')
    (directory : String) :
    placeOf here (join directory path) =
      (pieces path.toList).foldl Place.towards (placeOf here directory) := by
  rw [placeOf, join, Path.ofText, String.toList_ofList, Path.place_ofChars,
    startOf_joinChars here hpath, pieces_joinChars hpath, List.foldl_append,
    ← Path.place_ofChars]
  rfl

/-! ### Names of their own -/

/-- A name that leads to a place of its own right below a directory. -/
structure ProperName (name : String) : Prop where
  nonempty : name ≠ ""
  noSlash : '/' ∉ name.toList
  notHere : name ≠ "."
  notUpward : name ≠ ".."

/-- A path is a name, or has nothing behind it but slashes and single dots between them. -/
def Spells (path name : String) : Prop :=
  ∃ idle, Text.segments '/' path.toList = name.toList :: idle ∧ ∀ s ∈ idle, isIdle s = true

theorem isIdle_iff {segment : List Char} :
    isIdle segment = true ↔ segment = [] ∨ segment = ['.'] := by
  rw [isIdle, Bool.or_eq_true, beq_iff_eq, beq_iff_eq]

namespace ProperName

theorem ofList {cs : List Char} (hslash : '/' ∉ cs) (hidle : ¬isIdle cs = true)
    (hupward : cs ≠ upward) : ProperName (String.ofList cs) := by
  rw [isIdle_iff, not_or] at hidle
  refine ⟨?_, by rwa [String.toList_ofList], ?_, ?_⟩ <;> rw [ne_eq, ← String.toList_inj,
    String.toList_ofList]
  · exact hidle.1
  · exact hidle.2
  · exact hupward

variable {name : String} (h : ProperName name)
include h

theorem toList_ne_nil : name.toList ≠ [] := fun hnil => h.nonempty (String.toList_inj.1 hnil)

theorem not_idle : ¬isIdle name.toList = true := by
  rw [isIdle_iff, not_or]
  exact ⟨h.toList_ne_nil, fun hdot => h.notHere (String.toList_inj.1 hdot)⟩

theorem ne_upward : name.toList ≠ upward := fun hdots => h.notUpward (String.toList_inj.1 hdots)

theorem towards (place : Place) : place.towards name.toList = place ++ [name] := by
  rw [Place.towards, if_neg h.not_idle, if_neg h.ne_upward, String.ofList_toList]

end ProperName

namespace Path

/-- A path begins with its first segment exactly where this is a name. -/
theorem ofChars_of_first {cs first : List Char} {rest : List (List Char)}
    (hsegments : Text.segments '/' cs = first :: rest) (hfirst : ¬isIdle first = true) :
    ofChars cs = ⟨.plain, first :: rest⟩ := by
  rw [← hsegments]
  fun_cases ofChars cs with
  | case1 back =>
    have hnil : [] = first := (List.cons.inj hsegments).1
    exact absurd (isIdle_iff.2 (.inl hnil.symm)) hfirst
  | case2 =>
    have hdot : ['.'] = first := (List.cons.inj hsegments).1
    exact absurd (isIdle_iff.2 (.inr hdot.symm)) hfirst
  | case3 back =>
    have hdot : ['.'] = first := (List.cons.inj hsegments).1
    exact absurd (isIdle_iff.2 (.inr hdot.symm)) hfirst
  | case4 => rfl

theorem first_of_plain {cs : List Char} (hplain : (ofChars cs).start = .plain) (hcs : cs ≠ []) :
    ∃ first rest, Text.segments '/' cs = first :: rest ∧ ¬isIdle first = true := by
  obtain ⟨first, rest, hsegments⟩ := List.exists_cons_of_ne_nil (Text.segments_ne_nil '/' cs)
  refine ⟨first, rest, hsegments, ?_⟩
  rw [isIdle_iff]
  intro hidle
  -- an idle segment in front is a slash or a dot at the front, where another start stands
  rcases Text.segments_eq_cons hsegments with ⟨rfl, -⟩ | ⟨back, rfl, -⟩
  · rcases hidle with rfl | rfl
    · exact hcs rfl
    · cases hplain
  · rcases hidle with rfl | rfl <;> cases hplain

theorem isPlainName_eq_true_iff (path : String) :
    isPlainName path = true ↔
      (ofText path).start = .plain ∧ ∃ name, (ofText path).names = [name] ∧ name ≠ upward := by
  unfold isPlainName
  simp only
  split
  · rename_i name hstart hnames
    simp [hstart, hnames]
  · rename_i hother
    constructor
    · intro h
      cases h
    · rintro ⟨hstart, name, hnames, -⟩
      exact absurd hnames (hother name hstart)

theorem names_cons {cs first : List Char} {rest : List (List Char)}
    (hsegments : Text.segments '/' cs = first :: rest) (hfirst : ¬isIdle first = true) :
    (ofChars cs).names = first :: rest.filter (fun s => !isIdle s) := by
  rw [ofChars_of_first hsegments hfirst, names, List.filter_cons_of_pos (by simp [hfirst])]

theorem filter_eq_nil_iff_idle {segments : List (List Char)} :
    segments.filter (fun s => !isIdle s) = [] ↔ ∀ s ∈ segments, isIdle s = true := by
  rw [List.filter_eq_nil_iff]
  simp

/-- Exactly the spellings of proper names are one name in the working directory. -/
theorem isPlainName_iff (path : String) :
    isPlainName path = true ↔ ∃ name, ProperName name ∧ Spells path name := by
  rw [isPlainName_eq_true_iff]
  constructor
  · rintro ⟨hplain, name, hname, hupward⟩
    have hcs : path.toList ≠ [] := by
      intro hnil
      rw [ofText, hnil] at hname
      cases hname
    obtain ⟨first, rest, hsegments, hfirst⟩ := first_of_plain hplain hcs
    rw [ofText, names_cons hsegments hfirst, List.cons.injEq, filter_eq_nil_iff_idle] at hname
    obtain ⟨rfl, hrest⟩ := hname
    have hslash : '/' ∉ first := Text.not_mem_of_mem_segments (hsegments ▸ List.mem_cons_self)
    refine ⟨_, .ofList hslash hfirst hupward, rest, ?_, hrest⟩
    rw [hsegments, String.toList_ofList]
  · rintro ⟨name, hname, idle, hsegments, hidle⟩
    refine ⟨?_, name.toList, ?_, hname.ne_upward⟩
    · rw [ofText, ofChars_of_first hsegments hname.not_idle]
    · rw [ofText, names_cons hsegments hname.not_idle, filter_eq_nil_iff_idle.2 hidle]

end Path

theorem ProperName.of_isPlainName {name : String} (hplain : Path.isPlainName name = true)
    (hslash : '/' ∉ name.toList) : ProperName name := by
  obtain ⟨own, hown, idle, hsegments, -⟩ := (Path.isPlainName_iff name).1 hplain
  rw [Text.segments_of_not_mem hslash, List.cons.injEq] at hsegments
  rwa [String.toList_inj.1 hsegments.1]

theorem head_of_spells {path name : String} (hname : ProperName name)
    (hspells : Spells path name) : path.toList.head? ≠ some '/' := by
  obtain ⟨idle, hsegments, -⟩ := hspells
  intro hhead
  obtain ⟨rest, hchars⟩ := List.head?_eq_some_iff.1 hhead
  rw [hchars] at hsegments
  have hnil : [] = name.toList := (List.cons.inj hsegments).1
  exact hname.not_idle (isIdle_iff.2 (.inl hnil.symm))

theorem placeOf_join_of_spells {path name : String} (hname : ProperName name)
    (hspells : Spells path name) (here : Place) (directory : String) :
    placeOf here (join directory path) = placeOf here directory ++ [name] := by
  have hhead := head_of_spells hname hspells
  obtain ⟨idle, hsegments, hidle⟩ := hspells
  rw [placeOf_join here hhead, foldl_towards_pieces, hsegments, List.foldl_cons, hname.towards,
    Place.foldl_towards_idle hidle]

end Files

namespace LockFile

open Files

/-- Every recorded name of a valid lock file spells a proper name, so joined to any directory and
followed from anywhere it leads to what has this name in the directory. -/
theorem recorded_names_lead_inside {lock : LockFile} (hvalid : lock.badName? = none) {path : String}
    (hpath : path ∈ lock.files.names) :
    ∃ name, ProperName name ∧ Spells path name ∧ ∀ (here : Place) (directory : String),
      placeOf here (join directory path) = placeOf here directory ++ [name] := by
  have hplain := (badName?_eq_none_iff lock).1 hvalid path hpath
  obtain ⟨name, hname, hspells⟩ := (Path.isPlainName_iff path).1 hplain
  exact ⟨name, hname, hspells, placeOf_join_of_spells hname hspells⟩

/-- A record of one name with slashes and a dot behind it. -/
def trailingRecord : LockFile :=
  ⟨generatorVersion, "ContentPipeline", Dictionary.empty.insert "Old.g.cs//." ""⟩

theorem recorded_names_lead_inside_trailing :
    trailingRecord.badName? = none ∧ "Old.g.cs//." ∈ trailingRecord.files.names ∧
      ∃ name, ProperName name ∧ Spells "Old.g.cs//." name ∧ ∀ (here : Place) (directory : String),
        placeOf here (join directory "Old.g.cs//.") = placeOf here directory ++ [name] := by
  have hvalid : trailingRecord.badName? = none := by decide
  have hrecorded : "Old.g.cs//." ∈ trailingRecord.files.names := by decide
  exact ⟨hvalid, hrecorded, recorded_names_lead_inside hvalid hrecorded⟩

end LockFile

end ContentLoom

import ContentLoom.Json.Reader

/-!
# Decoding documents

A decoder walks a document in the order of the text and gives either a value or
the first fault it meets.  A record is written as an object, or as an array of
its fields in order; its members may come in any order, an unknown one is
passed over, a repeated one is a fault where it is repeated, and a missing one
is noticed when the object ends.
-/

namespace ContentLoom.Json

/-- Why a document has no value of the wanted type. -/
inductive Fault where
  | missingField (name : String)
  | duplicateField (name : String)
  | unknownVariant (name : String) (expected : List String)
  /-- A text refused by a reader of its own, with that reader's words. -/
  | refused (message : String)
  /-- A fault of the grammar, a value of another kind or out of range. -/
  | malformed
deriving DecidableEq

/-- A name between back quotes, as faults quote it. -/
def Fault.ticked (name : String) : String := "\x60" ++ name ++ "\x60"

/-- The words of a fault; a malformed document has none of its own. -/
def Fault.message? : Fault → Option String
  | .missingField name => some ("missing field " ++ ticked name)
  | .duplicateField name => some ("duplicate field " ++ ticked name)
  | .unknownVariant name expected =>
    some ("unknown variant " ++ ticked name ++
      match expected with
      | [] => ", there are no variants"
      | [a] => ", expected " ++ ticked a
      | [a, b] => ", expected " ++ ticked a ++ " or " ++ ticked b
      | names => ", expected one of " ++ ", ".intercalate (names.map ticked))
  | .refused message => some message
  | .malformed => none

namespace Document

/-! ### Plain values -/

/-- A truth value. -/
def readBool : Document → Except Fault Bool
  | .bool b => .ok b
  | _ => .error .malformed

/-- A text. -/
def readText : Document → Except Fault String
  | .str s => .ok s
  | _ => .error .malformed

/-- An integer between two bounds. -/
def readInt (low high : Int) : Document → Except Fault Int
  | .int n => if low ≤ n ∧ n ≤ high then .ok n else .error .malformed
  | _ => .error .malformed

/-- A natural number of 64 bits. -/
def readNat64 (d : Document) : Except Fault Nat :=
  (d.readInt 0 0xffffffffffffffff).map Int.toNat

/-- A floating-point number; an integer is rounded to one. -/
def readFloat : Document → Except Fault Binary64
  | .float x => .ok x
  | .int n =>
    match Binary64.ofNat? n.natAbs with
    | some x => .ok (if n < 0 then x.neg else x)
    | none => .error .malformed
  | _ => .error .malformed

/-- Any JSON value. -/
def readJson (d : Document) : Except Fault Json :=
  match d.toJson? with
  | some j => .ok j
  | none => .error .malformed

/-- A value, or null for none. -/
def readOption {α : Type} (read : Document → Except Fault α) : Document → Except Fault (Option α)
  | .null => .ok none
  | d => (read d).map some

/-- The items of an array. -/
def readList {α : Type} (read : Document → Except Fault α) : Document → Except Fault (List α)
  | .arr items stop => do
    let values ← items.mapM read
    if stop.isClosed then .ok values else .error .malformed
  | _ => .error .malformed

/-- The members of an object; a repeated name keeps its first place and its last value. -/
def readEntries {α : Type} (read : Document → Except Fault α) : Document → Except Fault (Entries α)
  | .obj members stop => do
    let values ← members.mapM fun (k, d) => do
      let v ← read d
      pure (k, v)
    if stop.isClosed then .ok (Entries.collapsed values) else .error .malformed
  | _ => .error .malformed

/-- The named value with a name. -/
def findVariant {α : Type} (variants : List (String × α)) (name : String) : Except Fault α :=
  match variants.lookup name with
  | some v => .ok v
  | none => .error (.unknownVariant name (variants.map Prod.fst))

/-- Whether a document gives nothing, as the object that names a variant has to. -/
def givesNothing : Manner → Document → Bool
  | .lenient, .obj [] _ => true
  | .lenient, .arr [] _ => true
  | .lenient, _ => false
  | .deferred, .obj [] _ => true
  | _, .null => true
  | _, _ => false

/-- One of the named values: its name, or an object that gives nothing under its name.  In a
streamed object the name is looked up before anything that follows it; any other object is first
asked for having one member. -/
def readVariant {α : Type} (variants : List (String × α)) : Document → Except Fault α
  | .str s => findVariant variants s
  | .obj members stop =>
    match members, stop with
    | _, .closed .moment => .error .malformed
    | [(s, d)], .closed manner => do
      let v ← findVariant variants s
      if givesNothing manner d then .ok v else .error .malformed
    | (s, _) :: _, .closed .streamed => do
      let _ ← findVariant variants s
      .error .malformed
    | (s, _) :: _, .cut _ => do
      let _ ← findVariant variants s
      .error .malformed
    | _, _ => .error .malformed
  | _ => .error .malformed

/-- One of the named values given as a plain tag: by its name, or in what was put aside also by its
place among them. -/
def readTag {α : Type} (variants : List (String × α)) (stop : Stop) (d : Document) :
    Except Fault α :=
  match d, stop with
  | .str s, _ => findVariant variants s
  | .int n, .closed .deferred =>
    if n < 0 then .error .malformed
    else
      match variants[n.toNat]? with
      | some (_, v) => .ok v
      | none => .error .malformed
  | _, _ => .error .malformed

/-! ### Records -/

/-- A field that was not seen before takes its value; a second one is a fault. -/
def once {α : Type} (slot : Option α) (name : String) (value : Except Fault α) :
    Except Fault (Option α) :=
  match slot with
  | some _ => .error (.duplicateField name)
  | none => value.map some

/-- Passes over a member that the record does not know. -/
def passOver {δ : Type} (draft : δ) (d : Document) : Except Fault δ :=
  if d.skippable then .ok draft else .error .malformed

/-- How a record was written, which decides what a missing field is called. -/
inductive Layout where
  | members
  | positions
deriving DecidableEq

/-- The value of a field that has no default. -/
def required {α : Type} (layout : Layout) (name : String) : Option α → Except Fault α
  | some v => .ok v
  | none => .error (if layout = .members then .missingField name else .malformed)

/-- The value of a field that may be null and may be left out of an object. -/
def nullable {α : Type} (layout : Layout) : Option (Option α) → Except Fault (Option α)
  | some v => .ok v
  | none => if layout = .members then .ok none else .error .malformed

/-- Fills a draft from the fields of a record in the order of the text. -/
def readRecord {δ α : Type} (names : List String) (draft : δ)
    (step : δ → String → Document → Except Fault δ) (finish : Layout → δ → Except Fault α) :
    Document → Except Fault α
  | .obj members stop => do
    let filled ← members.foldlM
      (fun acc (k, d) => if names.contains k then step acc k d else passOver acc d) draft
    if stop.isClosed then finish .members filled else .error .malformed
  | .arr items stop => do
    let filled ← (names.zip items).foldlM (fun acc (k, d) => step acc k d) draft
    if stop.leaves (items.drop names.length) then finish .positions filled else .error .malformed
  | _ => .error .malformed

/-- The variant and the other members of a record whose variant is named by its member `tag`.
The other members are put aside and decoded afterwards. -/
def readTagged {α : Type} (tag : String) (variants : List (String × α)) :
    Document → Except Fault (α × Document)
  | .obj members stop => do
    let (found, others) ← members.foldlM (fun (found, others) (k, d) =>
      if k = tag then do
        let found ← once found tag (readTag variants stop d)
        pure (found, others)
      else
        match d.putAside? with
        | some d => pure (found, others ++ [(k, d)])
        | none => throw .malformed) ((none : Option α), ([] : List (String × Document)))
    if stop.isClosed then do
      let v ← required .members tag found
      pure (v, .obj others (.closed .deferred))
    else throw .malformed
  | .arr (first :: rest) stop => do
    let v ← readTag variants stop first
    match (Document.arr rest stop).putAside? with
    | some others => pure (v, others)
    | none => throw .malformed
  | .arr [] (.closed _) => throw (.missingField tag)
  | _ => throw .malformed

/-- The other members of a variant that has no fields: an object may have any, an array none. -/
def readNothing : Document → Except Fault Unit
  | .arr (_ :: _) _ => .error .malformed
  | _ => .ok ()

/-- How far a record with a named variant and its content has been read. -/
inductive Adjacent (κ α : Type) where
  | unread
  /-- The variant is known. -/
  | tagged (variant : κ)
  /-- The content came first and waits for the variant. -/
  | waiting (content : Document)
  | complete (value : α)

/-- A record that names its variant by the member `tag` and gives its content in the member
`content`.  Content that comes after the variant is decoded where it stands; content that comes
before it is put aside and decoded once the variant is known.  `absent?` gives the value of a
variant that needs no content. -/
def readAdjacent {κ α : Type} (tag content : String) (variants : List (String × κ))
    (read : κ → Document → Except Fault α) (absent? : κ → Option α) :
    Document → Except Fault α
  | .obj members stop => do
    let state ← members.foldlM step .unread
    if stop.isClosed then finish state else throw .malformed
  | .arr (first :: second :: rest) stop => do
    let v ← readTag variants stop first
    let value ← read v second
    if stop.leaves rest then pure value else throw .malformed
  | .arr [first] stop => do
    let _ ← readTag variants stop first
    throw .malformed
  | _ => throw .malformed
where
  /-- Takes one more member. -/
  step (state : Adjacent κ α) : String × Document → Except Fault (Adjacent κ α)
    | (k, d) =>
      if k = tag then
        match state with
        | .unread => (readVariant variants d).map .tagged
        | .waiting c => do
          let v ← readVariant variants d
          (read v c).map .complete
        | .tagged _ => throw (.duplicateField tag)
        | .complete _ => throw (.duplicateField tag)
      else if k = content then
        match state with
        | .unread =>
          match d.putAside? with
          | some d => pure (.waiting d)
          | none => throw .malformed
        | .tagged v => (read v d).map .complete
        | .waiting _ => throw (.duplicateField content)
        | .complete _ => throw (.duplicateField content)
      else passOver state d
  /-- The value where no member is left. -/
  finish : Adjacent κ α → Except Fault α
    | .complete value => pure value
    | .tagged v =>
      match absent? v with
      | some value => pure value
      | none => throw (.missingField content)
    | .unread => throw (.missingField tag)
    | .waiting _ => throw (.missingField tag)

/-! ### Whole texts -/

/-- Decodes a text that holds one value and nothing after it. -/
def decodeText {α : Type} (read : Document → Except Fault α) (text : String) : Except Fault α := do
  let (document, ended) := ofText text
  let value ← read document
  if ended then .ok value else .error .malformed

end Document

end ContentLoom.Json

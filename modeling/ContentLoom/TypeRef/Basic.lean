import ContentLoom.Text.Segments

/-!
# Type references

A reference to a type as it is written where the type is used: a name, simple
or qualified, with arguments and perhaps a question mark at the end.  Array
brackets belong to the name.
-/

namespace ContentLoom

/-- A reference to a type. -/
structure TypeRef where
  name : String
  arguments : List TypeRef
  nullable : Bool
deriving Inhabited

namespace TypeRef

/-- The reference to a type by its name alone. -/
def named (name : String) : TypeRef := ⟨name, [], false⟩

/-- What stands after the last dot of a name. -/
def simpleOf (name : String) : String := String.ofList (Text.afterLast '.' name.toList)

/-- The last part of the name. -/
def simpleName (t : TypeRef) : String := simpleOf t.name

/-- The reference without a question mark at its end. -/
def withoutNullable (t : TypeRef) : TypeRef := { t with nullable := false }

/-! ### Text -/

mutual

/-- The characters of a reference. -/
def chars : TypeRef → List Char
  | ⟨name, arguments, nullable⟩ =>
    name.toList ++ argumentChars arguments ++ if nullable then ['?'] else []

/-- The characters of the arguments between angle brackets; none without arguments. -/
def argumentChars : List TypeRef → List Char
  | [] => []
  | t :: ts => '<' :: (chars t ++ moreChars ts)

/-- The characters of the arguments after the first, up to the closing bracket. -/
def moreChars : List TypeRef → List Char
  | [] => ['>']
  | t :: ts => ',' :: ' ' :: (chars t ++ moreChars ts)

end

/-- The text of a reference. -/
def text (t : TypeRef) : String := String.ofList t.chars

/-! ### Equality -/

mutual

/-- Whether two references are the same. -/
def same : TypeRef → TypeRef → Bool
  | ⟨n, as, q⟩, ⟨m, bs, r⟩ => n == m && sameAll as bs && q == r

/-- Whether two lists of references are the same. -/
def sameAll : List TypeRef → List TypeRef → Bool
  | [], [] => true
  | a :: as, b :: bs => same a b && sameAll as bs
  | _, _ => false

end

mutual

theorem same_iff (a b : TypeRef) : same a b = true ↔ a = b := by
  obtain ⟨n, as, q⟩ := a
  obtain ⟨m, bs, r⟩ := b
  simp [same, sameAll_iff as bs, and_assoc]

theorem sameAll_iff (as bs : List TypeRef) : sameAll as bs = true ↔ as = bs := by
  cases as with
  | nil => cases bs <;> simp [sameAll]
  | cons a as =>
    cases bs with
    | nil => simp [sameAll]
    | cons b bs => simp [sameAll, same_iff a b, sameAll_iff as bs]

end

instance : DecidableEq TypeRef := fun a b =>
  if h : same a b = true then isTrue ((same_iff a b).1 h)
  else isFalse fun hab => h ((same_iff a b).2 hab)

end TypeRef

end ContentLoom

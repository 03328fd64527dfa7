import ContentLoom.Pattern.Set
import ContentLoom.Text.Alphabetic
import ContentLoom.Text.Numeric

/-!
# Patterns

Which texts are patterns: alternatives of items, which are characters, sets,
places and groups, and may be repeated.  A group may have a name, which no
other has, or flags of its own; flags that stand alone are in force up to the
end of the group around them.  Bounds of repetitions would stand in braces;
there are none, for no text that comes here has a closing brace.
-/

namespace ContentLoom.Pattern

/-- A group whose parenthesis is open, or the whole pattern. -/
structure Group where
  mode : Mode
  /-- The heights of the finished alternatives. -/
  alternatives : List Nat
  /-- The heights of the items of the last alternative, the last one first. -/
  items : List Nat
  /-- Whether the last item may be repeated. -/
  repeatable : Bool

namespace Group

/-- A group with nothing in it yet. -/
def empty (mode : Mode) : Group := ⟨mode, [], [], false⟩

/-- One more item. -/
def add (g : Group) (height : Nat) : Group :=
  { g with items := height :: g.items, repeatable := true }

/-- The last item repeated. -/
def repeated? (g : Group) : Option Group :=
  match g.items with
  | h :: hs => if g.repeatable then some { g with items := (h + 1) :: hs } else none
  | [] => none

/-- One more alternative. -/
def alternate (g : Group) : Group :=
  { g with
    alternatives := joinedHeight g.items :: g.alternatives, items := [], repeatable := false }

/-- The flags in force from here on. -/
def switch (g : Group) (mode : Mode) : Group :=
  { g with mode := mode, items := 0 :: g.items, repeatable := false }

/-- How deep a group nests. -/
def height (g : Group) : Nat := joinedHeight (joinedHeight g.items :: g.alternatives)

end Group

/-! ### What stands after a parenthesis -/

/-- A mode with a flag set or cleared; other flags do not decide what a pattern is. -/
def Mode.flag (value : Bool) (m : Mode) : Char → Mode
  | 'i' => { m with caseless := value }
  | 'u' => { m with unicode := value }
  | 'x' => { m with spaced := value }
  | _ => m

/-- Whether a character is a flag or the sign that clears those after it. -/
def isFlag (c : Char) : Bool := "imsUuRx-".toList.contains c

/-- The mode after flags: each at most once, and one after the sign that clears. -/
def Mode.flags? (m : Mode) (cs : List Char) : Option Mode :=
  if cs.all isFlag ∧ cs.eraseDups = cs ∧ cs.getLast? ≠ some '-' then
    let set := (cs.takeWhile (· ≠ '-')).foldl (Mode.flag true) m
    some ((cs.dropWhile (· ≠ '-')).foldl (Mode.flag false) set)
  else none

/-- Whether a text can be the name of a group. -/
def isGroupName : List Char → Bool
  | [] => false
  | c :: cs =>
    (c == '_' || Text.isAlphabetic c) &&
      cs.all fun c => c == '_' || c == '.' || c == '[' || c == ']' || Text.isAlphanumeric c

/-- How a group begins. -/
inductive Heading where
  | plain
  | named (name : List Char)
  | flagged (mode : Mode)
  /-- Flags that stand alone. -/
  | switch (mode : Mode)
deriving DecidableEq

/-- A name and what follows it. -/
def named? (cs : List Char) : Option (Heading × List Char) := do
  let (name, rest) ← Text.cutFirst? '>' cs
  if isGroupName name then some (.named name, rest) else none

/-- The beginning of a group after its parenthesis. -/
def heading? (m : Mode) (cs : List Char) : Option (Heading × List Char) :=
  match m.skip cs with
  | '?' :: 'P' :: '<' :: rest => named? rest
  | '?' :: '<' :: rest => named? rest
  | '?' :: rest => do
    let flags := rest.takeWhile fun c => c ≠ ':' ∧ c ≠ ')'
    let mode ← m.flags? flags
    match rest.drop flags.length with
    | ':' :: rest => some (.flagged mode, rest)
    | ')' :: rest => if flags.isEmpty then none else some (.switch mode, rest)
    | _ => none
  | rest => some (.plain, rest)

/-! ### Patterns -/

/-- The group that is read, the groups around it, and the names given so far. -/
structure Progress where
  current : Group
  outer : List Group
  names : List (List Char)
  rest : List Char

namespace Progress

/-- One more item of the current group. -/
def add (p : Progress) (height : Nat) (rest : List Char) : Progress :=
  { p with current := p.current.add height, rest := rest }

/-- A group inside the current one. -/
def enter (p : Progress) (mode : Mode) (rest : List Char) : Progress :=
  { p with current := .empty mode, outer := p.current :: p.outer, rest := rest }

/-- Reads the beginning of a group. -/
def open? (p : Progress) (cs : List Char) : Option Progress := do
  let mode := p.current.mode
  match ← heading? mode cs with
  | (.plain, rest) => some (p.enter mode rest)
  | (.named name, rest) =>
    if p.names.contains name then none
    else some { p.enter mode rest with names := name :: p.names }
  | (.flagged inner, rest) => some (p.enter inner rest)
  | (.switch mode, rest) => some { p with current := p.current.switch mode, rest := rest }

/-- Ends the current group. -/
def close? (p : Progress) (rest : List Char) : Option Progress :=
  match p.outer with
  | [] => none
  | around :: outer =>
    some { p with current := around.add (p.current.height + 1), outer := outer, rest := rest }

/-- Repeats the last item; a question mark right after the sign belongs to it. -/
def repeat? (p : Progress) (rest : List Char) : Option Progress := do
  let current ← p.current.repeated?
  let rest := match rest with
    | '?' :: rest => rest
    | rest => rest
  some { p with current := current, rest := rest }

/-- Reads what stands at the beginning of a text. -/
def step? (p : Progress) : List Char → Option Progress
  | [] => none
  | '(' :: rest => p.open? rest
  | ')' :: rest => p.close? rest
  | '|' :: rest => some { p with current := p.current.alternate, rest := rest }
  | '*' :: rest => p.repeat? rest
  | '+' :: rest => p.repeat? rest
  | '?' :: rest => p.repeat? rest
  | '{' :: _ => none
  | '[' :: rest => (set? p.current.mode rest).map fun (height, rest) => p.add height rest
  | '^' :: rest => some (p.add 0 rest)
  | '$' :: rest => some (p.add 0 rest)
  | '.' :: rest => if p.current.mode.unicode then some (p.add 0 rest) else none
  | '\\' :: rest => do
    match ← escape? p.current.mode rest with
    | (.char _, rest) => if p.current.mode.comparesChars then some (p.add 0 rest) else none
    | (.kind, rest) => some (p.add 0 rest)
    | (.place, rest) => some (p.add 0 rest)
  | _ :: rest => if p.current.mode.comparesChars then some (p.add 0 rest) else none

/-- The height of a whole pattern. -/
def finish? : Nat → Progress → Option Nat
  | 0, _ => none
  | fuel + 1, p =>
    match p.current.mode.skip p.rest with
    | [] => if p.outer.isEmpty then some p.current.height else none
    | cs => do finish? fuel (← p.step? cs)

end Progress

/-- The number of constructs that may lie one in another. -/
def nestingLimit : Nat := 250

/-- Whether a text is a pattern. -/
def isPattern (cs : List Char) : Bool :=
  match Progress.finish? (cs.length + 1) ⟨.empty .standard, [], [], cs⟩ with
  | some height => height ≤ nestingLimit
  | none => false

end ContentLoom.Pattern

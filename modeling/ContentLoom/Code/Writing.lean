/-!
# Writing code

Generated code is a sequence of operations that write lines and change the
depth of indentation.  The text is rendered from the operations at the end;
four spaces stand before a line for each level of depth, and none before an
empty line.
-/

namespace ContentLoom.Code

/-- The brace before the code of a block. -/
def openBrace : String := String.ofList ['{']

/-- The brace behind the code of a block. -/
def closeBrace : String := String.ofList ['}']

/-- One operation. -/
inductive Write where
  /-- A line at the current depth. -/
  | line (text : String)
  /-- An empty line. -/
  | blank
  /-- A header unless it is empty, an opening brace, and one level more. -/
  | openBlock (header : String)
  /-- One level less, and a closing line. -/
  | closeBlock (text : String)
  /-- One level more. -/
  | indent
  /-- One level less. -/
  | dedent
deriving DecidableEq

namespace Write

/-- The depth after an operation. -/
def depthAfter (depth : Nat) : Write → Nat
  | openBlock _ => depth + 1
  | closeBlock _ => depth - 1
  | indent => depth + 1
  | dedent => depth - 1
  | _ => depth

/-- The spaces before a line. -/
def indentation (depth : Nat) : List Char := List.replicate (4 * depth) ' '

/-- A line with its end; an empty one has no spaces. -/
def lineChars (depth : Nat) (text : String) : List Char :=
  if text.isEmpty then ['\n'] else indentation depth ++ text.toList ++ ['\n']

/-- What an operation writes at a depth. -/
def chars (depth : Nat) : Write → List Char
  | line text => lineChars depth text
  | blank => ['\n']
  | openBlock header =>
    (if header.isEmpty then [] else lineChars depth header) ++ lineChars depth openBrace
  | closeBlock text => lineChars (depth - 1) text
  | indent => []
  | dedent => []

end Write

/-- The depth after some operations. -/
def depthAfter (depth : Nat) (ws : List Write) : Nat := ws.foldl Write.depthAfter depth

/-- The characters that some operations write from a depth on. -/
def renderChars : Nat → List Write → List Char
  | _, [] => []
  | depth, w :: ws => w.chars depth ++ renderChars (w.depthAfter depth) ws

/-- The text that some operations write. -/
def render (ws : List Write) : String := String.ofList (renderChars 0 ws)

theorem depthAfter_append (depth : Nat) (ws vs : List Write) :
    depthAfter depth (ws ++ vs) = depthAfter (depthAfter depth ws) vs := by
  simp [depthAfter]

theorem renderChars_append (depth : Nat) (ws vs : List Write) :
    renderChars depth (ws ++ vs) = renderChars depth ws ++ renderChars (depthAfter depth ws) vs := by
  induction ws generalizing depth with
  | nil => rfl
  | cons w ws ih => simp [renderChars, ih, depthAfter]

/-! ### Pieces of code -/

/-- Several lines at the current depth. -/
def lines (ts : List String) : List Write := ts.map .line

/-- One directive for each namespace used. -/
def usings (namespaces : List String) : List Write :=
  namespaces.map fun n => .line ("using " ++ n ++ ";")

/-- The namespace of a whole file, with an empty line after it. -/
def namespaceOf (name : String) : List Write := [.line ("namespace " ++ name ++ ";"), .blank]

/-- The comment that says what a type is for. -/
def summary (text : String) : List Write :=
  [.line "/// <summary>", .line ("/// " ++ text), .line "/// </summary>"]

/-- Code between braces after a header; the closing line may be another than a brace. -/
def blockWith (ending header : String) (body : List Write) : List Write :=
  .openBlock header :: (body ++ [.closeBlock ending])

/-- Code between braces after a header. -/
def block (header : String) (body : List Write) : List Write := blockWith closeBrace header body

/-- Code one level deeper. -/
def indented (body : List Write) : List Write := .indent :: (body ++ [.dedent])

/-- A property that can be read and written. -/
def settable (head : String) : String := head ++ " { get; set; }"

/-- A property that can be read. -/
def readable (head : String) : String := head ++ " { get; }"

/-- The lines at the beginning of every file. -/
def fileHead : List Write := lines ["// <auto-generated/>", "#nullable enable"]

/-- A file: its head, the namespaces it uses, its own namespace, and the code. -/
def file (used : List String) (ns : String) (body : List Write) : List Write :=
  fileHead ++ (usings used ++ ((if used.isEmpty then [] else [.blank]) ++ (namespaceOf ns ++ body)))

end ContentLoom.Code

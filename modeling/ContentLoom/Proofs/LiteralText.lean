import ContentLoom.Code.Literal
import Mathlib.Logic.Function.Basic

/-!
# The text of literals

A literal is read as the text that it was written for, so different texts have
different literals.
-/

namespace ContentLoom.Code

/-! ### Reading a literal -/

/-- The character that an escape stands for. -/
def unescape? : Char → Option Char
  | '"' => some '"'
  | '\\' => some '\\'
  | 'n' => some '\n'
  | 'r' => some '\r'
  | 't' => some '\t'
  | '0' => some '\x00'
  | _ => none

/-- The text up to the closing quote of a literal, and what follows it. -/
def readBody : List Char → Option (List Char × List Char)
  | [] => none
  | '"' :: rest => some ([], rest)
  | ['\\'] => none
  | '\\' :: e :: rest => do
    let c ← unescape? e
    let (cs, after) ← readBody rest
    some (c :: cs, after)
  | c :: rest => do
    let (cs, after) ← readBody rest
    some (c :: cs, after)

/-- The text of a literal that ends with the characters. -/
def readLiteral? : List Char → Option (List Char)
  | '"' :: rest =>
    match readBody rest with
    | some (cs, []) => some cs
    | _ => none
  | _ => none

/-! ### Reading what was written -/

/-- The characters stand for `c` between the quotes of a literal. -/
inductive Written (c : Char) : List Char → Prop
  | plain (unquoted : c ≠ '"') (unescaped : c ≠ '\\') : Written c [c]
  | named {e : Char} (stands : unescape? e = some c) : Written c ['\\', e]

theorem written_escape (c : Char) : Written c (escape c) := by
  have hnamed {e d : Char} (hsame : c = d) (hstands : unescape? e = some d) :
      Written c ['\\', e] := .named (hsame ▸ hstands)
  unfold escape
  split
  · exact hnamed ‹_› rfl
  · split
    · exact hnamed ‹_› rfl
    · split
      · exact hnamed ‹_› rfl
      · split
        · exact hnamed ‹_› rfl
        · split
          · exact hnamed ‹_› rfl
          · split
            · exact hnamed ‹_› rfl
            · exact .plain ‹_› ‹_›

theorem readBody_plain {c : Char} (hquote : c ≠ '"') (hbackslash : c ≠ '\\') (tail : List Char) :
    readBody (c :: tail) = (readBody tail).map fun (cs, after) => (c :: cs, after) := by
  cases hrest : readBody tail with
  | none => simp [readBody, hbackslash, hrest]
  | some read => simp [readBody, hbackslash, hrest]

theorem readBody_backslash {e c : Char} (hstands : unescape? e = some c) (tail : List Char) :
    readBody ('\\' :: e :: tail) = (readBody tail).map fun (cs, after) => (c :: cs, after) := by
  cases hrest : readBody tail with
  | none => simp [readBody, hstands, hrest]
  | some read => simp [readBody, hstands, hrest]

/-- What a character is written as is read as the character, whatever follows. -/
theorem readBody_written {c : Char} {written : List Char} (h : Written c written)
    (tail : List Char) :
    readBody (written ++ tail) = (readBody tail).map fun (cs, after) => (c :: cs, after) := by
  cases h with
  | plain hquote hbackslash => exact readBody_plain hquote hbackslash tail
  | named hstands => exact readBody_backslash hstands tail

theorem readBody_flatMap_escape (cs after : List Char) :
    readBody (cs.flatMap escape ++ '"' :: after) = some (cs, after) := by
  induction cs with
  | nil => rfl
  | cons c cs ih =>
    rw [List.flatMap_cons, List.append_assoc, readBody_written (written_escape c), ih,
      Option.map_some]

theorem readLiteral?_literalChars (cs : List Char) : readLiteral? (literalChars cs) = some cs := by
  rw [literalChars, readLiteral?, readBody_flatMap_escape]

theorem literal_injective : Function.Injective literal := by
  intro s t h
  have hchars : literalChars s.toList = literalChars t.toList := String.ofList_injective h
  have hread := congrArg readLiteral? hchars
  rw [readLiteral?_literalChars, readLiteral?_literalChars] at hread
  exact String.toList_inj.1 (Option.some.inj hread)

end ContentLoom.Code

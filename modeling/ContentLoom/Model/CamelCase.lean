import ContentLoom.Text.Case

/-!
# Camel case

How the name of a property is written in the JSON of a model.  A run of
capitals at the front is lowered as a unit, except for the capital that starts
the next word: `URLValue` becomes `urlValue`.
-/

namespace ContentLoom.Model

/-- Lowers capitals after the first one, up to the one that starts a word.  A space after the run
leaves no word to start. -/
def lowerRun : List Char → List Char
  | [] => []
  | [c] => [Text.lowerHead c]
  | c :: next :: rest =>
    if Text.isUppercase next then Text.lowerHead c :: lowerRun (next :: rest)
    else if next = ' ' then Text.lowerHead c :: next :: rest
    else c :: next :: rest

/-- The characters of a name in camel case. -/
def camelChars : List Char → List Char
  | [] => []
  | c :: rest =>
    if Text.isUppercase c then
      match rest with
      | [] => [Text.lowerHead c]
      | d :: _ => Text.lowerHead c :: if Text.isUppercase d then lowerRun rest else rest
    else c :: rest

/-- A name in camel case. -/
def camelCase (name : String) : String := String.ofList (camelChars name.toList)

end ContentLoom.Model

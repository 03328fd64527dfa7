import ContentLoom.Graph.Basic
import ContentLoom.Toml.Reader

/-!
# Graphs in files

A graph is kept as JSON or as TOML; the extension of the file tells which.
-/

namespace ContentLoom.Graph

/-- The formats of a graph. -/
inductive Format where
  | json
  | toml
deriving DecidableEq

/-- The format that an extension stands for, in any case. -/
def Format.ofExtension? (extension : List Char) : Option Format :=
  if Text.eqIgnoringAsciiCase extension "json".toList then some .json
  else if Text.eqIgnoringAsciiCase extension "toml".toList then some .toml
  else none

/-- The name of a format. -/
def Format.text : Format → String
  | .json => "JSON"
  | .toml => "TOML"

/-- The graph of a TOML text. -/
def ofToml (text : String) : Except Json.Fault Graph := Toml.decodeText ofDocument text

/-- The graph of a text in a format. -/
def ofFormat : Format → String → Except Json.Fault Graph
  | .json => ofText
  | .toml => ofToml

end ContentLoom.Graph

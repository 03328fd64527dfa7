import ContentLoom.Command.Invocation

/-!
# Command line

The arguments are read from left to right: options of the whole program, the
name of a command, and its options.  A long option takes its value after an
equals sign or from the next argument, a short one also from the rest of its
own; a value that looks like an option is only taken where it is attached.  No
option may be given twice.  A request for help or for the version ends the
reading where it stands, and so does a mistake.
-/

namespace ContentLoom.Command.Arguments

/-- A command with its options. -/
inductive Subcommand where
  | generate (flags : Flags)
  | check (flags : Flags)
  | resolve (flags : Flags) (pretty : Bool)
deriving DecidableEq

/-- What the arguments ask for. -/
inductive Reading where
  | help
  | version
  | invalid
  | command (logLevel : Option String) (command : Subcommand)
deriving DecidableEq

/-! ### Options -/

/-- What an option is for. -/
inductive OptionKind where
  | flag
  /-- A path; an empty one is refused. -/
  | path
  /-- Any text. -/
  | text
  | help
  | version
deriving DecidableEq

/-- An option with its names. -/
structure OptionRule where
  long : String
  short : Option Char
  kind : OptionKind
deriving DecidableEq

/-- The options that every level knows. -/
def everywhere : List OptionRule := [⟨"log-level", none, .text⟩, ⟨"help", some 'h', .help⟩]

/-- The options before the command. -/
def topOptions : List OptionRule := ⟨"version", some 'V', .version⟩ :: everywhere

/-- The options that all commands share. -/
def commonOptions : List OptionRule :=
  [⟨"input", some 'i', .path⟩, ⟨"manifest", some 'm', .path⟩, ⟨"forms", none, .flag⟩,
    ⟨"namespace", none, .text⟩] ++ everywhere

/-- The option for the directory of the generated files. -/
def outputOption : OptionRule := ⟨"output", some 'o', .path⟩

/-- The option for readable JSON. -/
def prettyOption : OptionRule := ⟨"pretty", none, .flag⟩

/-- The options of each command by its name. -/
def commandOptions : List (String × List OptionRule) :=
  [("generate", outputOption :: commonOptions), ("check", outputOption :: commonOptions),
    ("resolve", prettyOption :: commonOptions)]

/-! ### Reading -/

/-- The options given, by long name; a flag has an empty value. -/
abbrev Given := List (String × String)

/-- How the reading of a level ends. -/
inductive Outcome where
  | stopped (reading : Reading)
  /-- No argument is left. -/
  | ended (given : Given)
  /-- A word that is no option, and the arguments after it. -/
  | word (given : Given) (word : String) (rest : List String)

/-- Whether an argument is taken as an option or as the end of options. -/
def looksLikeOption (argument : String) : Bool :=
  match argument.toList with
  | '-' :: _ :: _ => true
  | _ => false

/-- Adds an option, unless it was given or its value is refused. -/
def add (given : Given) (rule : OptionRule) (value : String) : Option Given :=
  if (given.lookup rule.long).isSome then none
  else if rule.kind = .path ∧ value = "" then none
  else some (given ++ [(rule.long, value)])

/-- What one argument does. -/
inductive Effect where
  | stop (reading : Reading)
  | continueWith (given : Given)
  /-- The value is the next argument. -/
  | awaits (rule : OptionRule)
  | word

/-- Takes an option with the value attached to it, if there is one. -/
def takeOption (given : Given) (rule : OptionRule) (attached : Option String) : Effect :=
  match rule.kind, attached with
  | .help, none => .stop .help
  | .version, none => .stop .version
  | .flag, none =>
    match add given rule "" with
    | some given => .continueWith given
    | none => .stop .invalid
  | .path, none => .awaits rule
  | .text, none => .awaits rule
  | .path, some value => added (add given rule value)
  | .text, some value => added (add given rule value)
  | _, some _ => .stop .invalid
where
  /-- Goes on with what was added. -/
  added : Option Given → Effect
    | some given => .continueWith given
    | none => .stop .invalid

/-- Takes a long option without its hyphens. -/
def takeLong (rules : List OptionRule) (given : Given) (cs : List Char) : Effect :=
  let (name, attached) := match Text.cutFirst? '=' cs with
    | some (name, value) => (name, some (String.ofList value))
    | none => (cs, none)
  match rules.find? (·.long.toList == name) with
  | some rule => takeOption given rule attached
  | none => .stop .invalid

/-- The value attached to a short option; an equals sign in front does not count. -/
def attachedValue : List Char → Option String
  | [] => none
  | '=' :: value => some (String.ofList value)
  | value => some (String.ofList value)

/-- Takes a short option; only those that end the reading or take a value have a short name. -/
def takeShort (rules : List OptionRule) (given : Given) (c : Char) (rest : List Char) : Effect :=
  match rules.find? (·.short == some c) with
  | none => .stop .invalid
  | some rule =>
    match rule.kind with
    | .help => .stop .help
    | .version => .stop .version
    | _ => takeOption given rule (attachedValue rest)

/-- Takes one argument. -/
def take (rules : List OptionRule) (given : Given) (argument : String) : Effect :=
  match argument.toList with
  | '-' :: '-' :: name => takeLong rules given name
  | '-' :: c :: rest => takeShort rules given c rest
  | _ => .word

/-- Reads the arguments of a level. -/
def scan (rules : List OptionRule) : Given → List String → Outcome
  | given, [] => .ended given
  | given, argument :: rest =>
    if argument = "--" then
      if rest.isEmpty then .ended given else .stopped .invalid
    else
      match take rules given argument with
      | .stop reading => .stopped reading
      | .continueWith given => scan rules given rest
      | .word => .word given argument rest
      | .awaits rule =>
        match rest with
        | [] => .stopped .invalid
        | value :: rest =>
          if looksLikeOption value then .stopped .invalid
          else
            match add given rule value with
            | some given => scan rules given rest
            | none => .stopped .invalid

/-! ### Commands -/

/-- What the options of a command say. -/
def flagsOf (given : Given) : Flags where
  input := given.lookup "input"
  output := given.lookup "output"
  manifest := given.lookup "manifest"
  forms := (given.lookup "forms").isSome
  sharedNamespace := given.lookup "namespace"

/-- The command with a name and its options. -/
def commandOf (name : String) (given : Given) : Option Subcommand :=
  match name with
  | "generate" => some (.generate (flagsOf given))
  | "check" => some (.check (flagsOf given))
  | "resolve" => some (.resolve (flagsOf given) (given.lookup "pretty").isSome)
  | _ => none

/-- Whether help is available under some words. -/
def hasHelp : List String → Bool
  | [] => true
  | [name] => name == "help" || (commandOptions.lookup name).isSome
  | _ => false

/-- Reads the options of a command. -/
def readCommand (top : Given) (name : String) (rules : List OptionRule) (arguments : List String) :
    Reading :=
  match scan rules [] arguments with
  | .stopped reading => reading
  | .word _ _ _ => .invalid
  | .ended given =>
    match commandOf name given with
    | some command => .command ((given.lookup "log-level").or (top.lookup "log-level")) command
    | none => .invalid

/-- Reads all arguments. -/
def read (arguments : List String) : Reading :=
  match scan topOptions [] arguments with
  | .stopped reading => reading
  | .ended _ => .invalid
  | .word given name rest =>
    if name = "help" then if hasHelp rest then .help else .invalid
    else
      match commandOptions.lookup name with
      | some rules => readCommand given name rules rest
      | none => .invalid

end ContentLoom.Command.Arguments

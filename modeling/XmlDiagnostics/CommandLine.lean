import XmlDiagnostics.Replay

/-!
# The command line

The words after the name of the program: two paths, and options before, between or after
them.  An option is a word with two hyphens, or one hyphen and a letter.  Its value is the
rest of that word, after an equals sign if there is one, or else the next word, unless
that begins with a hyphen itself.  After a word `--` all words are paths.

An option is complete only when the next option or path begins, so what is wrong with it
comes to light there, after anything that is wrong with the new word on its own: that it
is no option, that it is a path too many, or that it has a value that it cannot take.
-/

namespace XmlDiagnostics.CommandLine

/-- What the words of a command line ask for. -/
structure Invocation where
  /-- The path of the document. -/
  document : String
  /-- The path of the recorded events. -/
  events : String
  /-- The path of the settings. -/
  config : Option String
  /-- The family of the errors. -/
  family : Option Family
  /-- How much is logged. -/
  logLevel : String
deriving DecidableEq, Repr

/-- Why words ask for nothing. -/
inductive Refusal where
  /-- A path is missing. -/
  | missingPath
  /-- An option is not known, or there is a path too many. -/
  | unknownWord
  /-- An option is without its value. -/
  | missingValue
  /-- An option that takes no value has one. -/
  | needlessValue
  /-- The value of an option means nothing. -/
  | badValue
  /-- An option is there twice. -/
  | repeated
  /-- The user asks for help. -/
  | help
  /-- The user asks for the version. -/
  | version
deriving DecidableEq, Repr

/-- An option with a value. -/
inductive Setting where
  /-- The path of the settings. -/
  | config
  /-- The family of the errors. -/
  | family
  /-- How much is logged. -/
  | logLevel
deriving DecidableEq, Repr

/-- What an option is for. -/
inductive Purpose where
  /-- To set something. -/
  | set (setting : Setting)
  /-- To end with this refusal. -/
  | answer (refusal : Refusal)
deriving DecidableEq, Repr

/-- The purpose of an option of two hyphens. -/
def purposeOfName? : String → Option Purpose
  | "config" => some (.set .config)
  | "family" => some (.set .family)
  | "log-level" => some (.set .logLevel)
  | "help" => some (.answer .help)
  | "version" => some (.answer .version)
  | _ => none

/-- The purpose of an option of one hyphen. -/
def purposeOfLetter? : Char → Option Purpose
  | 'c' => some (.set .config)
  | 'f' => some (.set .family)
  | 'h' => some (.answer .help)
  | 'V' => some (.answer .version)
  | _ => none

/-- The words that have been read. -/
structure Progress where
  /-- The paths in order. -/
  paths : List String := []
  /-- The path of the settings. -/
  config : Option String := none
  /-- The family of the errors. -/
  family : Option Family := none
  /-- How much is logged. -/
  logLevel : Option String := none
  /-- The last option, if nothing has completed it, with its value, if it has one. -/
  pending : Option (Setting × Option String) := none
  /-- Whether all further words are paths. -/
  pathsOnly : Bool := false
deriving DecidableEq, Repr

namespace Progress

/-- Gives an option its value. -/
def give (p : Progress) : Setting → String → Except Refusal Progress
  | .config, value =>
    if p.config.isSome then .error .repeated else .ok { p with config := some value }
  | .family, value =>
    if p.family.isSome then .error .repeated
    else match Family.ofName? value with
      | none => .error .badValue
      | some family => .ok { p with family := some family }
  | .logLevel, value =>
    if p.logLevel.isSome then .error .repeated else .ok { p with logLevel := some value }

/-- Completes the last option. -/
def complete (p : Progress) : Except Refusal Progress :=
  match p.pending with
  | none => .ok p
  | some (_, none) => .error .missingValue
  | some (setting, some value) => { p with pending := none }.give setting value

/-- Reads a path. -/
def readPath (p : Progress) (word : String) : Except Refusal Progress :=
  if p.paths.length = 2 then .error .unknownWord
  else p.complete.map fun p ↦ { p with paths := p.paths ++ [word] }

/-- Reads an option, with the value that its word has. -/
def readOption (p : Progress) (purpose : Option Purpose) (value : Option String) :
    Except Refusal Progress :=
  match purpose with
  | none => .error .unknownWord
  | some (.answer refusal) =>
    if value.isSome then .error .needlessValue
    else do
      let _ ← p.complete
      .error refusal
  | some (.set setting) => do
    let p ← p.complete
    match value with
    | none => .ok { p with pending := some (setting, none) }
    | some value => p.give setting value

/-- Reads one word. -/
def read (p : Progress) (word : String) : Except Refusal Progress :=
  if p.pathsOnly then p.readPath word
  else match word.toList with
    | ['-', '-'] => .ok { p with pathsOnly := true }
    | '-' :: '-' :: option =>
      let name := String.ofList (option.takeWhile (· ≠ '='))
      let value := (option.dropWhile (· ≠ '=')).tail?.map String.ofList
      p.readOption (purposeOfName? name) value
    | '-' :: letter :: rest =>
      match purposeOfLetter? letter, rest with
      | some (.set setting), '=' :: value =>
        p.readOption (some (.set setting)) (String.ofList value)
      | some (.set setting), _ :: _ => p.readOption (some (.set setting)) (String.ofList rest)
      | purpose, _ => p.readOption purpose none
    | _ =>
      match p.pending with
      | some (setting, none) => .ok { p with pending := some (setting, some word) }
      | _ => p.readPath word

/-- What the words ask for once all have been read. -/
def finish (p : Progress) : Except Refusal Invocation := do
  let p ← p.complete
  match p.paths with
  | [document, events] => .ok ⟨document, events, p.config, p.family, p.logLevel.getD "info"⟩
  | _ => .error .missingPath

end Progress

/-- What the words of a command line ask for. -/
def parse (words : List String) : Except Refusal Invocation := do
  (← words.foldlM Progress.read {}).finish

namespace Refusal

/-- The sentence for a refusal. -/
def message : Refusal → String
  | missingPath => "error: the paths of a document and of recorded events are required"
  | unknownWord => "error: unexpected argument"
  | missingValue => "error: a value is required for an option"
  | needlessValue => "error: an option takes no value"
  | badValue => "error: invalid value for an option"
  | repeated => "error: an option cannot be used multiple times"
  | help =>
    "Usage: " ++ Failure.programName ++
      " <DOCUMENT> <EVENTS> [--config FILE] [--family xml|schema] [--log-level LEVEL]"
  | version => Failure.programName ++ " 0.1.0"

/-- Whether the user got what they asked for. -/
def isAnswer (r : Refusal) : Bool :=
  r = help || r = version

end Refusal

namespace Invocation

/-- What an invocation asks of a replay. -/
def options (i : Invocation) : Replay.Options where
  settingsPath := i.config
  family := i.family

end Invocation

end XmlDiagnostics.CommandLine

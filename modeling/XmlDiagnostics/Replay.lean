import XmlDiagnostics.Event.Record
import XmlDiagnostics.Report
import XmlDiagnostics.Settings.Record

/-!
# Replays

A replay is a pass over events that were recorded in a file.  It reads the settings, then
the document, then the events, and the first of them that fails ends it.

Settings are searched for.  A file that the user names is the only one that counts, and
has to exist.  Otherwise the file of the working directory counts if it exists, then the
file of the system, and without any file the settings are the defaults.
-/

namespace XmlDiagnostics

/-- What there is to read at a path. -/
inductive StoredFile where
  /-- There is no file. -/
  | missing
  /-- There is a file, but reading it fails. -/
  | unreadable (reason : String)
  /-- There is a text. -/
  | text (content : String)
deriving DecidableEq, Repr

namespace StoredFile

/-- The file with given bytes, which have to be UTF-8. -/
def ofBytes (bytes : ByteArray) : StoredFile :=
  match String.fromUTF8? bytes with
  | some content => text content
  | none => unreadable "stream did not contain valid UTF-8"

/-- Whether there is a file. -/
def isPresent : StoredFile → Bool
  | missing => false
  | _ => true

/-- The text of a file. -/
def read : StoredFile → Except Failure String
  | missing => .error (.io "No such file or directory (os error 2)")
  | unreadable reason => .error (.io reason)
  | text content => .ok content

end StoredFile

/-- The files that a replay may read. -/
structure Replay.Files where
  /-- The document. -/
  document : StoredFile
  /-- The recorded events. -/
  events : StoredFile
  /-- The settings that the user names. -/
  namedSettings : StoredFile
  /-- The settings of the working directory. -/
  localSettings : StoredFile
  /-- The settings of the system. -/
  systemSettings : StoredFile
deriving DecidableEq, Repr

/-- What the user asks of a replay. -/
structure Replay.Options where
  /-- The path of the settings that the user names. -/
  settingsPath : Option String := none
  /-- The family that the user chooses over the settings. -/
  family : Option Family := none
deriving DecidableEq, Repr

/-- What a replay leaves. -/
structure Replay where
  /-- The document. -/
  document : Document
  /-- The pass over the events. -/
  pass : Pass
deriving DecidableEq

namespace Replay

/-- The settings in a file. -/
def settingsIn (file : StoredFile) : Except Failure Settings := do
  let content ← file.read
  match Settings.ofText? content with
  | some settings => .ok settings
  | none => .error (.settings "Failed to parse TOML configuration")

/-- The settings that count. -/
def findSettings (files : Files) (path : Option String) : Except Failure Settings :=
  match path with
  | some path =>
    if files.namedSettings.isPresent then settingsIn files.namedSettings
    else .error (.settings ("Missing configuration file: " ++ path))
  | none =>
    if files.localSettings.isPresent then settingsIn files.localSettings
    else if files.systemSettings.isPresent then settingsIn files.systemSettings
    else .ok {}

/-- The events in a file. -/
def eventsIn (file : StoredFile) : Except Failure (List Event) := do
  let content ← file.read
  match Event.listOfText? content with
  | some events => .ok events
  | none => .error (.events "the file is not a list of events")

/-- The settings with the family that the user chooses. -/
def chooseFamily (family : Option Family) (settings : Settings) : Settings :=
  { settings with family := family.getD settings.family }

/-- Replays recorded events. -/
def run (files : Files) (options : Options) : Except Failure Replay := do
  let settings ← findSettings files options.settingsPath
  let document ← files.document.read
  let events ← eventsIn files.events
  let document := Document.ofString document
  return ⟨document, Pass.run (chooseFamily options.family settings) document events⟩

/-- The reports of a replay: one for each diagnostic, and one for the error that stopped
the pass, if one did. -/
def reports (r : Replay) : List Report :=
  r.pass.log.reports r.document ++
    (r.pass.abort.map fun abort ↦ (Failure.fatal abort).report).toList

end Replay

end XmlDiagnostics

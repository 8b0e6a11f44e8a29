import XmlDiagnostics.Pass

/-!
# Reports

A `Report` is what a renderer gets to show: a text, and what goes with it.  Diagnostics
and the errors of the program itself both become reports.  A diagnostic is shown with the
bytes of the document that it is about, unless its range is outside the document.
-/

namespace XmlDiagnostics

/-- How a report is shown. -/
inductive Report.Level where
  /-- An error. -/
  | error
  /-- A warning. -/
  | warning
deriving DecidableEq, Repr

/-- The bytes of a document that a report points at. -/
structure Report.Label where
  /-- The number of bytes before the label. -/
  offset : Nat
  /-- The number of bytes of the label. -/
  length : Nat
deriving DecidableEq, Repr

/-- What a renderer shows. -/
structure Report where
  /-- The text. -/
  display : String
  /-- The code of the kind of report. -/
  code : String
  /-- How it is shown, if that is laid down. -/
  level : Option Report.Level
  /-- What the reader may do. -/
  help : Option String
  /-- Whether the text of the document goes with the report. -/
  hasSource : Bool
  /-- The part of the document that the report is about. -/
  label : Option Report.Label
  /-- The messages of the failures behind the report. -/
  chain : List String
deriving DecidableEq, Repr

namespace Report

/-- The word for the way in which a report is shown. -/
def Level.text : Level → String
  | error => "error"
  | warning => "warning"

/-- A report as lines of text: what it says, what it points at, what is behind it, and what
the reader may do. -/
def lines (r : Report) : List String :=
  [(r.level.getD .error).text ++ "[" ++ r.code ++ "]: " ++ r.display] ++
    (r.label.map fun l ↦
      "  at bytes " ++ toString l.offset ++ " to " ++ toString (l.offset + l.length)).toList ++
    r.chain.map ("  caused by: " ++ ·) ++
    (r.help.map ("  help: " ++ ·)).toList

end Report

/-- Why the program cannot go on. -/
inductive Failure where
  /-- A file cannot be read. -/
  | io (reason : String)
  /-- A fatal error stopped the pass. -/
  | fatal (abort : Abort)
  /-- The settings cannot be used. -/
  | settings (reason : String)
  /-- The recorded events cannot be used. -/
  | events (reason : String)
deriving DecidableEq, Repr

namespace Failure

/-- The name that the program goes by, in codes and in the paths of its settings. -/
def programName : String := "sextant"

/-- The sentence for a failure. -/
def message : Failure → String
  | io reason => "I/O error: " ++ reason
  | fatal abort => "Fatal error: " ++ abort.message
  | settings reason => "Configuration error: " ++ reason
  | events reason => "Invalid error events: " ++ reason

/-- The code of the kind of failure. -/
def code : Failure → String
  | io _ => programName ++ "::io"
  | fatal _ => programName ++ "::fatal"
  | settings _ => programName ++ "::config"
  | events _ => programName ++ "::events"

/-- What the reader may do about a failure. -/
def help : Failure → Option String
  | fatal abort =>
    some ("parsing stopped at `" ++ abort.key ++
      "`; set `reporter.continue_after_fatal_error` to keep going")
  | _ => none

/-- The messages of the failures behind a failure. -/
def chain : Failure → List String
  | io reason => [reason]
  | fatal abort => abort.message :: abort.cause.toList
  | _ => []

/-- The report of a failure. -/
def report (f : Failure) : Report where
  display := f.message
  code := f.code
  level := none
  help := f.help
  hasSource := false
  label := none
  chain := f.chain

end Failure

namespace Diagnostic

/-- The bytes that the range of a diagnostic covers.  A range that ends before it begins
covers none. -/
def label? (document : Document) (d : Diagnostic) : Option Report.Label :=
  match document.offsetAt d.range.start, document.offsetAt d.range.stop with
  | .ok start, .ok stop => do
    let low ← document.byteOffset? start
    let high ← document.byteOffset? (max start stop)
    return ⟨low, high - low⟩
  | _, _ => none

/-- The report of a diagnostic. -/
def report (document : Document) (d : Diagnostic) : Report where
  display := d.message
  code := d.source ++ "::" ++ d.code
  level := some (match d.severity with | .error => .error | .warning => .warning)
  help := none
  hasSource := true
  label := d.label? document
  chain := []

/-- The reports of a log, in its order. -/
def Log.reports (document : Document) (log : Log) : List Report :=
  log.entries.map (report document)

end Diagnostic

end XmlDiagnostics

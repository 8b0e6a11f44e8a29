import XmlDiagnostics.Position

/-!
# Diagnostics

A `Diagnostic` is what the reader of a document sees of one problem: a range, a message,
a severity, the tool that found it, and the key of the kind of problem.  A
`Diagnostic.Log` keeps diagnostics in the order in which they came, and
`Log.record` adds one only if no equal one is there.
-/

namespace XmlDiagnostics

/-- How serious a diagnostic is. -/
inductive Diagnostic.Severity where
  /-- The document is not valid. -/
  | error
  /-- The document is valid, but something deserves attention. -/
  | warning
deriving DecidableEq, Repr

/-- The word for a severity. -/
def Diagnostic.Severity.text : Diagnostic.Severity → String
  | .error => "error"
  | .warning => "warning"

/-- One problem of a document.  Diagnostics are equal when all five fields are. -/
@[ext]
structure Diagnostic where
  /-- The part of the document that the problem is about. -/
  range : Range
  /-- What the reader is told. -/
  message : String
  /-- How serious the problem is. -/
  severity : Diagnostic.Severity
  /-- The tool that found the problem. -/
  source : String
  /-- The key of the kind of problem. -/
  code : String
deriving DecidableEq, Repr

namespace Diagnostic

/-- A diagnostic on one line, such as `error[ETagRequired] 0:3: message`. -/
def text (d : Diagnostic) : String :=
  d.severity.text ++ "[" ++ d.code ++ "] " ++ d.range.start.text ++ ": " ++ d.message

/-- The diagnostics of one document, in the order in which they were recorded. -/
@[ext]
structure Log where
  /-- The recorded diagnostics, the oldest first. -/
  entries : List Diagnostic
deriving DecidableEq, Repr

namespace Log

/-- The log without diagnostics. -/
def empty : Log := ⟨[]⟩

/-- The log with one more diagnostic at its end, unless an equal one is there already. -/
def record (log : Log) (d : Diagnostic) : Log :=
  if d ∈ log.entries then log else ⟨log.entries ++ [d]⟩

/-- Whether a diagnostic is still missing from a log, so that recording it adds it. -/
def lacks (log : Log) (d : Diagnostic) : Bool :=
  d ∉ log.entries

/-- The number of diagnostics. -/
def size (log : Log) : Nat :=
  log.entries.length

/-- Whether nothing was recorded. -/
def isEmpty (log : Log) : Bool :=
  log.entries.isEmpty

/-- Whether a diagnostic of severity `error` was recorded. -/
def hasErrors (log : Log) : Bool :=
  log.entries.any (·.severity = .error)

theorem record_of_mem {log : Log} {d : Diagnostic} (h : d ∈ log.entries) : log.record d = log := by
  simp [record, h]

end Log

end Diagnostic

end XmlDiagnostics

import XmlDiagnostics.Message.Registry
import XmlDiagnostics.Settings

/-!
# The reporter

A `Reporter` turns events into diagnostics of one document.  `Reporter.report` is one
step: it finds the message and the range of an event, records a diagnostic, and decides
whether the parser has to stop.  The log goes in and comes out, so a run is a fold over
events, and a new reporter can go on with the log of another.

An event without a range is dropped, and a dropped event stops nothing.
-/

namespace XmlDiagnostics

/-- A fatal error that stops the parser. -/
@[ext]
structure Abort where
  /-- The message of the error. -/
  message : String
  /-- Its key. -/
  key : String
  /-- Where the parser was. -/
  location : Option Event.Location
  /-- The message of the failure behind it. -/
  cause : Option String
deriving DecidableEq, Repr

/-- What became of an event. -/
inductive Verdict where
  /-- A new diagnostic was recorded with this message. -/
  | recorded (message : String)
  /-- The event has no range, or its diagnostic was recorded before. -/
  | dropped
  /-- The parser has to stop. -/
  | aborted (abort : Abort)
deriving DecidableEq, Repr

/-- What turns the events about one document into diagnostics. -/
structure Reporter where
  /-- The document. -/
  document : Document
  /-- What is known about the family of the errors. -/
  family : Family.Rules
  /-- The formatters of messages. -/
  formatters : Message.Registry
  /-- The settings. -/
  settings : ReporterSettings

namespace Reporter

/-- The message of an event. -/
def messageOf (r : Reporter) (e : Event) : String :=
  r.formatters.format r.settings.locale e.domain e.key e.arguments

/-- Whether a fatal error with this key lets the parser go on. -/
def toleratesFatal (r : Reporter) (key : String) : Bool :=
  r.family.toleratesFatal key || key ∈ r.settings.toleratedKeys

/-- The position of the error offset of a location.  Where positions are validated the
document decides, and the parser's own line and column help out if the document has no
such offset; where they are not, line and column come first. -/
def pointOf? (r : Reporter) (location : Event.Location) (offset : Nat) : Option Position :=
  match r.settings.validatePositions, location.position? with
  | false, some position => some position
  | _, stated =>
    match r.document.positionAt offset with
    | .ok position => some position
    | .error _ => stated

/-- The range of an event: what its family knows, or else the place where the parser was.
An event without a location belongs to the beginning of the document. -/
def rangeOf? (r : Reporter) (e : Event) : Option Range :=
  match e.location with
  | none =>
    match r.document.positionAt 0 with
    | .ok position => some (.collapsed position)
    | .error _ => none
  | some location =>
    (r.family.resolve? r.document location e.key e.arguments).or
      ((location.errorOffset?.bind (r.pointOf? location)).map Range.collapsed)

/-- The diagnostic of an event with a given range. -/
def diagnosticAt (r : Reporter) (e : Event) (range : Range) : Diagnostic where
  range := range
  message := r.messageOf e
  severity := e.severity.toDiagnostic
  source := r.settings.source
  code := e.key

/-- The diagnostic of an event, if it has a range. -/
def diagnosticOf? (r : Reporter) (e : Event) : Option Diagnostic :=
  (r.rangeOf? e).map (r.diagnosticAt e)

/-- Whether an event with a range stops the parser. -/
def stopsAt (r : Reporter) (e : Event) : Bool :=
  e.severity = .fatal && !r.settings.continueAfterFatal && !r.toleratesFatal e.key

/-- The error that an event stops the parser with. -/
def abortOf (r : Reporter) (e : Event) : Abort :=
  ⟨r.messageOf e, e.key, e.location, e.exception⟩

/-- Reports one event: the log afterwards, and what became of the event.  The diagnostic
of an event that stops the parser is recorded before. -/
def report (r : Reporter) (log : Diagnostic.Log) (e : Event) : Diagnostic.Log × Verdict :=
  match r.diagnosticOf? e with
  | none => (log, .dropped)
  | some d =>
    (log.record d,
      if r.stopsAt e then .aborted (r.abortOf e)
      else if log.lacks d then .recorded d.message
      else .dropped)

end Reporter

end XmlDiagnostics

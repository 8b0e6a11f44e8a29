import XmlDiagnostics.Reporter

/-!
# Sessions

A session keeps the log of one document while its reporter works and changes.  Its steps
are the events that a parser reports, formatters that a tool registers, and new reporters
that go on with the same log.  A session outlives an event that stops the parser: who
drives it decides whether to go on.
-/

namespace XmlDiagnostics

/-- A reporter and the log that it writes. -/
structure Session where
  /-- The reporter. -/
  reporter : Reporter
  /-- The log. -/
  log : Diagnostic.Log

namespace Session

/-- What may happen in a session. -/
inductive Step where
  /-- The parser reports an event. -/
  | report (event : Event)
  /-- A tool registers a formatter for the domain with a given address. -/
  | register (address : String) (formatter : Message.Wording)
  /-- A new reporter of the same document begins. -/
  | restart (family : Family.Rules) (formatters : Message.Registry) (settings : ReporterSettings)

/-- What a step of a session answers. -/
inductive Answer where
  /-- What became of an event. -/
  | verdict (verdict : Verdict)
  /-- Whether a formatter took the place of another one. -/
  | registered (replaced : Bool)
  /-- A new reporter has begun. -/
  | restarted
deriving DecidableEq, Repr

/-- The session after a step, and the answer. -/
def step (s : Session) : Step → Session × Answer
  | .report event =>
    let (log, verdict) := s.reporter.report s.log event
    ({ s with log := log }, .verdict verdict)
  | .register address formatter =>
    let domain := Message.Domain.ofAddress address
    ({ s with reporter.formatters := s.reporter.formatters.insert domain formatter },
      .registered (s.reporter.formatters.contains domain))
  | .restart family formatters settings =>
    ({ s with reporter := ⟨s.reporter.document, family, formatters, settings⟩ }, .restarted)

/-- The session after several steps, and their answers. -/
def run (s : Session) : List Step → Session × List Answer
  | [] => (s, [])
  | first :: others =>
    let (next, answer) := s.step first
    let (last, answers) := next.run others
    (last, answer :: answers)

/-- A session that begins with an empty log. -/
def start (reporter : Reporter) : Session :=
  ⟨reporter, .empty⟩

end Session

end XmlDiagnostics

import XmlDiagnostics.Reporter

/-!
# Passes

A pass reports the events of one run of a parser, in order, until one of them stops it.
-/

namespace XmlDiagnostics

/-- What a pass leaves. -/
structure Pass where
  /-- The recorded diagnostics. -/
  log : Diagnostic.Log
  /-- The error that stopped the pass, if one did. -/
  abort : Option Abort
deriving DecidableEq, Repr

namespace Pass

/-- Whether an error stopped the pass. -/
def isAborted (p : Pass) : Bool :=
  p.abort.isSome

/-- Reports events until one of them stops the pass. -/
def reportAll (r : Reporter) (log : Diagnostic.Log) : List Event → Pass
  | [] => ⟨log, none⟩
  | e :: rest =>
    match r.report log e with
    | (log', .aborted abort) => ⟨log', some abort⟩
    | (log', _) => reportAll r log' rest

/-- The reporter of a pass. -/
def reporter (settings : Settings) (document : Document) : Reporter where
  document := document
  family := settings.family
  formatters := Message.Registry.builtin
  settings := settings.reporter

/-- The pass over the events about a document. -/
def run (settings : Settings) (document : Document) (events : List Event) : Pass :=
  reportAll (reporter settings document) .empty events

end Pass

end XmlDiagnostics

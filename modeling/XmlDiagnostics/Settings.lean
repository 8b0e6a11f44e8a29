import XmlDiagnostics.Family
import XmlDiagnostics.Message.Locale

/-!
# Settings

What a user may choose: how diagnostics are labelled, in which language, how far the
positions of the parser are trusted, and which fatal errors stop the parser.
-/

namespace XmlDiagnostics

/-- The settings of a reporter. -/
structure ReporterSettings where
  /-- The label of the tool on every diagnostic. -/
  source : String := "xml"
  /-- The language of messages. -/
  locale : Message.Locale := ⟨"en"⟩
  /-- Whether no fatal error stops the parser. -/
  continueAfterFatal : Bool := false
  /-- Whether the document decides where an offset is, and not the parser. -/
  validatePositions : Bool := true
  /-- The keys of fatal errors that do not stop the parser. -/
  toleratedKeys : List String := []
deriving DecidableEq, Repr

/-- All settings. -/
structure Settings where
  /-- The settings of the reporter. -/
  reporter : ReporterSettings := {}
  /-- The family of the errors. -/
  family : Family := .xml
deriving DecidableEq, Repr

end XmlDiagnostics

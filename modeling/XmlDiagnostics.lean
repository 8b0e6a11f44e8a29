import XmlDiagnostics.Main
import XmlDiagnostics.Proofs.Log
import XmlDiagnostics.Proofs.Reporting
import XmlDiagnostics.Session
import XmlDiagnostics.Proofs.PassOutcome
import XmlDiagnostics.Proofs.SessionLog
import XmlDiagnostics.Proofs.LineIndex
import XmlDiagnostics.Proofs.Placement
import XmlDiagnostics.Proofs.FamilySpans
import XmlDiagnostics.Proofs.Labels
import XmlDiagnostics.Proofs.Anchoring
import XmlDiagnostics.Proofs.LineEnds
import XmlDiagnostics.Proofs.OffsetOrder
import XmlDiagnostics.Proofs.Lockstep
import XmlDiagnostics.Proofs.StatedPositions
import XmlDiagnostics.Proofs.Tolerance
import XmlDiagnostics.Proofs.Repetition
import XmlDiagnostics.Proofs.LabelledText
import XmlDiagnostics.Proofs.Escaping
import XmlDiagnostics.Proofs.TemplateReading
import XmlDiagnostics.Proofs.NestedMarkup
import XmlDiagnostics.Proofs.ReplayInputs
import XmlDiagnostics.Proofs.IndexedReading
import XmlDiagnostics.Proofs.IndexedSearches
import XmlDiagnostics.Proofs.AttributeOrder
import XmlDiagnostics.Proofs.References
import XmlDiagnostics.Proofs.FamilyKeys
import XmlDiagnostics.Proofs.TagErrors
import XmlDiagnostics.Proofs.ExpectedLists
import XmlDiagnostics.Proofs.ElementContent
import XmlDiagnostics.Proofs.Prolog
import XmlDiagnostics.Proofs.NestedNamesakes
import XmlDiagnostics.Proofs.AttributeSpans
import XmlDiagnostics.Proofs.FallbackTexts
import XmlDiagnostics.Proofs.RegisteredFormatters
import XmlDiagnostics.Proofs.RecordedEvents
import XmlDiagnostics.Proofs.EmptyElements

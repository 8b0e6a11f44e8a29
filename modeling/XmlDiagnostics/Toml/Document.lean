import XmlDiagnostics.Toml.Statement

/-!
# TOML documents

The table that a document stands for: its statements, carried out one after another.
-/

namespace XmlDiagnostics.Toml

/-- A document of which some statements have been carried out. -/
structure Draft where
  /-- The entries of the document. -/
  entries : List (String × Node)
  /-- The path of the open table. -/
  opened : List String

namespace Draft

/-- The draft of which no statement has been carried out. -/
def empty : Draft := ⟨[], []⟩

/-- The draft after a header, of which the last part is opened by `step`. -/
def openAt? (d : Draft) (step : String → List (String × Node) → Option (List (String × Node)))
    (path : List String) : Option Draft := do
  let key ← path.getLast?
  let entries ← Tree.modifyAt? (step key) d.entries path.dropLast
  return ⟨entries, path⟩

/-- The draft after one more statement. -/
def carryOut? (d : Draft) : Statement → Option Draft
  | .entry path value => do
    let entries ← Tree.modifyAt? (Tree.assign? · path value) d.entries d.opened
    return ⟨entries, d.opened⟩
  | .table path => d.openAt? Tree.openTable? path
  | .element path => d.openAt? Tree.openElement? path

end Draft

/-- The entries of the table that a TOML document stands for, or `none` if the text is not
a TOML document. -/
def ofText? (text : String) : Option (List (String × Value)) := do
  let statements ← Statement.all? text.toList
  let draft ← statements.foldlM Draft.carryOut? Draft.empty
  return Node.toEntries draft.entries

end XmlDiagnostics.Toml

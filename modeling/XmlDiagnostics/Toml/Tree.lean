import XmlDiagnostics.Toml.Value

/-!
# Tables under construction

While a TOML document is read, its tables are open: later statements may add to them.
How a table came about decides who may add to it.  A table that a header opened is closed
to dotted keys from outside.  A table that only lies on the way to another one is open to
both: a header may open it, or a dotted key may lead through it, and whichever comes first
settles it.  A table that dotted keys made or led through gets no header.  Values, and so
tables in braces, are closed to everything.
-/

namespace XmlDiagnostics.Toml

/-- How a table came about. -/
inductive Origin where
  /-- A header opened it. -/
  | header
  /-- It lies on the way to a table that a header opened. -/
  | implied
  /-- A key with several parts made it or led through it. -/
  | dotted
deriving DecidableEq, Repr

/-- A place in a table under construction. -/
inductive Node where
  /-- A finished value. -/
  | value (value : Value)
  /-- A table. -/
  | table (origin : Origin) (entries : List (String × Node))
  /-- An array of tables: the finished ones, the last first, and the open one. -/
  | tables (finished : List Value) (entries : List (String × Node))

namespace Node

mutual

/-- The value that a place has in the end. -/
def toValue : Node → Value
  | value v => v
  | table _ entries => .table (toEntries entries)
  | tables finished entries => .array (finished.reverse ++ [.table (toEntries entries)])

/-- The entries that a table has in the end. -/
def toEntries : List (String × Node) → List (String × Value)
  | [] => []
  | (key, node) :: rest => (key, node.toValue) :: toEntries rest

end

end Node

namespace Tree

/-- The entries with a new node for a key that is there. -/
def replace (key : String) (node : Node) (entries : List (String × Node)) : List (String × Node) :=
  entries.map fun entry ↦ if entry.1 = key then (key, node) else entry

/-- The entries with one more. -/
def append (entries : List (String × Node)) (key : String) (node : Node) : List (String × Node) :=
  entries ++ [(key, node)]

/-- The entries in which a key with one or more parts has a value.  The tables that the key
leads through become its own; an array of tables is entered at its open element, but only
on the way to a table below that element. -/
def assign? (entries : List (String × Node)) : List String → Value → Option (List (String × Node))
  | [], _ => none
  | [key], v => if (entries.lookup key).isSome then none else some (append entries key (.value v))
  | key :: path, v =>
    match entries.lookup key with
    | none => (assign? [] path v).map fun sub ↦ append entries key (.table .dotted sub)
    | some (.table origin sub) =>
      if origin = .header then none
      else (assign? sub path v).map fun sub ↦ replace key (.table .dotted sub) entries
    | some (.tables finished sub) =>
      if path.length = 1 then none
      else (assign? sub path v).map fun sub ↦ replace key (.tables finished sub) entries
    | some (.value _) => none

/-- The entries in which a step has been taken at the end of a path.  The tables on the
way are made if they are missing; an array of tables is entered at its open element. -/
def modifyAt? (step : List (String × Node) → Option (List (String × Node)))
    (entries : List (String × Node)) : List String → Option (List (String × Node))
  | [] => step entries
  | key :: path =>
    match entries.lookup key with
    | none => (modifyAt? step [] path).map fun sub ↦ append entries key (.table .implied sub)
    | some (.table origin sub) =>
      (modifyAt? step sub path).map fun sub ↦ replace key (.table origin sub) entries
    | some (.tables finished sub) =>
      (modifyAt? step sub path).map fun sub ↦ replace key (.tables finished sub) entries
    | some (.value _) => none

/-- The entries after the header of a table. -/
def openTable? (key : String) (entries : List (String × Node)) : Option (List (String × Node)) :=
  match entries.lookup key with
  | none => some (append entries key (.table .header []))
  | some (.table .implied sub) => some (replace key (.table .header sub) entries)
  | some _ => none

/-- The entries after the header of an element of an array of tables. -/
def openElement? (key : String) (entries : List (String × Node)) : Option (List (String × Node)) :=
  match entries.lookup key with
  | none => some (append entries key (.tables [] []))
  | some (.tables finished sub) =>
    some (replace key (.tables (.table (Node.toEntries sub) :: finished) []) entries)
  | some _ => none

/-- The value of a table in braces. -/
def inlineTable? (pairs : List (List String × Value)) : Option Value :=
  (pairs.foldlM (fun entries (path, v) ↦ assign? entries path v) []).map fun entries ↦
    .table (Node.toEntries entries)

end Tree

end XmlDiagnostics.Toml

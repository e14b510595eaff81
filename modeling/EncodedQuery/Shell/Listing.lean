/-
  EncodedQuery.Shell.Listing
  ──────────────────────────
  **TABLES ON THE SCREEN.**

  The tables that commands show: findings, terms, operators, named ranges and
  saved filters.
-/
import EncodedQuery.Builder.View
import EncodedQuery.Saved.Store

namespace EncodedQuery.Listing

/-- A column with a style. -/
def styledColumn (header style : Text) : Column := { header, style }

/-- A table of texts; marks in its cells are marks. -/
def ofTexts (title : Text) (columns : List Column) (rows : List (List Text)) : View :=
  .table (some title) columns (rows.map (fun row => row.map View.marked))

/-- Findings. -/
def issues (found : List Issue) : View :=
  let row (i : Issue) : List View :=
    [.markedAs i.severity.style i.severity.name, .marked i.subject, .marked i.message,
     .marked i.suggestion]
  .table (some "Validation")
    [styledColumn "Severity" "bold", styledColumn "Where" [], styledColumn "Message" [],
     styledColumn "Suggestion" "dim"]
    (found.map row)

/-- The terms of a query. -/
def terms (ts : List Term) : View :=
  let row (t : Term) : List Text :=
    [(t.join.map Separator.token).getD [], t.field, t.operator.token, t.value]
  ofTexts "Terms"
    [styledColumn "Join" "magenta", styledColumn "Field" "cyan", styledColumn "Operator" "bold",
     styledColumn "Value" []]
    (ts.map row)

/-- The operators of a type. -/
def operators (type : FieldType) : View :=
  let row (e : OperatorEntry) : List Text :=
    [e.token, e.label, e.description, if e.requiresValue then "yes" else "no",
     if e.dateOnly then "yes" else []]
  ofTexts type.name
    [styledColumn "Token" "bold cyan", styledColumn "Label" [], styledColumn "Description" "dim",
     styledColumn "Value" [], styledColumn "Date only" []]
    ((OperatorEntry.offered (some type)).map row)

/-- Ranges with a name. -/
def presets (ps : List Preset) : View :=
  ofTexts "Date presets"
    [styledColumn "Name" "bold", styledColumn "Start" [], styledColumn "End" []]
    (ps.map (fun p => [p.name, p.start.shown, p.stop.shown]))

/-- A stored value in a table: a text or nothing. -/
def storedCell : Json → Except Fault View
  | .text t => .ok (.marked t)
  | .null => .ok (.marked [])
  | _ => .error .notShowable

/-- Saved filters. -/
def savedFilters (fs : List SavedFilter) : Except Fault View := do
  let row (f : SavedFilter) : Except Fault (List View) := do
    return [.marked (if f.isFavorite then ['★'] else []), .marked f.id, ← storedCell f.name,
      ← storedCell f.table, ← storedCell f.query, .marked (Text.ofInt f.useCount)]
  return .table (some "Saved filters")
    [styledColumn ['★'] [], styledColumn "Id" "dim", styledColumn "Name" "bold",
     styledColumn "Table" "cyan", styledColumn "Query" [], { header := "Used", side := .right }]
    (← fs.mapM row)

end EncodedQuery.Listing

/-
  EncodedQuery.Reference.Candidate
  ────────────────────────────────
  **RECORDS TO REFER TO.**

  A candidate is a record offered as the value of a reference field: its
  identifier and a label for people, which is the first of the display fields
  that the record fills.  `searchRequest` asks a table for the records whose
  display fields contain a text.
-/
import EncodedQuery.Source.Tables

namespace EncodedQuery

/-- The fields of a record that people know it by, best first. -/
def displayFields : List Text :=
  ["name", "title", "display_name", "short_description", "number", "user_name", "email"]

/-- A record to refer to. -/
structure Candidate where
  /-- What a condition refers to it by. -/
  identifier : Text
  /-- What people know it by. -/
  label : Text
  /-- Its table. -/
  table : Text
  deriving DecidableEq, Repr

namespace Candidate

/-- The first display field that is not blank. -/
def labelOf (r : Record) : Text :=
  ((displayFields.map (fun name => Text.strip (r.shown name))).find? (fun t => !t.isEmpty)).getD []

/-- A record as a candidate; without a label it is known by its identifier. -/
def ofRecord (table : Text) (r : Record) : Candidate :=
  let identifier := r.shown "sys_id"
  let label := labelOf r
  { identifier, label := if label.isEmpty then identifier else label, table }

/-- The query for the records one of whose display fields contains a text. -/
def searchQuery (text : Text) : Text :=
  Text.join "^OR" (displayFields.map (fun name => name ++ Operator.contains.token ++ text))

/-- The request for at most `limit` records whose display fields contain a text. -/
def searchRequest (table text : Text) (limit : Int) : Request :=
  { table
    query := some (searchQuery text)
    limit := some (Text.ofInt limit)
    fields := some (Text.join "," ("sys_id" :: displayFields))
    displayValue := some "all" }

end Candidate

end EncodedQuery

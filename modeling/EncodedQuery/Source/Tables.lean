/-
  EncodedQuery.Source.Tables
  ──────────────────────────
  **RECORDS FROM A DOCUMENT.**

  A JSON object of tables, each a list of records, serves as a source: it finds
  the records of a query, cuts the list to a limit and the records to the
  fields asked for, in that order.

  A document may hold anything in the place of a table or of a record.  Each
  step takes what it can use, and fails with the cause that fits what it meets:
  every value that can be walked through has rows, and a list of pairs serves as
  a record.
-/
import EncodedQuery.Json.Take
import EncodedQuery.Json.Writer
import EncodedQuery.Record.Match
import EncodedQuery.Source.Basic

namespace EncodedQuery.Source

/-! ## §1. Choosing rows. -/

/-- The rows that a query finds.  A query without terms finds every row; terms are asked of
records only. -/
def found (table query : Text) (rows : Json) : Except Fault Json :=
  match Term.parse query with
  | .error f => .error (.source .network table f.message)
  | .ok [] => do return .list (← rows.walked)
  | .ok terms => do
      let records ← (← rows.walked).mapM Json.members
      return .list ((records.filter (fun r => Record.matchesTerms r terms)).map .object)

/-- The rows up to a limit. -/
def limited (limit rows : Json) : Except Fault Json := do
  let n ← limit.toInt
  match rows with
  | .list items => return .list (firstItems n items)
  | .text t => return .text (firstItems n t)
  | _ => throw .wrongKind

/-! ## §2. Choosing fields. -/

/-- The field names between commas; blanks around them do not count. -/
def fieldNames (fields : Text) : List Text :=
  ((Text.cut ',' fields).map Text.strip).filter (fun n => !n.isEmpty)

/-- The fields of a row that have one of these names; only a record gives the value of a field. -/
def projectRow (names : List Text) : Json → Except Fault Record
  | .object ms => .ok (Record.project names ms)
  | .text t => if names.any (Text.contains t) then .error .wrongKind else .ok []
  | .list items =>
      if names.any (fun n => items.any (Json.isText n)) then .error .wrongKind else .ok []
  | _ => if names.isEmpty then .ok [] else .error .wrongKind

/-- The rows with the fields of these names only. -/
def projected (fields : Text) (rows : Json) : Except Fault Json := do
  let records ← (← rows.walked).mapM (projectRow (fieldNames fields))
  return .list (records.map .object)

/-! ## §3. Rows as records. -/

/-- The name that a value is as the name of a member: a text as it is, another scalar as it is
written. -/
def nameOf : Json → Text
  | .text t => t
  | v => v.compact

/-- The value is the double that is no number. -/
def isNaN : Json → Bool
  | .real x => x.isNaN
  | _ => false

/-- The pairs with `key` bound to `value`: under an equal key that is there, or else at the end.
Here the double that is no number equals itself. -/
def bindKey (key value : Json) : List (Json × Json) → List (Json × Json)
  | [] => [(key, value)]
  | p :: rest =>
      if Json.same p.1 key || (isNaN p.1 && isNaN key) then (p.1, value) :: rest
      else p :: bindKey key value rest

/-- The two values of a pair at position `i`, of which the first is no container. -/
def pairOf (i : Nat) (item : Json) : Except Fault (Json × Json) :=
  match item.walked with
  | .error _ => .error .wrongKind
  | .ok [key, value] =>
      match key with
      | .list _ | .object _ => .error .wrongKind
      | _ => .ok (key, value)
  | .ok parts =>
      .error (.badValue ("dictionary update sequence element #" ++ Text.ofNat i ++ " has length "
        ++ Text.ofNat parts.length ++ "; 2 is required"))

/-- The pairs from position `i` on, put behind those in `bound`. -/
def pairsOf (bound : List (Json × Json)) : Nat → List Json → Except Fault (List (Json × Json))
  | _, [] => .ok bound
  | i, item :: rest => do
      let (key, value) ← pairOf i item
      pairsOf (bindKey key value bound) (i + 1) rest

/-- The row that a value is, or whose pairs it lists. -/
def rowOf : Json → Except Fault Row
  | .object ms => .ok (Row.ofRecord ms)
  | v => do
      let pairs ← pairsOf [] 0 (← v.walked)
      return ⟨pairs.foldl (fun r (key, value) => Json.put (nameOf key) value r) [],
        pairs.map (·.1)⟩

/-! ## §4. Answers. -/

/-- The rows of a table: those of a query, up to a limit, with some fields only.  An empty
parameter asks for nothing. -/
def select (tables : List (Text × Json)) (table : Text) (query limit fields : Option Json) :
    Except Fault (List Row) :=
  match Json.lookup? table tables with
  | none => .error (.source .notFound table "table not found")
  | some rows => do
      let rows ← match Json.nonempty? query with
        | none => pure rows
        | some (.text q) => found table q rows
        | some v => throw (.noMember v.kind "strip")
      let rows ← match Json.nonempty? limit with
        | none => pure rows
        | some n => limited n rows
      let rows ← match Json.nonempty? fields with
        | none => pure rows
        | some (.text names) => projected names rows
        | some v => throw (.noMember v.kind "split")
      (← rows.walked).mapM rowOf

/-- A document of tables as a source. -/
def ofTables (tables : List (Text × Json)) : Source :=
  ⟨fun _ r => select tables r.table (r.query.map .text) (r.limit.map .text) (r.fields.map .text)⟩

end EncodedQuery.Source

/-
  EncodedQuery.Source.Basic
  ─────────────────────────
  **SOURCES OF RECORDS.**

  A source answers requests with records or fails.  Its answer may depend on
  how many requests came before, so nothing is assumed about it beyond that.
  `Calling` is a computation that makes requests: the requests made stay known
  when it fails.
-/
import EncodedQuery.Fault
import EncodedQuery.Record.Basic

namespace EncodedQuery

/-! ## §1. Requests. -/

/-- What is asked of a source. -/
structure Request where
  /-- The table. -/
  table : Text
  /-- Only records that this query finds. -/
  query : Option Text := none
  /-- Only so many records. -/
  limit : Option Text := none
  /-- Only these fields, between commas. -/
  fields : Option Text := none
  /-- Which of the two texts of a field to send. -/
  displayValue : Option Text := none
  deriving DecidableEq, Repr

/-- The parameters of a request by their names. -/
def Request.parameters (r : Request) : List (Text × Text) :=
  ([("sysparm_query", r.query), ("sysparm_limit", r.limit), ("sysparm_fields", r.fields),
    ("sysparm_display_value", r.displayValue)] : List (Text × Option Text)).filterMap
      (fun (name, v) => v.map (fun v => (name, v)))

/-! ## §2. Sources. -/

/-- A row of an answer. -/
structure Row where
  /-- The record. -/
  record : Record
  /-- What names its fields, in order: texts, or other scalars. -/
  names : List Json

/-- The row of a record whose fields are all named by texts. -/
def Row.ofRecord (r : Record) : Row := ⟨r, r.map (fun m => .text m.1)⟩

/-- Answers a request, given the number of requests before it. -/
structure Source where
  /-- The answer. -/
  rows : Nat → Request → Except Fault (List Row)

/-- A computation that makes requests and keeps their list. -/
abbrev Calling := ExceptT Fault (StateM (List Request))

namespace Source

/-- The records of an answer. -/
def answer (s : Source) (n : Nat) (r : Request) : Except Fault (List Record) := do
  return (← s.rows n r).map Row.record

/-- Makes one request for rows. -/
def listRows (s : Source) (r : Request) : Calling (List Row) := do
  let made ← get
  set (made ++ [r])
  match s.rows made.length r with
  | .ok rows => return rows
  | .error f => throw f

/-- Makes one request for records. -/
def list (s : Source) (r : Request) : Calling (List Record) := do
  return (← s.listRows r).map Row.record

/-- The source that fails where `failure` says so. -/
def failing (failure : Nat → Text → Option Fault) (s : Source) : Source :=
  ⟨fun n r => match failure n r.table with
    | some f => .error f
    | none => s.rows n r⟩

end Source

end EncodedQuery

/-
  EncodedQuery.Condition.Basic
  ────────────────────────────
  **CONDITIONS.**

  A condition is a field, an operator and a value; a range of instants may
  stand beside the value.  In a list of conditions each one says how it is
  linked to the next.

  `encode` writes a condition as a query writes it.
-/
import EncodedQuery.Field.Basic
import EncodedQuery.Instant.Range
import EncodedQuery.Operator.Basic
import EncodedQuery.Query.Term

namespace EncodedQuery

/-! ## §1. Links. -/

/-- How a condition is linked to the next one. -/
inductive Link where
  /-- Both have to hold. -/
  | and
  /-- Either may hold. -/
  | or
  deriving DecidableEq, Repr

namespace Link

/-- The name of a link. -/
def name : Link → Text
  | and => "AND"
  | or => "OR"

/-- The separator that a query writes for it. -/
def separator : Link → Separator
  | and => .and
  | or => .or

/-- The link of a given name. -/
def ofName (t : Text) : Except Fault Link :=
  if t = and.name then .ok and
  else if t = or.name then .ok or
  else .error (.badValue (Text.quoted t ++ " is not a valid LogicalOperator"))

end Link

/-! ## §2. Conditions. -/

/-- One condition of a filter. -/
structure Condition where
  /-- The field. -/
  field : Field
  /-- The token of the operator. -/
  operator : Text
  /-- The value. -/
  value : Text := []
  /-- The start of a range. -/
  start : Option Instant := none
  /-- The end of a range. -/
  stop : Option Instant := none
  /-- The link to the next condition. -/
  link : Option Link := none
  deriving DecidableEq, Repr

namespace Condition

/-- A short form for people. -/
def describe (c : Condition) : Text :=
  let subject := c.field.displayLabel ++ " " ++ c.operator
  if c.value.isEmpty then subject else subject ++ " " ++ c.value

/-- The value as a query writes it: none behind an operator that takes none, and a range of
instants where no value is given. -/
def literal (c : Condition) : Text :=
  if Text.isOperatorIn Operator.isValueless c.operator then []
  else if c.operator = Operator.between.token ∧ c.value = [] then
    match c.start, c.stop with
    | some start, some stop => Instant.rangeLiteral start stop
    | _, _ => []
  else c.value

/-- The condition as a query writes it. -/
def encode (c : Condition) : Text := c.field.name ++ c.operator ++ c.literal

/-- The separator between the condition and the next one. -/
def separator (c : Condition) : Separator := (c.link.getD .and).separator

/-! ## §3. JSON. -/

/-- A description that `ofJson` reads back. -/
def toJson (c : Condition) : Json :=
  let instant (t : Option Instant) : Json := (t.map (fun t => Json.text t.shown)).getD .null
  .object
    [("field", c.field.toJson), ("operator", .text c.operator), ("value", .text c.value),
     ("start", instant c.start), ("end", instant c.stop),
     ("logical_op", (c.link.map (fun l => Json.text l.name)).getD .null)]

/-- The field of a description: described in full, or by its name alone. -/
def fieldOfJson (v : Option Json) : Except Fault Field :=
  match v with
  | some (.object ms) => Field.ofMembers ms
  | _ => .ok { name := ((Json.nonempty? v).map Json.shown).getD [] }

/-- An end of a range. -/
def instantOfJson (v : Option Json) : Except Fault (Option Instant) :=
  match Json.nonempty? v with
  | none => .ok none
  | some v => do
      let t ← v.toText
      return some (← Pattern.backend.read t)

/-- The link to the next condition. -/
def linkOfJson (v : Option Json) : Except Fault (Option Link) :=
  match Json.nonempty? v with
  | none => .ok none
  | some v => do return some (← Link.ofName (Text.upper v.shown))

/-- The condition that a description gives. -/
def ofJson (v : Json) : Except Fault Condition := do
  let ms ← v.members
  let field ← fieldOfJson (Json.lookup? "field" ms)
  let start ← instantOfJson (Json.lookup? "start" ms)
  let stop ← instantOfJson (Json.lookup? "end" ms)
  let link ← linkOfJson (Json.lookup? "logical_op" ms)
  return {
    field
    operator := Json.shownUnlessEmpty "operator" ms
    value := Json.shownUnlessEmpty "value" ms
    start
    stop
    link }

end Condition

end EncodedQuery

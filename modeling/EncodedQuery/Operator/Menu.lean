/-
  EncodedQuery.Operator.Menu
  ──────────────────────────
  **OPERATORS ON OFFER.**

  Every type of field has its ordered list of operators, each with the words
  for it.  Types without a list of their own, and unknown types, get the list
  of plain text.

  `OperatorEntry.ofToken` describes a token on its own: only the emptiness
  questions and the periods do without a value there.
-/
import EncodedQuery.Field.Type
import EncodedQuery.Operator.Basic

namespace EncodedQuery

/-- An operator as it is offered. -/
structure OperatorEntry where
  /-- Its spelling in a query. -/
  token : Text
  /-- Its name in the list. -/
  label : Text
  /-- What it does. -/
  description : Text
  /-- A condition with it needs a value. -/
  requiresValue : Bool := true
  /-- It makes sense for days only. -/
  dateOnly : Bool := false
  deriving DecidableEq, Repr

namespace OperatorEntry

/-! ## §1. The lists. -/

/-- An operator that takes a value. -/
def valued (op : Operator) (label description : Text) : OperatorEntry :=
  { token := op.token, label, description }

/-- An operator that takes none. -/
def plain (op : Operator) (label description : Text) : OperatorEntry :=
  { token := op.token, label, description, requiresValue := false }

/-- A period of the calendar. -/
def period (op : Operator) (label description : Text) : OperatorEntry :=
  { token := op.token, label, description, requiresValue := false, dateOnly := true }

/-- The questions whether a field is empty, which most types end with. -/
def emptiness : List OperatorEntry :=
  [plain .isEmpty "Is Empty" "Field is empty",
   plain .isNotEmpty "Is Not Empty" "Field is not empty"]

/-- For plain text. -/
def forText : List OperatorEntry :=
  [valued .equals "Equals" "Exact match",
   valued .notEquals "Not Equals" "Does not match",
   valued .contains "Contains" "Contains text",
   valued .doesNotContain "Does Not Contain" "Does not contain text",
   valued .startsWith "Starts With" "Begins with text",
   valued .endsWith "Ends With" "Ends with text"]
    ++ emptiness
    ++ [valued .like "Like" "Pattern match (use % wildcards)"]

/-- For numbers. -/
def forNumber : List OperatorEntry :=
  [valued .equals "Equals" "Equal to number",
   valued .notEquals "Not Equals" "Not equal to number",
   valued .greaterThan "Greater Than" "Greater than number",
   valued .greaterOrEqual "Greater or Equal" "Greater than or equal to number",
   valued .lessThan "Less Than" "Less than number",
   valued .lessOrEqual "Less or Equal" "Less than or equal to number",
   valued .between "Between" "Between two numbers"]
    ++ emptiness

/-- For days, which the descriptions call `noun`. -/
def forDate (noun : Text) : List OperatorEntry :=
  [valued .equals "On Date" ("On specific " ++ noun),
   valued .notEquals "Not On Date" ("Not on specific " ++ noun),
   valued .greaterThan "After" ("After " ++ noun),
   valued .lessThan "Before" ("Before " ++ noun),
   { valued .between "Date Range" "Between two dates" with dateOnly := true },
   period .today "Today" "Today",
   period .yesterday "Yesterday" "Yesterday",
   period .thisWeek "This Week" "This week",
   period .lastWeek "Last Week" "Last week",
   period .thisMonth "This Month" "This month",
   period .lastMonth "Last Month" "Last month",
   period .thisYear "This Year" "This year",
   period .lastYear "Last Year" "Last year"]
    ++ emptiness

/-- For truth values: the value is part of the operator's name. -/
def forBoolean : List OperatorEntry :=
  [plain .equals "Is True" "Value is true", plain .notEquals "Is False" "Value is false"]

/-- For lists of values. -/
def forChoice : List OperatorEntry :=
  [valued .equals "Equals" "Equals choice value",
   valued .notEquals "Not Equals" "Not equals choice value",
   valued .inList "In List" "In list of values",
   valued .notInList "Not In List" "Not in list of values"]
    ++ emptiness

/-- For records of another table. -/
def forReference : List OperatorEntry :=
  [valued .equals "Equals" "References specific record",
   valued .notEquals "Not Equals" "Does not reference record"]
    ++ emptiness

/-! ## §2. Looking up. -/

/-- The operators on offer for a type of field, or for an unknown type. -/
def offered : Option FieldType → List OperatorEntry
  | some .integer | some .decimal => forNumber
  | some .date => forDate "date"
  | some .dateTime => forDate "date/time"
  | some .boolean => forBoolean
  | some .choice => forChoice
  | some .reference => forReference
  | _ => forText

/-- The entry of a token among those on offer for a type. -/
def find? (ft : Option FieldType) (token : Text) : Option OperatorEntry :=
  (offered ft).find? (fun e => e.token = token)

/-- A token described without regard to any type. -/
def ofToken (token : Text) : OperatorEntry :=
  let op := Operator.ofToken? token
  let title := (op.map Operator.title).getD token
  { token
    label := title
    description := title
    requiresValue := !op.any Operator.isValueless
    dateOnly := op.any (fun o => o.isDateKeyword || o = .between) }

end OperatorEntry

end EncodedQuery

/-
  EncodedQuery.Operator.Basic
  ───────────────────────────
  **OPERATORS.**

  An operator stands between a field and a value.  `token` is its exact
  spelling in a query; `byLength` lists the operators longest token first,
  which is the order in which a query is searched for them.
-/
import EncodedQuery.Text.Basic

namespace EncodedQuery

/-- The operators of the query language. -/
inductive Operator where
  /-- Equal. -/
  | equals
  /-- Not equal. -/
  | notEquals
  /-- Less. -/
  | lessThan
  /-- Less or equal. -/
  | lessOrEqual
  /-- Greater. -/
  | greaterThan
  /-- Greater or equal. -/
  | greaterOrEqual
  /-- The value occurs in the field. -/
  | contains
  /-- The value does not occur in the field. -/
  | doesNotContain
  /-- The field begins with the value. -/
  | startsWith
  /-- The field ends with the value. -/
  | endsWith
  /-- The field is empty. -/
  | isEmpty
  /-- The field is not empty. -/
  | isNotEmpty
  /-- The value, a pattern, occurs in the field. -/
  | like
  /-- The field lies between two ends. -/
  | between
  /-- The field is one of a list. -/
  | inList
  /-- The field is none of a list. -/
  | notInList
  /-- On the current day. -/
  | today
  /-- On the day before. -/
  | yesterday
  /-- In the current week. -/
  | thisWeek
  /-- In the week before. -/
  | lastWeek
  /-- In the current month. -/
  | thisMonth
  /-- In the month before. -/
  | lastMonth
  /-- In the current year. -/
  | thisYear
  /-- In the year before. -/
  | lastYear
  deriving DecidableEq, Repr

namespace Operator

/-! ## §1. Tokens. -/

/-- The spelling in a query. -/
def token : Operator → Text
  | equals => "="
  | notEquals => "!="
  | lessThan => "<"
  | lessOrEqual => "<="
  | greaterThan => ">"
  | greaterOrEqual => ">="
  | contains => "CONTAINS"
  | doesNotContain => "DOESNOTCONTAIN"
  | startsWith => "STARTSWITH"
  | endsWith => "ENDSWITH"
  | isEmpty => "ISEMPTY"
  | isNotEmpty => "ISNOTEMPTY"
  | like => "LIKE"
  | between => "BETWEEN"
  | inList => "IN"
  | notInList => "NOT IN"
  | today => "TODAY"
  | yesterday => "YESTERDAY"
  | thisWeek => "THISWEEK"
  | lastWeek => "LASTWEEK"
  | thisMonth => "THISMONTH"
  | lastMonth => "LASTMONTH"
  | thisYear => "THISYEAR"
  | lastYear => "LASTYEAR"

/-- The spelling for people. -/
def title : Operator → Text
  | equals => "Equals"
  | notEquals => "Not Equals"
  | lessThan => "Less Than"
  | lessOrEqual => "Less Or Equal"
  | greaterThan => "Greater Than"
  | greaterOrEqual => "Greater Or Equal"
  | contains => "Contains"
  | doesNotContain => "Does Not Contain"
  | startsWith => "Starts With"
  | endsWith => "Ends With"
  | isEmpty => "Is Empty"
  | isNotEmpty => "Is Not Empty"
  | like => "Like"
  | between => "Between"
  | inList => "In"
  | notInList => "Not In"
  | today => "Today"
  | yesterday => "Yesterday"
  | thisWeek => "This Week"
  | lastWeek => "Last Week"
  | thisMonth => "This Month"
  | lastMonth => "Last Month"
  | thisYear => "This Year"
  | lastYear => "Last Year"

/-- All operators, longest token first, so that no operator hides a longer one. -/
def byLength : List Operator :=
  [doesNotContain, startsWith, isNotEmpty, yesterday, thisMonth, lastMonth, contains, endsWith,
   thisWeek, lastWeek, thisYear, lastYear, isEmpty, between, notInList, today, like, notEquals,
   lessOrEqual, greaterOrEqual, inList, equals, lessThan, greaterThan]

/-- The operator with this token. -/
def ofToken? (t : Text) : Option Operator := byLength.find? (fun op => op.token = t)

/-! ## §2. Classes. -/

/-- A period relative to the current day. -/
def isDateKeyword : Operator → Bool
  | today | yesterday | thisWeek | lastWeek | thisMonth | lastMonth | thisYear | lastYear => true
  | _ => false

/-- A question whether the field has a value. -/
def isEmptiness : Operator → Bool
  | isEmpty | isNotEmpty => true
  | _ => false

/-- An operator that stands without a value. -/
def isValueless (op : Operator) : Bool := op.isDateKeyword || op.isEmptiness

/-- An operator on the characters of a field. -/
def isTextual : Operator → Bool
  | contains | doesNotContain | startsWith | endsWith | like => true
  | _ => false

/-- One of the six comparisons. -/
def isComparison : Operator → Bool
  | equals | notEquals | lessThan | lessOrEqual | greaterThan | greaterOrEqual => true
  | _ => false

/-- An operator that takes a list of values. -/
def isListed : Operator → Bool
  | inList | notInList => true
  | _ => false

end Operator

/-- The token `t` is one of an operator in the class `p`. -/
def Text.isOperatorIn (p : Operator → Bool) (t : Text) : Bool := (Operator.ofToken? t).any p

end EncodedQuery

/-
  EncodedQuery.Issue
  ──────────────────
  **FINDINGS.**

  A check never fails: whatever it finds is an `Issue`, and only issues of
  severity `error` stand in the way.  A `Verdict` is the list of findings about
  a whole query, together with the query.
-/
import EncodedQuery.Text.Basic

namespace EncodedQuery

/-! ## §1. One finding. -/

/-- How much a finding matters. -/
inductive Severity where
  /-- The condition or query cannot be used. -/
  | error
  /-- It can be used but is probably not what was meant. -/
  | warning
  /-- A remark. -/
  | info
  deriving DecidableEq, Repr

/-- The name of a severity. -/
def Severity.name : Severity → Text
  | .error => "error"
  | .warning => "warning"
  | .info => "info"

/-- One finding. -/
structure Issue where
  /-- How much it matters. -/
  severity : Severity
  /-- What was found. -/
  message : Text
  /-- The field or condition that it is about. -/
  subject : Text := []
  /-- What to do instead. -/
  suggestion : Text := []
  /-- The operator of the condition. -/
  operator : Text := []
  /-- The value of the condition, shortened when it is very long. -/
  value : Text := []
  /-- The position of the condition in its query. -/
  index : Option Nat := none
  deriving DecidableEq, Repr

/-- The finding stands in the way. -/
def Issue.isError (i : Issue) : Bool := i.severity = .error

/-- The message, with the suggestion in brackets behind it. -/
def Issue.format (i : Issue) : Text :=
  if i.suggestion.isEmpty then i.message else i.message ++ " (" ++ i.suggestion ++ ")"

/-! ## §2. All findings about a query. -/

/-- The findings about a query. -/
structure Verdict where
  /-- The query. -/
  query : Text
  /-- The findings, in the order of the checks. -/
  issues : List Issue
  deriving DecidableEq, Repr

namespace Verdict

/-- No finding stands in the way. -/
def isValid (v : Verdict) : Bool := !v.issues.any Issue.isError

/-- The findings that stand in the way. -/
def errors (v : Verdict) : List Issue := v.issues.filter Issue.isError

/-- The findings that are warnings. -/
def warnings (v : Verdict) : List Issue := v.issues.filter (fun i => i.severity = .warning)

end Verdict

end EncodedQuery

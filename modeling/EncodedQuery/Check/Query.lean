/-
  EncodedQuery.Check.Query
  ────────────────────────
  **CHECKING WHOLE QUERIES.**

  A list of conditions is checked condition by condition and then as the query
  that it encodes.  A query typed by hand is checked for its structure and for
  patterns that have no place in a filter; that last check is a heuristic and
  makes no query safe.
-/
import EncodedQuery.Check.Condition
import EncodedQuery.Condition.Chain

namespace EncodedQuery.Check

/-! ## §1. Limits. -/

/-- The longest query that raises no concern. -/
def longestQuery : Nat := 8000

/-- The most conditions that raise no concern. -/
def mostConditions : Nat := 20

/-- The most searches inside text that raise no concern. -/
def mostContains : Nat := 5

/-- The most alternatives that raise no concern. -/
def mostAlternatives : Nat := 3

/-! ## §2. Structure. -/

/-- Every closing parenthesis has an opening one before it; `depth` are open, and none is open
at the end. -/
def balancedFrom : Nat → Text → Bool
  | depth, [] => depth == 0
  | depth, c :: rest =>
      if c = '(' then balancedFrom (depth + 1) rest
      else if c = ')' then
        match depth with
        | 0 => false
        | d + 1 => balancedFrom d rest
      else balancedFrom depth rest

/-- The parentheses of a text are balanced. -/
def isBalanced (t : Text) : Bool := balancedFrom 0 t

/-- The findings about the structure of a query. -/
def structureIssues (query : Text) : List Issue :=
  if query.isEmpty then []
  else
    (if Text.startsWith query "^" || Text.endsWith query "^" || Text.endsWith query "^OR" then
      [{ severity := .warning, message := "Query has unmatched logical operators (^)" }]
     else [])
    ++ (if Text.contains query "^^" || Text.contains query "^OR^" then
      [{ severity := .error, message := "Query contains consecutive logical operators",
         suggestion := "Remove the doubled ^" }]
     else [])
    ++ (if !isBalanced query then
      [{ severity := .error, message := "Query has unbalanced parentheses" }]
     else [])
    ++ (if longestQuery < query.length then
      [{ severity := .warning,
         message := "Query is very long and may cause performance issues",
         suggestion :=
           "Consider simplifying the query or breaking it into multiple searches" }]
     else [])

/-! ## §3. Lists of conditions. -/

/-- The alternatives of a query, counted by their separators. -/
def alternatives (query : Text) : Nat := Text.occurrences query "^OR"

/-- The warnings about conditions and queries that take long to answer. -/
def costIssues (cs : List Condition) (query : Text) : List Issue :=
  let contains := cs.countP (fun c => c.operator = Operator.contains.token)
  (if mostConditions < cs.length then
    [{ severity := .warning,
       message := "Query has " ++ Text.ofNat cs.length ++ " conditions which may be slow",
       suggestion := "Consider simplifying the query for better performance" }]
   else [])
  ++ (if mostContains < contains then
    [{ severity := .warning,
       message := "Query has " ++ Text.ofNat contains ++ " CONTAINS operations which may be slow",
       suggestion :=
         "Consider using more specific operators like STARTSWITH or exact matches" }]
   else [])
  ++ (if mostAlternatives < alternatives query then
    [{ severity := .warning,
       message := "Query has " ++ Text.ofNat (alternatives query)
         ++ " OR operations which may be slow",
       suggestion := "OR operations can be slow on large tables" }]
   else [])

/-- A finding about the condition at position `i`, told apart from those about the others. -/
def located (i : Nat) (found : Issue) : Issue :=
  { found with
    index := some i
    subject := "Condition " ++ Text.ofNat (i + 1) ++ ": " ++ found.subject }

/-- The findings about each condition, from position `i` on. -/
def conditionIssues (table : Option Table) : Nat → List Condition → List Issue
  | _, [] => []
  | i, c :: rest =>
      (condition table c).map (located i) ++ conditionIssues table (i + 1) rest

/-- The verdict on a list of conditions. -/
def conditions (table : Option Table) (cs : List Condition) : Verdict :=
  if cs.isEmpty then
    { query := []
      issues := [{ severity := .error, message := "Query must have at least one condition",
                   suggestion := "Add at least one condition" }] }
  else
    let query := Chain.encodeList cs
    { query
      issues := conditionIssues table 0 cs ++ structureIssues query ++ costIssues cs query }

/-! ## §4. Queries typed by hand. -/

/-- Texts that have no place in a filter, in lower case. -/
def suspectTexts : List Text :=
  ["drop table", "delete from", "update set", "insert into",
   "exec(", "execute(", "sp_", "xp_", "<script"]

/-- `t` begins with `head`, letters in either case. -/
def beginsWithLetters : Text → Text → Bool
  | _, [] => true
  | [], _ :: _ => false
  | c :: t, d :: head => Text.sameLetter c d && beginsWithLetters t head

/-- A script address occurs that does not go to the query functions of the backend. -/
def hasScriptAddress : Text → Bool
  | [] => false
  | c :: rest =>
      (beginsWithLetters (c :: rest) "javascript:"
        && !beginsWithLetters ((c :: rest).drop 11) "gs.")
      || hasScriptAddress rest

/-- The query holds something that has no place in a filter. -/
def isSuspect (query : Text) : Bool :=
  let lowered := Text.lower query
  suspectTexts.any (fun p => Text.contains lowered p) || hasScriptAddress query

/-- The verdict on a query typed by hand. -/
def rawQuery (query : Text) : Verdict :=
  if (Text.strip query).isEmpty then
    { query, issues := [{ severity := .error, message := "Query cannot be empty" }] }
  else
    let found := structureIssues query
      ++ (if isSuspect query then
        [{ severity := .error, message := "Query contains potentially dangerous patterns" }]
       else [])
    let unread : List Issue :=
      if found.any Issue.isError then []
      else match Term.parse query with
        | .ok _ => []
        | .error _ =>
            [{ severity := .warning,
               message := "Query could not be split into field/operator/value terms",
               suggestion := "Each term should look like field=value or fieldCONTAINSvalue" }]
    { query, issues := found ++ unread }

/-! ## §5. Strict encoding. -/

/-- The query of a chain; in strict mode only when no finding stands in the way. -/
def encode (table : Option Table) (strict : Bool) (s : Chain) : Except Fault Text :=
  let verdict := conditions table s.conditions
  match strict, verdict.errors with
  | true, first :: _ => .error (.rejected first.format verdict.issues)
  | _, _ => .ok s.encode

end EncodedQuery.Check

/-
  EncodedQuery.Query.Term
  ───────────────────────
  **TERMS OF A QUERY.**

  An encoded query is a row of terms, each a field name, an operator and a
  value without blanks between them, joined by one of three separators.  A
  field name ends where the first operator token begins, and of several tokens
  that begin there the longest one counts; everything up to the next
  separator is the value.

  `Term.parse` takes a query apart, and `Term.compose` puts terms together.
-/
import EncodedQuery.Fault
import EncodedQuery.Operator.Basic
import EncodedQuery.Query.Scan
import EncodedQuery.Text.Blank

namespace EncodedQuery

/-! ## §1. Separators and terms. -/

/-- What stands between two terms. -/
inductive Separator where
  /-- Both sides have to hold. -/
  | and
  /-- Either side may hold. -/
  | or
  /-- A new query begins; its answers are added. -/
  | newQuery
  deriving DecidableEq, Repr

/-- The spelling of a separator. -/
def Separator.token : Separator → Text
  | and => "^"
  | or => "^OR"
  | newQuery => "^NQ"

/-- One term of a query. -/
structure Term where
  /-- The separator before it; the first term has none. -/
  join : Option Separator
  /-- The name of the field. -/
  field : Text
  /-- The operator. -/
  operator : Operator
  /-- The value, which may be empty. -/
  value : Text
  deriving DecidableEq, Repr

namespace Term

/-! ## §2. Writing. -/

/-- One term without its separator. -/
def body (t : Term) : Text := t.field ++ t.operator.token ++ t.value

/-- The query with these terms. -/
def compose (terms : List Term) : Text :=
  terms.flatMap (fun t => ((t.join.map Separator.token).getD []) ++ t.body)

/-! ## §3. Reading one term. -/

/-- A character that a field name can begin with. -/
def isNameStart (c : CodePoint) : Bool := ('A' ≤ c ∧ c ≤ 'Z') ∨ ('a' ≤ c ∧ c ≤ 'z') ∨ c = '_'

/-- A character of a field name. -/
def isNameChar (c : CodePoint) : Bool := isNameStart c ∨ ('0' ≤ c ∧ c ≤ '9') ∨ c = '.'

/-- The longest operator token in front, and what follows it. -/
def operatorAt? (t : Text) : Option (Operator × Text) :=
  Operator.byLength.findSome? (fun op => (Text.dropHead? t op.token).map (fun rest => (op, rest)))

/-- The rest of a field name up to the first operator token, the operator, and the text behind
it. -/
def nameRest? : Text → Option (Text × Operator × Text)
  | [] => none
  | c :: rest =>
      match operatorAt? (c :: rest) with
      | some (op, behind) => some ([], op, behind)
      | none => if isNameChar c then (nameRest? rest).map (fun (n, r) => (c :: n, r)) else none

/-- A term at the front of a text; its value goes up to the next caret. -/
def scan (join : Option Separator) : Scan Term := Scan.behindGap fun
  | [] => none
  | c :: rest =>
      if isNameStart c then
        (nameRest? rest).map (fun (name, op, behind) =>
          (⟨join, c :: name, op, behind.takeWhile (· ≠ .char '^')⟩,
            behind.dropWhile (· ≠ .char '^')))
      else none

/-! ## §4. Reading a query. -/

/-- A separator at the front of a text; the bare caret is the last one to be tried. -/
def scanSeparator : Scan Separator :=
  Scan.firstOf ([.newQuery, .or, .and].map (fun sep => Scan.exactly sep.token sep))

/-- A separator and its term. -/
def scanLater : Scan Term := scanSeparator.andThen (fun sep => scan (some sep))

/-- A first term, later terms as many as there are, and nothing else. -/
def scanQuery : Scan (List Term) :=
  (scan none).andThen fun first =>
    (Scan.many scanLater).andThen fun later =>
      Scan.atEnd.andThen fun _ rest => some (first :: later, rest)

/-- Tabs filled up with blanks to the next column that is a multiple of eight; columns are
counted from the last line break. -/
def expandTabs : Nat → Text → Text
  | _, [] => []
  | column, c :: rest =>
      if c = '\t' then
        let n := 8 - column % 8
        (List.replicate n ' ' : Text) ++ expandTabs (column + n) rest
      else c :: expandTabs (if c = '\n' ∨ c = '\r' then 0 else column + 1) rest

/-- The terms of a query; blanks around the query do not count, and an empty query has no
terms. -/
def parse (query : Text) : Except Fault (List Term) :=
  let t := Text.strip query
  if t.isEmpty then .ok []
  else match scanQuery (expandTabs 0 t) with
    | some (terms, _) => .ok terms
    | none => .error (.badQuery "Invalid query syntax")

end Term

end EncodedQuery

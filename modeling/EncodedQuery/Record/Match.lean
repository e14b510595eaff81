/-
  EncodedQuery.Record.Match
  ─────────────────────────
  **WHICH RECORDS A QUERY FINDS.**

  A term is asked of both texts of its field.  Text is compared without regard
  to case, numbers by amount, and whatever is not a number by code points.

  A query is a list of queries of which one has to hold; each of these is a
  list of groups that all have to hold; and of a group one term has to hold.
  `Term.parts` finds that structure.
-/
import EncodedQuery.Number.Numeral
import EncodedQuery.Query.Term
import EncodedQuery.Record.Basic

namespace EncodedQuery

/-! ## §1. One term. -/

namespace Record

/-- How two texts compare: by amount when both are numbers, else by code points; `none` when
the amounts do not compare. -/
def compareTexts (a b : Text) : Option Ordering :=
  match Number.readReal? a, Number.readReal? b with
  | some x, some y => if x < y then some .lt else if y < x then some .gt else
      if x == y then some .eq else none
  | _, _ => some (Text.compare a b)

/-- `lower` of a value or its display has the property. -/
def either (stored shown : Text) (p : Text → Bool) : Bool :=
  p (Text.lower stored) || p (Text.lower shown)

/-- A comparison holds of a stored text; the empty text compares with nothing, and amounts
that do not compare count as equal. -/
def compares (stored value : Text) (p : Ordering → Bool) : Bool :=
  !stored.isEmpty && p ((compareTexts stored value).getD .eq)

/-- The single values of a list of values. -/
def listed (value : Text) : List Text := (Text.cut ',' value).map Text.strip

/-- An operator holds of the two texts of a field and a value. -/
def holds (stored shown : Text) (op : Operator) (value : Text) : Bool :=
  let needle := Text.lower value
  match op with
  | .equals => stored = value || shown = value
  | .notEquals => stored ≠ value && shown ≠ value
  | .isEmpty => stored = []
  | .isNotEmpty => stored ≠ []
  | .contains | .like =>
      either stored shown (fun t => Text.contains t (needle.filter (· ≠ .char '%')))
  | .doesNotContain => !either stored shown (fun t => Text.contains t needle)
  | .startsWith => either stored shown (fun t => Text.startsWith t needle)
  | .endsWith => either stored shown (fun t => Text.endsWith t needle)
  | .inList => Text.isOneOf stored (listed value) || Text.isOneOf shown (listed value)
  | .notInList => !(Text.isOneOf stored (listed value) || Text.isOneOf shown (listed value))
  | .greaterThan => compares stored value (· = .gt)
  | .greaterOrEqual => compares stored value (· ≠ .lt)
  | .lessThan => compares stored value (· = .lt)
  | .lessOrEqual => compares stored value (· ≠ .gt)
  | _ => false

/-- The term holds of the record. -/
def matchesTerm (r : Record) (t : Term) : Bool :=
  holds (r.stored t.field) (r.shown t.field) t.operator t.value

end Record

/-! ## §2. Whole queries. -/

/-- The queries of a list of terms, their groups, and the terms of each group. -/
def Term.parts : List Term → List (List (List Term))
  | [] => [[]]
  | [t] => [[[t]]]
  | t :: next :: rest =>
      match next.join, Term.parts (next :: rest) with
      | some .newQuery, queries => [[t]] :: queries
      | some .or, (group :: groups) :: queries => ((t :: group) :: groups) :: queries
      | _, groups :: queries => ([t] :: groups) :: queries
      | _, [] => [[[t]]]

namespace Record

/-- Some query, in it every group, in each of these some term holds. -/
def matchesTerms (r : Record) (terms : List Term) : Bool :=
  (Term.parts terms).any (fun groups => groups.all (fun group => group.any r.matchesTerm))

end Record

end EncodedQuery

/-
  EncodedQuery.Condition.Chain
  ────────────────────────────
  **CHAINS OF CONDITIONS.**

  A chain is the row of conditions that a filter consists of.  Each condition
  but the last says how it is linked to its successor; the last one carries no
  link.  Chains grow and shrink at their end.

  `encode` writes the whole filter as a query, and `ofQuery` loads a query
  as a chain.
-/
import EncodedQuery.Condition.Basic

namespace EncodedQuery

/-! ## §1. Chains. -/

/-- A row of linked conditions. -/
structure Chain where
  /-- The conditions in order. -/
  conditions : List Condition
  deriving DecidableEq, Repr

namespace Chain

/-- The conditions with the link of the last one taken away. -/
def unlinkLast : List Condition → List Condition
  | [] => []
  | [c] => [{ c with link := none }]
  | c :: rest => c :: unlinkLast rest

/-- The conditions with the last one linked by `l`. -/
def linkLast (l : Link) : List Condition → List Condition
  | [] => []
  | [c] => [{ c with link := some l }]
  | c :: rest => c :: linkLast l rest

/-- No conditions. -/
def empty : Chain := ⟨[]⟩

/-- The chain of these conditions. -/
def ofList (cs : List Condition) : Chain := ⟨unlinkLast cs⟩

/-- One more condition at the end, linked to by `link` or else by "and". -/
def append (s : Chain) (c : Condition) (link : Option Link) : Chain :=
  ⟨linkLast (link.getD .and) s.conditions ++ [{ c with link := none }]⟩

/-- The last condition and the chain before it. -/
def pop? (s : Chain) : Option (Condition × Chain) :=
  match s.conditions.getLast? with
  | none => none
  | some c => some (c, ofList s.conditions.dropLast)

/-- The condition at a position; negative positions count from the end. -/
def get (s : Chain) (i : Int) : Except Fault Condition :=
  let n : Int := s.conditions.length
  let j := if i < 0 then i + n else i
  if j < 0 then .error .noSuchPosition
  else match s.conditions[j.toNat]? with
    | some c => .ok c
    | none => .error .noSuchPosition

/-! ## §2. Queries. -/

/-- The conditions from left to right, each link between its two conditions. -/
def encodeList : List Condition → Text
  | [] => []
  | [c] => c.encode
  | c :: rest => c.encode ++ c.separator.token ++ encodeList rest

/-- The query of a chain; the empty chain has the empty query. -/
def encode (s : Chain) : Text := encodeList s.conditions

/-- The field that a term names: as the table knows it, or else as plain text. -/
def fieldOfTerm (table : Option Table) (name : Text) : Field :=
  (table.bind (fun t => t.field? name)).getD { name := name, label := name }

/-- The condition of one term, with the instants of a range literal beside its value. -/
def conditionOfTerm (table : Option Table) (t : Term) : Condition :=
  let bounds := (Instant.readRange t.value).toOption.join
  { field := fieldOfTerm table t.field
    operator := t.operator.token
    value := t.value
    start := bounds.map (·.1)
    stop := bounds.map (·.2) }

/-- The conditions of terms, each linked as the separator of the next term says; a query of
several parts is no chain. -/
def ofTerms (table : Option Table) : List Term → Except Fault (List Condition)
  | [] => .ok []
  | t :: rest => do
      if t.join = some .newQuery then
        throw (.badQuery "^NQ queries cannot be loaded into the builder")
      let link : Option Link := match rest with
        | [] => none
        | next :: _ => if next.join = some .or then some .or else some .and
      let later ← ofTerms table rest
      return { conditionOfTerm table t with link } :: later

/-- The chain of a query. -/
def ofQuery (table : Option Table) (query : Text) : Except Fault Chain := do
  return ofList (← ofTerms table (← Term.parse query))

/-! ## §3. JSON. -/

/-- The descriptions of the conditions. -/
def toJson (s : Chain) : List Json := s.conditions.map Condition.toJson

/-- The chain of a list of descriptions. -/
def ofItems (items : List Json) : Except Fault Chain := do
  return ofList (← items.mapM Condition.ofJson)

/-- The chain that a document describes. -/
def ofJson (v : Json) : Except Fault Chain := v.walked >>= ofItems

end Chain

end EncodedQuery

/-
  EncodedQuery.Saved.Filter
  ─────────────────────────
  **SAVED FILTERS.**

  A filter that was saved under a name for a table: its query, the conditions
  it came from, and when and how often it was used.  `toJson` describes a filter,
  and `ofJson` reads a description; a description without an instant of creation
  was created now.
-/
import EncodedQuery.Condition.Chain
import EncodedQuery.Instant.Stored
import EncodedQuery.Number.Rounding

namespace EncodedQuery

/-- A saved filter.  Name, table, query and description are texts in every filter that was saved
here; a file may hold others. -/
structure SavedFilter where
  /-- What it is known by. -/
  id : Text
  /-- Its name. -/
  name : Json
  /-- The table it filters. -/
  table : Json
  /-- The query. -/
  query : Json
  /-- What it is for. -/
  description : Json
  /-- Descriptions of its conditions. -/
  conditions : List Json
  /-- When it was saved. -/
  createdAt : Stamp
  /-- When it was last used. -/
  lastUsed : Option Stamp
  /-- How often it was used. -/
  useCount : Int
  /-- It stands before the others. -/
  isFavorite : Bool

namespace SavedFilter

/-! ## §1. JSON. -/

/-- A description that `ofJson` reads back. -/
def toJson (f : SavedFilter) : Json :=
  .object
    [("id", .text f.id), ("name", f.name), ("description", f.description), ("table", f.table),
     ("query", f.query), ("conditions", .list f.conditions),
     ("created_at", .text f.createdAt.iso),
     ("last_used", (f.lastUsed.map (fun t => Json.text t.iso)).getD .null),
     ("use_count", .int f.useCount), ("is_favorite", .bool f.isFavorite)]

/-- A stamp among the members; what is missing or empty is none. -/
def stampMember (name : Text) (ms : List (Text × Json)) : Except Fault (Option Stamp) :=
  match Json.nonempty? (Json.lookup? name ms) with
  | none => .ok none
  | some v => do return some (← Stamp.read (← v.toText))

/-- The filter that a description gives. -/
def ofJson (now : Instant) (v : Json) : Except Fault SavedFilter := do
  let ms ← v.members
  let id ← match Json.lookup? "id" ms with
    | some id => pure id
    | none => throw .missingMember
  let textMember (name : Text) : Json := (Json.lookup? name ms).getD (.text [])
  let conditions ← match Json.nonempty? (Json.lookup? "conditions" ms) with
    | some v => v.walked
    | none => pure []
  let createdAt ← stampMember "created_at" ms
  let lastUsed ← stampMember "last_used" ms
  let useCount ← ((Json.lookup? "use_count" ms).getD (.int 0)).toInt
  return {
    id := id.shown
    name := textMember "name"
    table := textMember "table"
    query := textMember "query"
    description := textMember "description"
    conditions
    createdAt := createdAt.getD now
    lastUsed
    useCount
    isFavorite := Json.flag "is_favorite" ms }

/-- The conditions of a filter. -/
def chain (f : SavedFilter) : Except Fault Chain := Chain.ofItems f.conditions

/-! ## §2. Order. -/

/-- A fraction rounded to 53 significant bits. -/
def rounded (n : Int) (d : Nat) : Int :=
  let size : Int := (Number.significant n.natAbs d : Nat)
  if n < 0 then -size else size

/-- The place of a stamp in the order of saved filters, in units of 2^-72 seconds since the start
of 1970, to 53 significant bits.  Without an offset, the fraction of a second is rounded, and then
its sum with the whole seconds; with one, the microseconds in UTC are rounded once.  Stamps far from
that start which differ by few microseconds share a place. -/
def place (s : Stamp) : Int :=
  let unit := Number.twoTo 72
  match s.offset with
  | some _ => rounded (s.epochMicros * unit) 1000000
  | none =>
      let seconds := s.clock.epochSeconds * unit
      if s.clock.micro = 0 then seconds
      else rounded (seconds + rounded ((s.clock.micro : Int) * unit) 1000000) 1

/-- The place of the last use; a filter that was never used counts as used at the start of 1970. -/
def usedAt (f : SavedFilter) : Int := (f.lastUsed.map place).getD 0

/-- The stamps of a filter have a place in the order: without an offset, a stamp is placed with the
help of the day before it, which the first day of the calendar does not have. -/
def hasPlace (f : SavedFilter) : Bool :=
  (f.createdAt :: f.lastUsed.toList).all (fun s => s.offset.isSome || s.clock.date.prev?.isSome)

/-- `f` stands before or beside `g`: favourites first, then the last used, then the newest. -/
def precedes (f g : SavedFilter) : Bool :=
  if f.isFavorite ≠ g.isFavorite then f.isFavorite
  else if f.usedAt ≠ g.usedAt then decide (g.usedAt < f.usedAt)
  else decide (place g.createdAt ≤ place f.createdAt)

/-! ## §3. Searching. -/

/-- A member contains a text, in either case; only a text can be searched. -/
def memberContains (needle : Text) : Json → Except Fault Bool
  | .text t => .ok (Text.contains (Text.lower t) needle)
  | v => .error (.noMember v.kind "lower")

/-- The name, the description or the query contains a text, in either case. -/
def matchesText (needle : Text) (f : SavedFilter) : Except Fault Bool := do
  if ← memberContains needle f.name then return true
  if ← memberContains needle f.description then return true
  memberContains needle f.query

end SavedFilter

end EncodedQuery

/-
  EncodedQuery.Record.Basic
  ─────────────────────────
  **RECORDS.**

  A record is a row of a table: named values in order.  A value is plain, or a
  pair of a stored value and a value for display.  `Record.stored` and
  `Record.shown` are the two texts of a field.
-/
import EncodedQuery.Json.Shown

namespace EncodedQuery

/-- A row of a table. -/
abbrev Record := List (Text × Json)

namespace Record

/-- A value as it is stored: null is empty, truth values are in lower case. -/
def storedText : Json → Text
  | .null => []
  | .bool b => if b then "true" else "false"
  | v => v.shown

/-- The stored text of a field; a pair without a stored value falls back on its display. -/
def stored (r : Record) (name : Text) : Text :=
  match Json.lookup? name r with
  | none => []
  | some (.object pair) =>
      storedText ((Json.lookup? "value" pair).getD
        ((Json.lookup? "display_value" pair).getD (.text [])))
  | some v => storedText v

/-- The value, unless it is null or the empty string. -/
def filled? : Option Json → Option Json
  | none => none
  | some .null => none
  | some (.text []) => none
  | some v => some v

/-- The text of a field for people; a pair without a display falls back on its stored value. -/
def shown (r : Record) (name : Text) : Text :=
  match Json.lookup? name r with
  | none => []
  | some .null => []
  | some (.object pair) =>
      (((filled? (Json.lookup? "display_value" pair)).or
        (filled? (Json.lookup? "value" pair))).map Json.shown).getD []
  | some v => v.shown

/-- The fields of these names that the record has, in the order of the names. -/
def project (names : List Text) (r : Record) : Record :=
  names.foldl (fun acc name =>
    match Json.lookup? name r with
    | some v => Json.put name v acc
    | none => acc) []

end Record

end EncodedQuery

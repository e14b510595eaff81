/-
  EncodedQuery.Json.Shown
  ───────────────────────
  **JSON VALUES AS TEXT.**

  Where a text is expected and another value arrives, the value is taken in
  its shown form: a string as it is, numbers as numerals, truth values as True
  and False, null as None, and containers with their items in quoted form.
-/
import EncodedQuery.Json.Basic
import EncodedQuery.Number.Shortest
import EncodedQuery.Text.Quoted

namespace EncodedQuery.Json

mutual
/-- A value inside a container: strings stand between quotation marks. -/
def shownInside : Json → Text
  | null => "None"
  | bool b => if b then "True" else "False"
  | int n => Text.ofInt n
  | real x => Number.shown x
  | text t => Text.quoted t
  | list items => "[" ++ shownItems items ++ "]"
  | object members => "\x7b" ++ shownMembers members ++ "\x7d"

/-- The items of an array, separated. -/
def shownItems : List Json → Text
  | [] => []
  | [v] => shownInside v
  | v :: rest => shownInside v ++ ", " ++ shownItems rest

/-- The members of an object, separated. -/
def shownMembers : List (Text × Json) → Text
  | [] => []
  | [(name, v)] => Text.quoted name ++ ": " ++ shownInside v
  | (name, v) :: rest => Text.quoted name ++ ": " ++ shownInside v ++ ", " ++ shownMembers rest
end

/-- A value as text. -/
def shown : Json → Text
  | text t => t
  | v => shownInside v

end EncodedQuery.Json

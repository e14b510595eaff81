/-
  EncodedQuery.Json.Basic
  ───────────────────────
  **JSON VALUES.**

  Records, condition files, saved filters and settings arrive as JSON.  Whole
  numbers are exact, numbers with a point or an exponent are doubles, and an
  object keeps its members in the order in which their names first appeared.
-/
import EncodedQuery.Number.Shortest

namespace EncodedQuery

/-- A JSON value. -/
inductive Json where
  /-- The absent value. -/
  | null
  /-- A truth value. -/
  | bool (b : Bool)
  /-- A number written without point and exponent. -/
  | int (n : Int)
  /-- Any other number. -/
  | real (x : Float)
  /-- A string. -/
  | text (t : Text)
  /-- An array. -/
  | list (items : List Json)
  /-- An object, its members in order. -/
  | object (members : List (Text × Json))
  deriving Inhabited

namespace Json

/-! ## §1. Members of objects. -/

/-- The value under `name` in a list of members. -/
def lookup? (name : Text) (members : List (Text × Json)) : Option Json :=
  (members.find? (fun m => m.1 = name)).map (·.2)

/-- The members with `name` set to `value`: in its old place, or else at the end. -/
def put (name : Text) (value : Json) : List (Text × Json) → List (Text × Json)
  | [] => [(name, value)]
  | m :: rest => if m.1 = name then (name, value) :: rest else m :: put name value rest

/-- The member of an object, if the value is an object that has it. -/
def member? (name : Text) : Json → Option Json
  | object members => lookup? name members
  | _ => none

/-! ## §2. Emptiness. -/

/-- Null, false, zero, and the empty string, array and object count as empty. -/
def isEmptyValue : Json → Bool
  | null => true
  | bool b => !b
  | int n => n == 0
  | real x => x == 0.0
  | text t => t.isEmpty
  | list items => items.isEmpty
  | object members => members.isEmpty

/-- The value, unless it is absent or empty. -/
def nonempty? : Option Json → Option Json
  | some v => if v.isEmptyValue then none else some v
  | none => none

/-! ## §3. Equality. -/

/-- The value is this string. -/
def isText (t : Text) : Json → Bool
  | text s => s = t
  | _ => false

/-- The whole number that a value stands for: truth values count as zero and one. -/
def whole? : Json → Option Int
  | bool b => some (if b then 1 else 0)
  | int n => some n
  | _ => none

/-- A number of exactly this amount, or the truth value that counts for it. -/
def isWhole (n : Int) : Json → Bool
  | real x => Number.isExactly x n
  | v => whole? v == some n

mutual
/-- Equality of values: numbers by amount, objects without regard to order. -/
def same : Json → Json → Bool
  | null, null => true
  | text a, text b => a == b
  | list as, list bs => sameItems as bs
  | object as, object bs => as.length == bs.length && sameMembers as bs
  | bool a, b => isWhole (if a then 1 else 0) b
  | int a, b => isWhole a b
  | real a, real b => a == b
  | real a, b => (whole? b).any (Number.isExactly a)
  | _, _ => false

/-- Item by item. -/
def sameItems : List Json → List Json → Bool
  | [], [] => true
  | a :: as, b :: bs => same a b && sameItems as bs
  | _, _ => false

/-- Every member of the first object has an equal one in the second. -/
def sameMembers : List (Text × Json) → List (Text × Json) → Bool
  | [], _ => true
  | (name, a) :: as, bs =>
      (match lookup? name bs with
        | some b => same a b
        | none => false) && sameMembers as bs
end

instance : BEq Json := ⟨same⟩

end Json

end EncodedQuery

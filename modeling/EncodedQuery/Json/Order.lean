/-
  EncodedQuery.Json.Order
  ───────────────────────
  **VALUES IN ORDER.**

  Strings stand in the order of their code points and numbers in the order of
  their amounts; truth values count as zero and one.  Values of other kinds, or
  of different kinds, have no order, and neither has a list that holds some.

  Main function: `inOrder`, which sorts a list or says that it cannot be sorted.
-/
import EncodedQuery.Fault
import EncodedQuery.Json.Basic

namespace EncodedQuery

/-! ## §1. Whole numbers and doubles. -/

namespace Number

/-- A whole number is less than a double, exactly. -/
def isBelow (n : Int) (x : Float) : Bool :=
  if x.isNaN then false
  else if x.isInf then !isNegative x
  else
    let whole := truncated x
    n < whole || (n == whole && !isExactly x whole && !isNegative x)

/-- A whole number is greater than a double, exactly. -/
def isAbove (n : Int) (x : Float) : Bool :=
  if x.isNaN then false
  else if x.isInf then isNegative x
  else
    let whole := truncated x
    whole < n || (n == whole && !isExactly x whole && isNegative x)

end Number

namespace Json

/-! ## §2. Values. -/

/-- The value is a number or counts as one. -/
def isNumber : Json → Bool
  | bool _ | int _ | real _ => true
  | _ => false

/-- The value is a string. -/
def isString : Json → Bool
  | text _ => true
  | _ => false

/-- The value is absent. -/
def isNull : Json → Bool
  | null => true
  | _ => false

/-- `a` stands before `b`; of values without an order none does. -/
def isBefore (a b : Json) : Bool :=
  match a, b with
  | text s, text t => decide (Text.compare s t = .lt)
  | real x, real y => x < y
  | real x, v => (whole? v).any (fun n => Number.isAbove n x)
  | v, real y => (whole? v).any (fun n => Number.isBelow n y)
  | v, w => match whole? v, whole? w with
      | some m, some n => decide (m < n)
      | _, _ => false

/-- All values of a list have an order among each other, or are absent. -/
def areOrdered (vs : List Json) : Bool :=
  vs.all isString || vs.all isNumber || vs.all isNull || decide (vs.length ≤ 1)

/-- The values in their order; equals keep their places. -/
def inOrder (vs : List Json) : Except Fault (List Json) :=
  if areOrdered vs then .ok (vs.mergeSort (fun a b => !isBefore b a)) else .error .wrongKind

end Json

end EncodedQuery

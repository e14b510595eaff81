/-
  EncodedQuery.Number.Shortest
  ────────────────────────────
  **THE SHORTEST DECIMAL OF A BINARY NUMBER.**

  A finite double is `± m · 2^q` with whole `m`, and the reals that round to it
  form an interval around it, whose ends belong to it exactly when `m` is
  even.  `shortest` tries the decimal grids from one digit to seventeen and
  takes, on the first grid that meets the interval, the point next to the
  number; an exact tie goes to the even neighbour.

  `shown` writes that decimal: positional between 10^-4 and 10^16, always with
  a point, and with an exponent of at least two digits elsewhere.
-/
import EncodedQuery.Text.Basic

namespace EncodedQuery.Number

/-! ## §1. The binary parts. -/

/-- A power of two. -/
def twoTo (n : Nat) : Nat := Nat.pow 2 n

/-- A power of ten. -/
def tenTo (n : Nat) : Nat := Nat.pow 10 n

/-- A finite double as `m · 2^q`, without its sign. -/
structure Binary where
  /-- The whole factor. -/
  m : Nat
  /-- The power of two. -/
  q : Int
  /-- The gap below is half the gap above: `m` is the least factor of its power. -/
  narrow : Bool

/-- The sign bit. -/
def isNegative (x : Float) : Bool := x.toBits.toNat / twoTo 63 == 1

/-- The parts of a finite double. -/
def Binary.ofFloat (x : Float) : Binary :=
  let bits : Nat := x.toBits.toNat
  let fraction : Nat := bits % twoTo 52
  let exponent : Nat := bits / twoTo 52 % twoTo 11
  if exponent = 0 then ⟨fraction, -1074, false⟩
  else ⟨twoTo 52 + fraction, (exponent : Int) - 1075, fraction = 0 ∧ 1 < exponent⟩

/-! ## §2. The decimal grids. -/

/-- `c · 10^k`. -/
structure Decimal where
  /-- The whole factor. -/
  c : Nat
  /-- The power of ten. -/
  k : Int
  deriving DecidableEq, Repr

/-- `x · 2^q / 10^k` as numerator and denominator. -/
def scaled (q k : Int) (x : Nat) : Nat × Nat :=
  (x * twoTo q.toNat * tenTo (-k).toNat, twoTo (-q).toNat * tenTo k.toNat)

/-- The least `e` with `m · 2^q < 10^e`, for a positive number. -/
def Binary.magnitude (b : Binary) : Int :=
  let whole := b.m * twoTo b.q.toNat / twoTo (-b.q).toNat
  if whole ≠ 0 then (Nat.toDigits 10 whole).length
  else
    match (List.range 330).find? (fun z => twoTo (-b.q).toNat ≤ b.m * tenTo (z + 1)) with
    | some z => -(z : Int)
    | none => -330

/-- The point of the grid `10^k` next to `b`, when one lies in the interval of `b`. -/
def Binary.onGrid? (b : Binary) (k : Int) : Option Decimal :=
  let value := (scaled (b.q - 2) k (4 * b.m)).1
  let low := (scaled (b.q - 2) k (4 * b.m - (if b.narrow then 1 else 2))).1
  let high := (scaled (b.q - 2) k (4 * b.m + 2)).1
  let unit := (scaled (b.q - 2) k 0).2
  let inside (c : Nat) : Bool :=
    if b.m % 2 = 0 then low ≤ c * unit && c * unit ≤ high else low < c * unit && c * unit < high
  let below := value / unit
  let above := below + 1
  let downCloser :=
    let down := value - below * unit
    let up := above * unit - value
    down < up || (down == up && below % 2 == 0)
  match inside below, inside above with
  | true, true => some ⟨if downCloser then below else above, k⟩
  | true, false => some ⟨below, k⟩
  | false, true => some ⟨above, k⟩
  | false, false => none

/-- Trailing zeros of the factor moved into the power; `fuel` bounds their number. -/
def Decimal.trimmed : Nat → Decimal → Decimal
  | 0, d => d
  | fuel + 1, d =>
      if d.c ≠ 0 ∧ d.c % 10 = 0 then Decimal.trimmed fuel ⟨d.c / 10, d.k + 1⟩ else d

/-- The shortest decimal that reads back as `b`. -/
def Binary.shortest (b : Binary) : Decimal :=
  if b.m = 0 then ⟨0, 0⟩
  else
    let found := (List.range 17).findSome? (fun i => b.onGrid? (b.magnitude - (i + 1 : Nat)))
    (found.getD ⟨0, 0⟩).trimmed 20

/-! ## §3. Writing, and whole parts. -/

/-- The decimal in digits, a point among them or an exponent behind them. -/
def Decimal.shown (d : Decimal) : Text :=
  let digits := Text.ofNat d.c
  let n := digits.length
  let point : Int := n + d.k
  if d.c = 0 then "0.0"
  else if -4 < point ∧ point ≤ 16 then
    if point ≤ 0 then "0." ++ (List.replicate (-point).toNat '0' : Text) ++ digits
    else if (n : Int) ≤ point then digits ++ (List.replicate (point - n).toNat '0' : Text) ++ ".0"
    else digits.take point.toNat ++ "." ++ digits.drop point.toNat
  else
    let e := point - 1
    let tail : Text := if n = 1 then [] else .char '.' :: digits.drop 1
    let sign : CodePoint := if e < 0 then '-' else '+'
    digits.take 1 ++ tail ++ [.char 'e', sign] ++ Text.twoDigits e.natAbs

/-- A double in its shortest form. -/
def shown (x : Float) : Text :=
  if x.isNaN then "nan"
  else if x.isInf then (if isNegative x then "-inf" else "inf")
  else
    let digits := (Binary.ofFloat x).shortest.shown
    if isNegative x then .char '-' :: digits else digits

/-- The whole part of a finite double, toward zero. -/
def truncated (x : Float) : Int :=
  let b := Binary.ofFloat x
  let whole : Int := (b.m * twoTo b.q.toNat / twoTo (-b.q).toNat : Nat)
  if isNegative x then -whole else whole

/-- A finite double is exactly this whole number. -/
def isExactly (x : Float) (n : Int) : Bool :=
  let b := Binary.ofFloat x
  !x.isNaN && !x.isInf && b.m * twoTo b.q.toNat % twoTo (-b.q).toNat == 0 && truncated x == n

end EncodedQuery.Number

/-
  EncodedQuery.Number.Numeral
  ───────────────────────────
  **READING NUMERALS.**

  Whole numbers and reals as people type them: blanks around the numeral and a
  sign are allowed, digits may be of any script, and a single low line may
  stand between two digits.  A real may also be an infinity or not a number,
  by name and in any case.

  A whole number has at most `longestWhole` digits: reading and writing more of
  them is refused with a wording of its own.
-/
import EncodedQuery.Number.Shortest
import EncodedQuery.Text.Blank
import EncodedQuery.Text.Case
import EncodedQuery.Text.Digit

namespace EncodedQuery.Number

/-! ## §1. The pieces of a numeral. -/

/-- A blank that may stand around a numeral: white space, but no information separator. -/
def isBlank (c : CodePoint) : Bool := Text.isBlank c && !(28 ≤ c.toNat && c.toNat ≤ 31)

/-- The text without the blanks at both ends. -/
def strip (t : Text) : Text := ((t.dropWhile isBlank).reverse.dropWhile isBlank).reverse

/-- A leading sign (true for minus) and the rest. -/
def signed : Text → Bool × Text
  | '-' :: rest => (true, rest)
  | '+' :: rest => (false, rest)
  | t => (false, t)

/-- `t` without its low lines, when each of them stands between two digits. -/
def withoutLowLines? (t : Text) : Option Text := go false t
where
  /-- `afterDigit`: the code point before is a digit. -/
  go : Bool → Text → Option Text
    | _, [] => some []
    | afterDigit, '_' :: rest =>
        match afterDigit, rest with
        | true, d :: _ => if Text.isDigit d then go false rest else none
        | _, _ => none
    | _, c :: rest => (go (Text.isDigit c) rest).map (c :: ·)

/-- A nonempty run of digits in front and what follows it. -/
def digitRun (t : Text) : Text × Text := (t.takeWhile Text.isDigit, t.dropWhile Text.isDigit)

/-! ## §2. Whole numbers. -/

/-- The most digits that a whole number is read and written with. -/
def longestWhole : Nat := 4300

/-- What is said of a whole number with more digits than are read. -/
def tooLongMessage (digits : Nat) : Text :=
  "Exceeds the limit (4300 digits) for integer string conversion: value has "
    ++ Text.ofNat digits ++ " digits; use sys.set_int_max_str_digits() to increase the limit"

/-- What is said of a whole number with more digits than are written. -/
def notWrittenMessage : Text :=
  "Exceeds the limit (4300 digits) for integer string conversion; "
    ++ "use sys.set_int_max_str_digits() to increase the limit"

/-- The number can be written. -/
def isWritable (n : Int) : Bool := n.natAbs < tenTo longestWhole

/-- Why a text is no whole number. -/
inductive WholeFault where
  /-- It is no numeral. -/
  | malformed
  /-- It begins with so many digits that it is not read further. -/
  | tooLong (digits : Nat)
  deriving DecidableEq, Repr

/-- A whole number: sign and digits, nothing else. -/
def readInt (t : Text) : Except WholeFault Int :=
  let (negative, body) := signed (strip t)
  let run := body.takeWhile (fun c => Text.isDigit c || c = '_')
  match withoutLowLines? run with
  | none => .error .malformed
  | some digits =>
      if longestWhole < digits.length then .error (.tooLong digits.length)
      else if digits.isEmpty || run.length ≠ body.length then .error .malformed
      else
        let n : Int := Text.digitsValue digits
        .ok (if negative then -n else n)

/-! ## §3. Reals. -/

/-- `c · 10^k` as the nearest double; beyond 400 places the answer is infinite or zero. -/
def toFloat (c : Nat) (k : Int) : Float :=
  let places : Int := (Nat.toDigits 10 c).length + k
  if c = 0 then 0.0
  else if 400 < places then 1.0 / 0.0
  else if places < -400 then 0.0
  else if k < 0 then Float.ofScientific c true k.natAbs
  else Float.ofScientific c false k.toNat

/-- The exponent part of a numeral: nothing, or a letter, a sign and digits. -/
def readExponent? : Text → Option Int
  | [] => some 0
  | c :: rest =>
      if c = 'e' ∨ c = 'E' then
        let (negative, digits) := signed rest
        if digits.isEmpty || !digits.all Text.isDigit then none
        else
          let n : Int := Text.digitsValue digits
          some (if negative then -n else n)
      else none

/-- Digits with an optional point and an optional exponent. -/
def readDecimal? (t : Text) : Option Float := do
  let (whole, rest) := digitRun t
  let (fraction, rest) := match rest with
    | '.' :: more => digitRun more
    | _ => ([], rest)
  if whole.isEmpty && fraction.isEmpty then none
  else
    let k ← readExponent? rest
    some (toFloat (Text.digitsValue (whole ++ fraction)) (k - fraction.length))

/-- A real number in decimal, or an infinity or not-a-number by name. -/
def readReal? (t : Text) : Option Float := do
  let (negative, body) := signed (strip t)
  let name := Text.lower body
  let x ←
    if name = "inf" ∨ name = "infinity" then some (1.0 / 0.0)
    else if name = "nan" then some (0.0 / 0.0)
    else (withoutLowLines? body) >>= readDecimal?
  some (if negative then -x else x)

end EncodedQuery.Number

/-
  EncodedQuery.Settings.Scalar
  ────────────────────────────
  **NUMBERS AND MOMENTS IN SETTINGS DOCUMENTS.**

  A whole number has no zero in front of another digit, or is written in base
  sixteen, eight or two behind `0x`, `0o` or `0b`.  A real number has a
  fraction, an exponent or both.  Single low lines may stand between digits.

  A moment is a day, a time, or both with an offset behind them if there is
  one.  A document gives it as the text that shows it.

  `scalar?` reads the longest of these in front of a text.
-/
import EncodedQuery.Date
import EncodedQuery.Fault
import EncodedQuery.Json.Basic
import EncodedQuery.Number.Numeral

namespace EncodedQuery.Settings

/-! ## §1. Runs of digits. -/

/-- The text behind more digits of a run, single low lines in front of them allowed. -/
def behindMore (isDigit : CodePoint → Bool) : Text → Text
  | c :: d :: rest =>
      if isDigit c then behindMore isDigit (d :: rest)
      else if c = '_' && isDigit d then behindMore isDigit rest
      else c :: d :: rest
  | [c] => if isDigit c then [] else [c]
  | [] => []

/-- The text behind a run of digits in front, single low lines between them allowed. -/
def behindDigits? (isDigit : CodePoint → Bool) : Text → Option Text
  | c :: rest => if isDigit c then some (behindMore isDigit rest) else none
  | [] => none

/-- What stands in front of `rest`, the end of `t`. -/
def before (t rest : Text) : Text := t.take (t.length - rest.length)

/-- The number that exactly `n` digits in front write, if it lies between two bounds, and the
rest. -/
def digitsIn? (n low high : Nat) (t : Text) : Option (Nat × Text) :=
  let digits := t.take n
  let value := Text.digitsValue digits
  if digits.length = n && digits.all Text.isAsciiDigit && low ≤ value && value ≤ high then
    some (value, t.drop n)
  else none

/-! ## §2. Numbers. -/

/-- The text behind the whole part of a numeral: there is no zero in front of another digit. -/
def behindWhole? (t : Text) : Option Text :=
  match (Number.signed t).2 with
  | '0' :: rest => some rest
  | t => behindDigits? Text.isAsciiDigit t

/-- The text behind the fraction of a numeral, if it has one. -/
def behindFraction (t : Text) : Text :=
  match t with
  | '.' :: rest => (behindDigits? Text.isAsciiDigit rest).getD t
  | _ => t

/-- The text behind the exponent of a numeral, if it has one. -/
def behindExponent (t : Text) : Text :=
  match t with
  | c :: rest =>
      if c = 'e' ∨ c = 'E' then (behindDigits? Text.isAsciiDigit (Number.signed rest).2).getD t
      else t
  | [] => []

/-- The value of a digit of a base up to sixteen. -/
def digitIn? (base : Nat) (c : CodePoint) : Option Nat :=
  let n :=
    if Text.isAsciiDigit c then c.toNat - 48
    else if 'a' ≤ c ∧ c ≤ 'f' then c.toNat - 87
    else if 'A' ≤ c ∧ c ≤ 'F' then c.toNat - 55
    else base
  if n < base then some n else none

/-- The base that the letter behind a zero stands for. -/
def baseOf? (c : CodePoint) : Option Nat :=
  if c = 'x' then some 16 else if c = 'o' then some 8 else if c = 'b' then some 2 else none

/-- A whole number in another base than ten, and the rest. -/
def basedNumeral? : Text → Option (Nat × Text)
  | '0' :: letter :: digits => do
      let base ← baseOf? letter
      let rest ← behindDigits? (fun c => (digitIn? base c).isSome) digits
      let values := (before digits rest).filterMap (digitIn? base)
      return (values.foldl (fun n d => base * n + d) 0, rest)
  | _ => none

/-- A result, or else the failure of a text that is no settings document. -/
def orMalformed {α : Type} : Option α → Except Fault α
  | some a => .ok a
  | none => .error .malformedSettings

/-- The value of a numeral in base ten, which is whole or not. -/
def numeralValue (isWhole : Bool) (t : Text) : Except Fault Json :=
  if isWhole then
    match Number.readInt t with
    | .ok n => .ok (.int n)
    | .error .malformed => .error .malformedSettings
    | .error (.tooLong n) => .error (.badValue (Number.tooLongMessage n))
  else orMalformed ((Number.readReal? t).map .real)

/-- The names of the numbers that have no digits. -/
def numberNames : List Text := ["inf", "nan", "-inf", "+inf", "-nan", "+nan"]

/-- A number in front, and the rest. -/
def number? (t : Text) : Option (Except Fault Json × Text) :=
  match basedNumeral? t, behindWhole? t with
  | some (n, rest), _ => some (.ok (.int n), rest)
  | none, some wholeRest =>
      let rest := behindExponent (behindFraction wholeRest)
      some (numeralValue (rest.length == wholeRest.length) (before t rest), rest)
  | none, none =>
      numberNames.findSome? (fun name => (Text.dropHead? t name).map (fun rest =>
        (numeralValue false name, rest)))

/-! ## §3. Moments. -/

/-- The fraction of a second in front, if there is one, as it is shown, and the rest; of its digits
six count, and a fraction of zero is not shown. -/
def fraction (t : Text) : Text × Text :=
  match t with
  | '.' :: more =>
      let digits := more.takeWhile Text.isAsciiDigit
      let six := (digits ++ "000000").take 6
      if digits.isEmpty then ([], t)
      else
        (if six.all (· = .char '0') then [] else .char '.' :: six,
          more.dropWhile Text.isAsciiDigit)
  | _ => ([], t)

/-- A time of day in front, as it is shown, and the rest. -/
def time? (t : Text) : Option (Text × Text) := do
  let (hour, rest) ← digitsIn? 2 0 23 t
  let (minute, rest) ← digitsIn? 2 0 59 (← Text.dropHead? rest ":")
  let (second, rest) ← digitsIn? 2 0 59 (← Text.dropHead? rest ":")
  let (part, rest) := fraction rest
  return (Text.twoDigits hour ++ ":" ++ Text.twoDigits minute ++ ":" ++ Text.twoDigits second
    ++ part, rest)

/-- An offset with a sign in front, as it is shown, and the rest. -/
def signedOffset? : Text → Option (Text × Text)
  | sign :: rest => do
      let (hours, rest) ← digitsIn? 2 0 23 rest
      let (minutes, rest) ← digitsIn? 2 0 59 (← Text.dropHead? rest ":")
      let sign := if hours = 0 ∧ minutes = 0 then .char '+' else sign
      return (sign :: Text.twoDigits hours ++ ":" ++ Text.twoDigits minutes, rest)
  | [] => none

/-- The offset of a time in front, if there is one, as it is shown, and the rest. -/
def offset (t : Text) : Text × Text :=
  match t with
  | 'Z' :: rest | 'z' :: rest => ("+00:00", rest)
  | '+' :: _ | '-' :: _ => (signedOffset? t).getD ([], t)
  | _ => ([], t)

/-- Year, month and day in front, and the rest; the day need not exist. -/
def day? (t : Text) : Option ((Nat × Nat × Nat) × Text) := do
  let (year, rest) ← digitsIn? 4 0 9999 t
  let (month, rest) ← digitsIn? 2 1 12 (← Text.dropHead? rest "-")
  let (day, rest) ← digitsIn? 2 1 31 (← Text.dropHead? rest "-")
  return ((year, month, day), rest)

/-- The time behind a day, if there is one, as it is shown behind it, and the rest. -/
def timeBehind (t : Text) : Text × Text :=
  match t with
  | c :: rest =>
      if c = 'T' ∨ c = 't' ∨ c = ' ' then
        match time? rest with
        | some (shown, rest) =>
            let (shift, rest) := offset rest
            (.char ' ' :: shown ++ shift, rest)
        | none => ([], t)
      else ([], t)
  | [] => ([], t)

/-- A moment in front, as the text that shows it, and the rest. -/
def moment? (t : Text) : Option (Except Fault Json × Text) :=
  match day? t with
  | some ((year, month, day), rest) =>
      let (time, rest) := timeBehind rest
      let shown := (Date.of? year month day).map (fun d => Json.text (d.iso ++ time))
      some (orMalformed shown, rest)
  | none => (time? t).map (fun (shown, rest) => (.ok (.text shown), rest))

/-! ## §4. Any of them. -/

/-- A truth value in front, and the rest. -/
def flag? (t : Text) : Option (Except Fault Json × Text) :=
  ((Text.dropHead? t "true").map (fun rest => (.ok (.bool true), rest))).or
    ((Text.dropHead? t "false").map (fun rest => (.ok (.bool false), rest)))

/-- A truth value, a moment or a number in front, and the rest. -/
def scalar? (t : Text) : Option (Except Fault Json × Text) :=
  ((flag? t).or (moment? t)).or (number? t)

end EncodedQuery.Settings

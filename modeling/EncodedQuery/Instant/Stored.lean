/-
  EncodedQuery.Instant.Stored
  ───────────────────────────
  **READING TIME STAMPS.**

  The inverse of `Stamp.iso`, and more: the forms of ISO 8601 for a day, by
  month and day or by week and weekday, with marks between the numbers or
  without, then any one character, a time of day, and perhaps how far the clock
  was ahead of UTC.

  The day ends where its first characters say that it does.  A time may stop
  after any of its numbers and may carry a fraction behind any of them.  What
  stands between a time and the offset behind it does not count, where the time
  is complete without it.
-/
import EncodedQuery.Fault
import EncodedQuery.Instant.Stamp
import EncodedQuery.Number.Shortest
import EncodedQuery.Text.Digit

namespace EncodedQuery.Stamp

/-! ## §1. Numbers of fixed width. -/

/-- The number in exactly `width` digits in front, and the rest. -/
def fixedDigits? (width : Nat) (t : Text) : Option (Nat × Text) :=
  let ds := t.take width
  if ds.length = width ∧ ds.all Text.isAsciiDigit then
    some (Text.digitsValue ds, t.drop width)
  else none

/-- The text behind a mark, where there are marks; otherwise the text itself. -/
def skipMark? (marked : Bool) (mark t : Text) : Option Text :=
  if marked then Text.dropHead? t mark else some t

/-! ## §2. Days. -/

/-- The length of the day in front. -/
def dayLength (t : Text) : Nat :=
  let isDigitAt (i : Nat) : Bool := (t[i]?).any Text.isAsciiDigit
  if t.length = 7 then 7
  else if t[4]? = some (.char '-') then
    if t[5]? = some (.char 'W') then
      -- a week, or a week and a day: a mark behind the week belongs to two digits of a time
      if t[8]? = some (.char '-') ∧ !isDigitAt 10 then 10 else 8
    else 10
  else if t[4]? = some (.char 'W') then
    -- the numbers of a time have two digits each
    let stop := 7 + ((t.drop 7).takeWhile Text.isAsciiDigit).length
    if stop < 9 then stop else if stop % 2 = 0 then 7 else 8
  else 8

/-- A year has 53 weeks when it begins with a Thursday, or is a leap year and begins with a
Wednesday. -/
def weeksOfYear (first : Date) : Nat :=
  if first.sinceSunday = 4 ∨ (first.sinceSunday = 3 ∧ isLeapYear first.year) then 53 else 52

/-- The numbers of a day of a week; the first week is the one with the first Thursday.  The last
week may end in the year behind the calendar, and a year before it has no months. -/
def dayOfWeek? (year week day : Nat) : Option (Nat × Nat × Nat) :=
  let first? := Date.of? year 1 1
  if week = 0 ∨ (first?.map weeksOfYear).getD 52 < week ∨ day = 0 ∨ 7 < day then none
  else match first? with
    | none => some (1, 0, day)
    | some first =>
        -- days since the Monday on or before the first day
        let sinceMonday := (first.sinceSunday + 6) % 7
        let skipped : Nat := if 3 < sinceMonday then 7 else 0
        match first.plusDays? (7 * (week - 1) + (day - 1) + skipped - sinceMonday : Int) with
        | some d => some (d.year, d.month, d.day)
        | none => some (10000, 1, day)

/-- The numbers of a day, which is the whole text. -/
def day? (t : Text) : Option (Nat × Nat × Nat) := do
  let (y, rest) ← fixedDigits? 4 t
  let marked : Bool := rest.head? = some (.char '-')
  let rest ← skipMark? marked "-" rest
  match rest with
  | .char 'W' :: rest => do
      let (w, rest) ← fixedDigits? 2 rest
      if rest = [] then dayOfWeek? y w 1
      else
        let (d, rest) ← fixedDigits? 1 (← skipMark? marked "-" rest)
        if rest = [] then dayOfWeek? y w d else none
  | rest => do
      let (m, rest) ← fixedDigits? 2 rest
      let (d, rest) ← fixedDigits? 2 (← skipMark? marked "-" rest)
      if rest = [] then some (y, m, d) else none

/-! ## §3. Times. -/

/-- A fraction of a second as microseconds, and the text behind its digits: six of them count. -/
def fraction? (t : Text) : Option (Nat × Text) := do
  let width := min 6 t.length
  let (n, rest) ← fixedDigits? width t
  return (n * Number.tenTo (6 - width), rest.dropWhile Text.isAsciiDigit)

/-- At most so many numbers of two digits, the microseconds behind them, and the rest; the last
character of a text is no part of a time unless it is the last digit of one. -/
def clockNumbers? (marked : Bool) : Nat → Text → Option (List Nat × Nat × Text)
  | 0, t => do
      let (micro, rest) ← fraction? t
      return ([], micro, rest)
  | n + 1, t => do
      let (x, rest) ← fixedDigits? 2 t
      match rest with
      | [] | [_] => return ([x], 0, rest)
      | c :: after =>
          if c = '.' ∨ c = ',' then
            let (micro, rest) ← fraction? after
            return ([x], micro, rest)
          else
            let after ← skipMark? marked ":" rest
            let (xs, micro, rest) ← clockNumbers? marked n after
            return (x :: xs, micro, rest)

/-- The numbers of a time of day, with colons between them or without, and the rest. -/
def clock? (t : Text) : Option ((Nat × Nat × Nat × Nat) × Text) := do
  let (xs, micro, rest) ← clockNumbers? (t[2]? = some (.char ':')) 3 t
  return ((xs.getD 0 0, xs.getD 1 0, xs.getD 2 0, micro), rest)

/-- Nothing follows: a zero ends a text. -/
def isEnd (t : Text) : Bool := t.head?.all (fun c => c.toNat = 0)

/-- A mark that an offset from UTC begins with. -/
def isZoneMark (c : CodePoint) : Bool := c = '+' || c = '-' || c = 'Z'

/-- The microseconds of an offset; where its seconds are nothing, its fraction does not count. -/
def offsetMicros (behind : Bool) (h m s u : Nat) : Int :=
  let seconds := h * 3600 + m * 60 + s
  let micros : Int := if seconds = 0 then 0 else (seconds * 1000000 + u : Nat)
  if behind then -micros else micros

/-- The microseconds of an offset from UTC, if there is one. -/
def zone? : Text → Option (Option Int)
  | [] => some none
  | mark :: t =>
      if mark = 'Z' then if isEnd t then some (some 0) else none
      else do
        let ((h, m, s, u), rest) ← clock? t
        if isEnd rest then some (some (offsetMicros (mark = '-') h m s u)) else none

/-- The numbers of a time of day, and the microseconds of the offset behind it. -/
def time? (t : Text) : Option ((Nat × Nat × Nat × Nat) × Option Int) := do
  let (time, rest) ← clock? (t.takeWhile (fun c => !isZoneMark c))
  let zone ← zone? (t.dropWhile (fun c => !isZoneMark c))
  if zone.isSome || isEnd rest then some (time, zone) else none

/-! ## §4. Stamps. -/

/-- The text with a letter in the place of half of a surrogate pair, where a time may begin behind
it. -/
def withLetter (t : Text) : Text :=
  match ([7, 8, 10] : List Nat).find? (fun i => (t[i]?).any (fun c => !c.isChar)) with
  | some i => t.set i 'T'
  | none => t

/-- The text with every character as often as it has bytes: lengths are counted in bytes. -/
def widened (t : Text) : Text := t.flatMap (fun c => List.replicate c.byteSize c)

/-- The numbers of a stamp. -/
def numbers? (t : Text) : Option ((Nat × Nat × Nat) × (Nat × Nat × Nat × Nat) × Option Int) :=
  if t.length < 7 ∨ !(withLetter t).isEncodable then none
  else
    let t := widened (withLetter t)
    match t.drop (dayLength t) with
    | [] => (day? (t.take (dayLength t))).map (fun day => (day, (0, 0, 0, 0), none))
    | c :: rest => do
        let day ← day? (t.take (dayLength t))
        let (time, zone) ← time? ((c :: rest).drop c.byteSize)
        return (day, time, zone)

/-- The instant with the given numbers; the first number out of its range is reported. -/
def instantOf (day : Nat × Nat × Nat) (time : Nat × Nat × Nat × Nat) : Except Fault Instant :=
  let (y, m, d) := day
  let (h, mi, s, u) := time
  if y = 0 ∨ 9999 < y then .error (.badValue ("year " ++ Text.ofNat y ++ " is out of range"))
  else if m = 0 ∨ 12 < m then .error (.badValue "month must be in 1..12")
  else match Date.of? y m d with
    | none => .error (.badValue "day is out of range for month")
    | some date =>
        if 24 ≤ h then .error (.badValue "hour must be in 0..23")
        else if 60 ≤ mi then .error (.badValue "minute must be in 0..59")
        else match Instant.of? date h mi s u with
          | some t => .ok t
          | none => .error (.badValue "second must be in 0..59")

/-- A length of time in days, seconds and microseconds, as a message names it; what is nothing is
left out. -/
def shownLength (micros : Int) : Text :=
  let part (name : Text) (n : Int) : List Text :=
    if n = 0 then [] else [name ++ "=" ++ Text.ofInt n]
  let parts := part "days" (micros / 86400000000) ++ part "seconds" (micros % 86400000000 / 1000000)
    ++ part "microseconds" (micros % 1000000)
  "datetime.timedelta(" ++ Text.join ", " parts ++ ")"

/-- The offset of so many microseconds. -/
def offsetOf (micros : Int) : Except Fault Offset :=
  if h : IsOffset micros then .ok ⟨micros, h⟩
  else .error (.badValue ("offset must be a timedelta strictly between -timedelta(hours=24) and "
    ++ "timedelta(hours=24), not " ++ shownLength micros ++ "."))

/-- The stamp that a stored text writes. -/
def read (t : Text) : Except Fault Stamp :=
  match numbers? t with
  | none => .error (.badValue ("Invalid isoformat string: " ++ Text.quoted t))
  | some (day, time, zone) => do
      let offset ← zone.mapM offsetOf
      let clock ← instantOf day time
      return { clock, offset }

end EncodedQuery.Stamp

/-
  EncodedQuery.Instant.Basic
  ──────────────────────────
  **INSTANTS.**

  A day and a time of that day, to the microsecond, without a zone.  The text
  of an instant that the backend expects is `shown`; it drops the microseconds
  and does not pad the year.
-/
import EncodedQuery.Date

namespace EncodedQuery

/-! ## §1. Times of a day. -/

/-- The time of day exists. -/
def IsTime (hour minute second micro : Nat) : Prop :=
  hour < 24 ∧ minute < 60 ∧ second < 60 ∧ micro < 1000000

instance (h m s u : Nat) : Decidable (IsTime h m s u) := by unfold IsTime; infer_instance

/-- A day and a time of that day. -/
structure Instant where
  /-- The day. -/
  date : Date
  /-- The hour, below 24. -/
  hour : Nat := 0
  /-- The minute, below 60. -/
  minute : Nat := 0
  /-- The second, below 60. -/
  second : Nat := 0
  /-- The microsecond, below a million. -/
  micro : Nat := 0
  /-- The time exists. -/
  isTime : IsTime hour minute second micro := by decide
  deriving DecidableEq, Repr

namespace Instant

/-- The instant with this time, if the time exists. -/
def of? (date : Date) (h m s u : Nat) : Option Instant :=
  if ok : IsTime h m s u then some ⟨date, h, m, s, u, ok⟩ else none

/-! ## §2. Order. -/

/-- Microseconds since the start of the day. -/
def timeRank (t : Instant) : Nat := ((t.hour * 60 + t.minute) * 60 + t.second) * 1000000 + t.micro

/-- The rank of an instant: it grows with the day, then the time. -/
def rank (t : Instant) : Nat := t.date.rank * 86400000000 + t.timeRank

instance : LT Instant := ⟨fun a b => a.rank < b.rank⟩
instance : LE Instant := ⟨fun a b => a.rank ≤ b.rank⟩
instance (a b : Instant) : Decidable (a < b) := inferInstanceAs (Decidable (a.rank < b.rank))
instance (a b : Instant) : Decidable (a ≤ b) := inferInstanceAs (Decidable (a.rank ≤ b.rank))

/-- Both instants lie on one day. -/
def sameDay (a b : Instant) : Bool := a.date = b.date

/-! ## §3. Moving. -/

/-- The first instant of a day. -/
def startOf (d : Date) : Instant := { date := d }

/-- The first instant of the day. -/
def startOfDay (t : Instant) : Instant := startOf t.date

/-- The last whole second of the day. -/
def endOfDay (t : Instant) : Instant :=
  { date := t.date, hour := 23, minute := 59, second := 59 }

/-- The same time `n` days later. -/
def plusDays? (t : Instant) (n : Int) : Option Instant :=
  (t.date.plusDays? n).map (fun d => { t with date := d })

/-- The start of the Sunday on or before the instant. -/
def startOfWeek? (t : Instant) : Option Instant :=
  (t.plusDays? (-(t.date.sinceSunday : Int))).map startOfDay

/-- One second later. -/
def nextSecond? (t : Instant) : Option Instant :=
  (of? t.date t.hour t.minute (t.second + 1) t.micro).or
    ((of? t.date t.hour (t.minute + 1) 0 t.micro).or
      ((of? t.date (t.hour + 1) 0 0 t.micro).or
        (t.date.next?.bind (fun d => of? d 0 0 0 t.micro))))

/-- Whole seconds since the start of 1970.  An instant carries no time zone, and clocks are taken to
show UTC: where they are put forward or back, the hour that they skip or repeat counts otherwise. -/
def epochSeconds (t : Instant) : Int :=
  ((t.date.ordinal : Int) - 719163) * 86400 + (t.hour * 3600 + t.minute * 60 + t.second : Nat)

/-- The instant so many whole seconds after the start of 1970. -/
def ofEpochSeconds? (n : Int) : Option Instant := do
  let date ← (← Date.of? 1970 1 1).plusDays? (n / 86400)
  let s := (n % 86400).toNat
  of? date (s / 3600) (s / 60 % 60) (s % 60) 0

/-- Microseconds since the start of 1970. -/
def epochMicros (t : Instant) : Int := t.epochSeconds * 1000000 + t.micro

/-! ## §4. Text. -/

/-- Hours, minutes and seconds. -/
def clockTime (t : Instant) : Text :=
  Text.twoDigits t.hour ++ ":" ++ Text.twoDigits t.minute ++ ":" ++ Text.twoDigits t.second

/-- The text that the backend expects. -/
def shown (t : Instant) : Text := t.date.shown ++ " " ++ t.clockTime

/-- So many microseconds as a fraction of a second, when there are any. -/
def fractionOf (micro : Nat) : Text :=
  if micro = 0 then [] else "." ++ Text.zeroPadded 6 (Text.ofNat micro)

/-- The text in which instants are stored. -/
def iso (t : Instant) : Text := t.date.iso ++ "T" ++ t.clockTime ++ fractionOf t.micro

end Instant

end EncodedQuery

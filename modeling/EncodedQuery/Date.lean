/-
  EncodedQuery.Date
  ─────────────────
  **CALENDAR DAYS.**

  Days of the Gregorian calendar from year 1 to year 9999.  A `Date` carries
  the proof that it exists, so every function below answers with a real day
  or with `none`.

  `next?` and `prev?` are the neighbouring days, `plusDays?` repeats them,
  and `ordinal` numbers the days from 1 January of year 1; day 7 is the first
  Sunday.
-/
import EncodedQuery.Text.Basic

namespace EncodedQuery

/-! ## §1. Days that exist. -/

/-- A year with 29 February. -/
def isLeapYear (y : Nat) : Bool := y % 4 == 0 && (y % 100 != 0 || y % 400 == 0)

/-- The number of days of month `m` in year `y`. -/
def monthLength (y m : Nat) : Nat :=
  if m = 2 then (if isLeapYear y then 29 else 28)
  else if m = 4 ∨ m = 6 ∨ m = 9 ∨ m = 11 then 30
  else 31

/-- Day `d` of month `m` in year `y` exists and lies in the range of the calendar. -/
def IsDay (y m d : Nat) : Prop :=
  (1 ≤ y ∧ y ≤ 9999) ∧ (1 ≤ m ∧ m ≤ 12) ∧ (1 ≤ d ∧ d ≤ monthLength y m)

instance (y m d : Nat) : Decidable (IsDay y m d) := by unfold IsDay; infer_instance

/-- A day of the calendar. -/
structure Date where
  /-- The year, from 1 to 9999. -/
  year : Nat
  /-- The month, from 1 to 12. -/
  month : Nat
  /-- The day of the month, from 1. -/
  day : Nat
  /-- The day exists. -/
  isDay : IsDay year month day
  deriving DecidableEq, Repr

namespace Date

/-- The day with these numbers, if it exists. -/
def of? (y m d : Nat) : Option Date := if h : IsDay y m d then some ⟨y, m, d, h⟩ else none

/-! ## §2. Order. -/

/-- The rank of a day: it grows with the year, then the month, then the day. -/
def rank (d : Date) : Nat := (d.year * 12 + d.month) * 32 + d.day

instance : LT Date := ⟨fun a b => a.rank < b.rank⟩
instance : LE Date := ⟨fun a b => a.rank ≤ b.rank⟩
instance (a b : Date) : Decidable (a < b) := inferInstanceAs (Decidable (a.rank < b.rank))
instance (a b : Date) : Decidable (a ≤ b) := inferInstanceAs (Decidable (a.rank ≤ b.rank))

/-! ## §3. Neighbouring days. -/

/-- The day after: the next of the month, or else the first of the next month. -/
def next? (d : Date) : Option Date :=
  (of? d.year d.month (d.day + 1)).or
    ((of? d.year (d.month + 1) 1).or (of? (d.year + 1) 1 1))

/-- The day before: the previous of the month, or else the last of the month before. -/
def prev? (d : Date) : Option Date :=
  (of? d.year d.month (d.day - 1)).or
    ((of? d.year (d.month - 1) (monthLength d.year (d.month - 1))).or (of? (d.year - 1) 12 31))

/-- `n` days later. -/
def later? : Nat → Date → Option Date
  | 0, d => some d
  | n + 1, d => (later? n d).bind next?

/-- `n` days earlier. -/
def earlier? : Nat → Date → Option Date
  | 0, d => some d
  | n + 1, d => (earlier? n d).bind prev?

/-- `n` days later, or earlier when `n` is negative. -/
def plusDays? (d : Date) : Int → Option Date
  | .ofNat n => d.later? n
  | .negSucc n => d.earlier? (n + 1)

/-! ## §4. Counting days. -/

/-- The days of all years before `y`. -/
def daysBeforeYear (y : Nat) : Nat := 365 * (y - 1) + (y - 1) / 4 - (y - 1) / 100 + (y - 1) / 400

/-- The days of year `y` before month `m`. -/
def daysBeforeMonth (y : Nat) : Nat → Nat
  | 0 => 0
  | 1 => 0
  | m + 2 => daysBeforeMonth y (m + 1) + monthLength y (m + 1)

/-- The number of a day, counted from 1 January of year 1. -/
def ordinal (d : Date) : Nat := daysBeforeYear d.year + daysBeforeMonth d.year d.month + d.day

/-- Days since the last Sunday; zero on Sundays. -/
def sinceSunday (d : Date) : Nat := d.ordinal % 7

/-! ## §5. Text. -/

/-- Year, month and day with the year in its plain digits. -/
def shown (d : Date) : Text :=
  Text.ofNat d.year ++ "-" ++ Text.twoDigits d.month ++ "-" ++ Text.twoDigits d.day

/-- Year, month and day with the year in four digits. -/
def iso (d : Date) : Text :=
  Text.zeroPadded 4 (Text.ofNat d.year) ++ "-" ++ Text.twoDigits d.month ++ "-"
    ++ Text.twoDigits d.day

/-- The name of month `m`. -/
def monthName (m : Nat) : Text :=
  (["January", "February", "March", "April", "May", "June", "July", "August", "September",
    "October", "November", "December"] : List Text).getD (m - 1) []

end Date

end EncodedQuery

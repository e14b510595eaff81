/-
  EncodedQuery.Month
  ──────────────────
  **MONTHS.**

  `Date.plusMonths` shifts a day by whole months and keeps it in the month it
  arrives at: a day that this month does not have becomes its last day.

  `Date.monthGrid` is the page of a wall calendar: whole weeks from Sunday to
  Saturday that cover a month.
-/
import EncodedQuery.Fault
import EncodedQuery.Instant.Basic

namespace EncodedQuery

/-- The failure of a year outside the calendar. -/
def yearFault (y : Int) : Fault :=
  if y < -2147483648 ∨ 2147483647 < y then .overflow
  else .badValue ("year " ++ Text.ofInt y ++ " is out of range")

namespace Date

/-! ## §1. Shifting. -/

/-- The number of a month, counted from year zero. -/
def monthIndex (d : Date) : Int := (d.year * 12 + (d.month - 1) : Nat)

/-- The day `n` months later, or the last day of that month when it is shorter. -/
def plusMonths (d : Date) (n : Int) : Except Fault Date :=
  let i := d.monthIndex + n
  let y := i / 12
  let m := (i % 12).toNat + 1
  if y < 0 then .error (yearFault y)
  else match of? y.toNat m (min d.day (monthLength y.toNat m)) with
    | some d' => .ok d'
    | none => .error (yearFault y)

/-- The day `n` years later, or the last day of its month when that is shorter. -/
def plusYears (d : Date) (n : Int) : Except Fault Date := d.plusMonths (12 * n)

/-- The day `n` days later, or a failure at the ends of the calendar. -/
def plusDays (d : Date) (n : Int) : Except Fault Date :=
  match d.plusDays? n with
  | some d' => .ok d'
  | none => .error .overflow

/-- The first day of the month. -/
def firstOfMonth (d : Date) : Date :=
  match of? d.year d.month 1 with
  | some d' => d'
  | none => d

/-! ## §2. The page of a month. -/

/-- `n` days in a row, from `d` on. -/
def run? : Nat → Date → Option (List Date)
  | 0, _ => some []
  | 1, d => some [d]
  | n + 2, d => do
      let d' ← d.next?
      return d :: (← run? (n + 1) d')

/-- The number of days that the page of a month shows before its first day. -/
def leadingDays (d : Date) : Nat := d.firstOfMonth.sinceSunday

/-- The number of weeks on the page of a month. -/
def gridWeeks (d : Date) : Nat := (d.leadingDays + monthLength d.year d.month + 6) / 7

/-- The weeks that cover the month of `d`; at the ends of the calendar they do not exist. -/
def monthGrid (d : Date) : Except Fault (List (List Date)) :=
  match d.firstOfMonth.earlier? d.leadingDays with
  | none => .error (yearFault 0)
  | some start =>
      match run? (7 * d.gridWeeks) start with
      | none => .error (yearFault 10000)
      | some days =>
          .ok ((List.range d.gridWeeks).map (fun i => (days.drop (7 * i)).take 7))

end Date

namespace Instant

/-- The instant `n` days later, or a failure at the ends of the calendar. -/
def plusDays (t : Instant) (n : Int) : Except Fault Instant :=
  match t.plusDays? n with
  | some t' => .ok t'
  | none => .error .overflow

/-- The start of the Sunday on or before the instant, or a failure at the start of the
calendar. -/
def startOfWeek (t : Instant) : Except Fault Instant :=
  match t.startOfWeek? with
  | some t' => .ok t'
  | none => .error .overflow

end Instant

end EncodedQuery

/-
  EncodedQuery.Picker.Preset
  ──────────────────────────
  **RANGES WITH A NAME.**

  The ranges that people ask for most, relative to the current instant.  They
  start with a day and end with the last second of a day; weeks begin on
  Sunday.
-/
import EncodedQuery.Month

namespace EncodedQuery

/-- A range with a name. -/
structure Preset where
  /-- The name. -/
  name : Text
  /-- The first instant. -/
  start : Instant
  /-- The last second. -/
  stop : Instant
  deriving DecidableEq, Repr

/-- The first day of the year. -/
def Date.firstOfYear (d : Date) : Date :=
  match Date.of? d.year 1 1 with
  | some d' => d'
  | none => d

/-- The ranges relative to `now`; near the start of the calendar some do not exist. -/
def Preset.all (now : Instant) : Except Fault (List Preset) := do
  let today := now.startOfDay
  let tonight := now.endOfDay
  let yesterday ← today.plusDays (-1)
  let thisMonth := Instant.startOf now.date.firstOfMonth
  let lastMonth := Instant.startOf (← thisMonth.date.plusMonths (-1))
  let endOfLastMonth ← thisMonth.plusDays (-1)
  let weekAgo ← today.plusDays (-7)
  let monthAgo ← today.plusDays (-30)
  let thisWeek ← now.startOfWeek
  return [
    ⟨"Today", today, tonight⟩,
    ⟨"Yesterday", yesterday, yesterday.endOfDay⟩,
    ⟨"Last 7 days", weekAgo, tonight⟩,
    ⟨"Last 30 days", monthAgo, tonight⟩,
    ⟨"This week", thisWeek, tonight⟩,
    ⟨"This month", thisMonth, tonight⟩,
    ⟨"Last month", lastMonth, endOfLastMonth.endOfDay⟩,
    ⟨"This year", Instant.startOf now.date.firstOfYear, tonight⟩]

end EncodedQuery

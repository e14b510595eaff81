/-
  EncodedQuery.Proofs.Date.Order
  ──────────────────────────────
  **THE ORDER OF DAYS.**

  A day comes before another one when its month does, or in the same month by
  its number.  Counted from the first day of all, it has the smaller number.

  Main results:
    • `le_iff` — by month and day,
    • `le_iff_ordinal_le` — by the number of the day.
-/
import EncodedQuery.Proofs.Date.Ordinal

namespace EncodedQuery

namespace Date

/-! ## §1. By month and day. -/

/-- Days of different months are told apart by their months, days of one month by their days. -/
theorem le_iff (a b : Date) :
    a ≤ b ↔ a.monthIndex < b.monthIndex ∨ (a.monthIndex = b.monthIndex ∧ a.day ≤ b.day) := by
  obtain ⟨_, hma, hda, _⟩ := a.isDay
  obtain ⟨_, hmb, hdb, _⟩ := b.isDay
  have hla := a.day_le
  have hlb := b.day_le
  -- years are weighed with twelve months, and months with more days than there are
  show (a.year * 12 + a.month) * 32 + a.day ≤ (b.year * 12 + b.month) * 32 + b.day ↔ _
  unfold monthIndex
  omega

/-! ## §2. By number. -/

/-- The first day of a later month has a number beyond the whole month before. -/
theorem ordinal_lt_of_monthIndex_lt {a b : Date} (h : a.monthIndex < b.monthIndex) :
    a.ordinal < b.ordinal := by
  obtain ⟨hay, ham, had⟩ := a.isDay
  obtain ⟨hby, hbm, hbd⟩ := b.isDay
  unfold monthIndex at h
  unfold ordinal
  rcases Nat.lt_or_ge a.year b.year with hyear | hyear
  · -- the year of `a` ends before that of `b` begins
    have hend := daysBeforeMonth_add_le a.year ham had.2
    have hsucc := daysBeforeYear_succ hay.1
    have hle := daysBeforeYear_le (show 1 ≤ a.year + 1 by omega)
      (show a.year + 1 ≤ b.year from hyear)
    omega
  · have hsame : a.year = b.year := by omega
    have hsucc := daysBeforeMonth_succ a.year ham.1
    have hle := daysBeforeMonth_le a.year (show a.month + 1 ≤ b.month by omega)
    rw [← hsame]
    omega

/-- **The order of days is that of their numbers.** -/
theorem le_iff_ordinal_le (a b : Date) : a ≤ b ↔ a.ordinal ≤ b.ordinal := by
  rw [le_iff]
  rcases Int.lt_trichotomy a.monthIndex b.monthIndex with h | h | h
  · have hlt := ordinal_lt_of_monthIndex_lt h
    exact iff_of_true (.inl h) (Nat.le_of_lt hlt)
  · -- within a month the numbers go along with the days
    have hmonth : a.year = b.year ∧ a.month = b.month := by
      have ha := a.isDay.2.1
      have hb := b.isDay.2.1
      unfold monthIndex at h
      omega
    unfold ordinal
    rw [hmonth.1, hmonth.2]
    omega
  · have hlt := ordinal_lt_of_monthIndex_lt h
    refine iff_of_false ?_ (Nat.not_le.mpr hlt)
    omega

/-- A day that is found a number of days away has the number that is wanted. -/
theorem ordinal_of_plusDays? {d d' : Date} {n : Int} (h : d.plusDays? n = some d') :
    (d'.ordinal : Int) = d.ordinal + n := by
  cases n with
  | ofNat n =>
      have hspec := d.later?_spec n
      rw [show d.later? n = some d' from h] at hspec
      replace hspec : d'.ordinal = d.ordinal + n := hspec
      rw [hspec]
      rfl
  | negSucc n =>
      have hspec := d.earlier?_spec (n + 1)
      rw [show d.earlier? (n + 1) = some d' from h] at hspec
      replace hspec : d'.ordinal + (n + 1) = d.ordinal := hspec
      omega

end Date

end EncodedQuery

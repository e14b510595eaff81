/-
  EncodedQuery.Proofs.Date.Page
  ─────────────────────────────
  **PAGES AT THE ENDS OF THE CALENDAR.**

  The page of a month shows whole weeks, so it reaches up to six days beyond its
  month on either side.  The first month of the calendar begins on a Monday and
  the last one ends on a Friday: the pages of these two months would show days
  that do not exist, and every other page exists.

  Main result: `fails_monthGrid_iff`.
-/
import EncodedQuery.Proofs.Date.Ordinal

namespace EncodedQuery.Date

/-! ## §1. The first and the last month. -/

/-- The day lies in January of year 1. -/
def InFirstMonth (d : Date) : Prop := d.year = 1 ∧ d.month = 1

/-- The day lies in December of year 9999. -/
def InLastMonth (d : Date) : Prop := d.year = 9999 ∧ d.month = 12

theorem firstOfMonth_eq (d : Date) :
    d.firstOfMonth.year = d.year ∧ d.firstOfMonth.month = d.month ∧ d.firstOfMonth.day = 1 := by
  obtain ⟨hy, hm, hd⟩ := d.isDay
  have hlen := monthLength_pos d.year d.month
  unfold firstOfMonth
  split
  next d' h => exact (of?_eq_some_iff.mp h).2
  next h => exact absurd ⟨hy, hm, by omega, by omega⟩ (of?_eq_none_iff.mp h)

theorem ordinal_firstOfMonth (d : Date) :
    d.firstOfMonth.ordinal = daysBeforeYear d.year + daysBeforeMonth d.year d.month + 1 := by
  obtain ⟨hy, hm, hd⟩ := d.firstOfMonth_eq
  rw [ordinal, hy, hm, hd]

/-- The days of January of year 1 are the first ones. -/
theorem inFirstMonth_iff (d : Date) : d.InFirstMonth ↔ d.ordinal ≤ 31 := by
  obtain ⟨hy, hm, hd⟩ := d.isDay
  constructor
  · rintro ⟨hyear, hmonth⟩
    have hlen : d.day ≤ 31 := by
      have := hd.2
      rw [hyear, hmonth] at this
      exact this
    rw [ordinal, hyear, hmonth]
    show 0 + 0 + d.day ≤ 31
    omega
  · intro h
    rw [ordinal] at h
    have hyear : d.year = 1 := by
      rcases Nat.lt_or_ge d.year 2 with hlt | hge
      · omega
      · have hle := daysBeforeYear_le (by decide) hge
        have hvalue : daysBeforeYear 2 = 365 := rfl
        omega
    refine ⟨hyear, ?_⟩
    rcases Nat.lt_or_ge d.month 2 with hlt | hge
    · omega
    · have hle := daysBeforeMonth_le d.year hge
      have hvalue : daysBeforeMonth d.year 2 = 31 := by rw [hyear]; rfl
      omega

/-- Every month but the last is followed by a whole month. -/
theorem lastOfMonth_le (d : Date) (h : ¬ d.InLastMonth) :
    d.firstOfMonth.ordinal + monthLength d.year d.month + 27 ≤ lastOrdinal := by
  obtain ⟨hy, hm, _⟩ := d.isDay
  have hvalue : daysBeforeYear 10000 = lastOrdinal := rfl
  rw [ordinal_firstOfMonth]
  rcases Nat.lt_or_ge d.month 12 with hlt | hge
  · -- the next month lies in the same year
    have hsucc := daysBeforeMonth_succ d.year hm.1
    have hnext := daysBeforeMonth_add_le d.year (m := d.month + 1) (by omega)
      (Nat.le_refl (monthLength d.year (d.month + 1)))
    have hlen := monthLength_pos d.year (d.month + 1)
    have hyear := daysBeforeYear_succ hy.1
    have hle := daysBeforeYear_le (show 1 ≤ d.year + 1 by omega) (show d.year + 1 ≤ 10000 by omega)
    omega
  · have hmonth : d.month = 12 := by omega
    have hlt : d.year < 9999 := by
      have : d.year ≠ 9999 := fun hyear => h ⟨hyear, hmonth⟩
      omega
    have htwelve := daysBeforeMonth_twelve d.year
    have hyear := daysBeforeYear_succ hy.1
    have hyear' : daysBeforeYear (d.year + 2) = _ :=
      daysBeforeYear_succ (show 1 ≤ d.year + 1 by omega)
    have hle := daysBeforeYear_le (show 1 ≤ d.year + 2 by omega) (show d.year + 2 ≤ 10000 by omega)
    have hlen : 365 ≤ yearLength (d.year + 1) := by
      unfold yearLength
      split <;> omega
    rw [hmonth]
    omega

/-! ## §2. Days in a row. -/

theorem run?_eq_none_iff : ∀ (n : Nat) (d : Date),
    run? (n + 1) d = none ↔ lastOrdinal < d.ordinal + n
  | 0, d => by
      have hle := d.ordinal_le
      simp only [run?, reduceCtorEq, false_iff]
      omega
  | n + 1, d => by
      have hle := d.ordinal_le
      rw [run?]
      cases hnext : d.next? with
      | none =>
          have hlast := (next?_eq_none_iff d).mp hnext
          refine iff_of_true rfl ?_
          omega
      | some d' =>
          have hsucc := ordinal_of_next? hnext
          have ih := run?_eq_none_iff n d'
          cases hrun : run? (n + 1) d' with
          | none =>
              have := ih.mp hrun
              refine iff_of_true (by simp [hrun]) ?_
              omega
          | some days =>
              have : ¬ lastOrdinal < d'.ordinal + n := by rw [← ih, hrun]; nofun
              refine iff_of_false (by simp [hrun]) ?_
              omega

/-! ## §3. Pages. -/

/-- **Only the pages of the first and of the last month cannot be shown.** -/
theorem fails_monthGrid_iff (d : Date) :
    Fails d.monthGrid ↔ d.InFirstMonth ∨ d.InLastMonth := by
  have hfirst : d.InFirstMonth ↔ d.firstOfMonth.ordinal ≤ d.leadingDays := by
    have hsame : d.InFirstMonth ↔ d.firstOfMonth.InFirstMonth := by
      obtain ⟨hy, hm, _⟩ := d.firstOfMonth_eq
      rw [InFirstMonth, InFirstMonth, hy, hm]
    rw [hsame, inFirstMonth_iff]
    have hpos := d.firstOfMonth.ordinal_pos
    unfold leadingDays sinceSunday
    constructor
    · intro h
      -- it is the first day of all, a Monday
      have hone : d.firstOfMonth.ordinal = 1 := by
        obtain ⟨hy, hm⟩ := (inFirstMonth_iff _).mpr h
        obtain ⟨hy', hm', _⟩ := d.firstOfMonth_eq
        rw [hy'] at hy
        rw [hm'] at hm
        rw [ordinal_firstOfMonth, hy, hm]
        rfl
      omega
    · omega
  have hlead : d.leadingDays = d.firstOfMonth.ordinal % 7 := rfl
  have hlen := monthLength_pos d.year d.month
  unfold monthGrid
  cases hstart : d.firstOfMonth.earlier? d.leadingDays with
  | none =>
      have := (earlier?_eq_none_iff _ _).mp hstart
      exact iff_of_true (fails_error _) (.inl (hfirst.mpr this))
  | some start =>
      have hspec := d.firstOfMonth.earlier?_spec d.leadingDays
      rw [hstart] at hspec
      replace hspec : start.ordinal + d.leadingDays = d.firstOfMonth.ordinal := hspec
      have hnot : ¬ d.InFirstMonth := by
        have hpos := start.ordinal_pos
        rw [hfirst]
        omega
      have hweeks : d.gridWeeks = (d.leadingDays + monthLength d.year d.month + 6) / 7 := rfl
      have hcount : 7 * d.gridWeeks = (7 * d.gridWeeks - 1) + 1 := by omega
      have hrun : run? (7 * d.gridWeeks) start = none ↔ d.InLastMonth := by
        rw [hcount, run?_eq_none_iff]
        constructor
        · intro h
          by_cases hlast : d.InLastMonth
          · exact hlast
          · have := d.lastOfMonth_le hlast
            omega
        · rintro ⟨hy, hm⟩
          -- the last month begins on a Wednesday and takes five weeks
          have hvalue : d.firstOfMonth.ordinal = 3652029 := by
            rw [ordinal_firstOfMonth, hy, hm]
            rfl
          have hlength : monthLength d.year d.month = 31 := by rw [hy, hm]; rfl
          have hmax : lastOrdinal = 3652059 := rfl
          omega
      rw [← hrun]
      simp only [hnot, false_or]
      cases run? (7 * d.gridWeeks) start <;> simp

end EncodedQuery.Date

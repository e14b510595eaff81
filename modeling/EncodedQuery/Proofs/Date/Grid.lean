/-
  EncodedQuery.Proofs.Date.Grid
  ─────────────────────────────
  **WHAT THE PAGE OF A MONTH SHOWS.**

  The page of a month begins on the Sunday on or before its first day and goes on
  day by day for whole weeks, as many as it takes to reach the last one.  Days are
  told apart by their numbers, and those of a month are the ones from that of its
  first day on, as many as the month is long.

  Main results:
    • `sameMonth_iff_ordinal` — the days of a month by their numbers,
    • `isPage_of_monthGrid` — the weeks that are found are the page of the month.
-/
import Mathlib.Data.List.Chain
import Mathlib.Data.List.Nodup
import EncodedQuery.Proofs.Date.Order
import EncodedQuery.Proofs.Date.Page

namespace EncodedQuery.Date

/-! ## §1. Months by numbers. -/

/-- **No two days have the same number.** -/
theorem eq_of_ordinal_eq {a b : Date} (h : a.ordinal = b.ordinal) : a = b := by
  have hab := (le_iff a b).mp ((le_iff_ordinal_le a b).mpr (Nat.le_of_eq h))
  have hba := (le_iff b a).mp ((le_iff_ordinal_le b a).mpr (Nat.le_of_eq h.symm))
  have ha := a.isDay.2.1
  have hb := b.isDay.2.1
  have hnumbers : a.year = b.year ∧ a.month = b.month ∧ a.day = b.day := by
    unfold monthIndex at hab hba
    omega
  obtain ⟨hy, hm, hd⟩ := hnumbers
  cases a
  cases b
  cases hy
  cases hm
  cases hd
  rfl

/-- Both days lie in one month. -/
def SameMonth (d e : Date) : Prop := d.year = e.year ∧ d.month = e.month

instance (d e : Date) : Decidable (d.SameMonth e) := inferInstanceAs (Decidable (_ ∧ _))

theorem SameMonth.refl (d : Date) : d.SameMonth d := ⟨rfl, rfl⟩

/-- The last day of the month. -/
theorem exists_lastOfMonth (d : Date) :
    ∃ e : Date, e.SameMonth d ∧
      e.ordinal + 1 = d.firstOfMonth.ordinal + monthLength d.year d.month := by
  have hlen := monthLength_pos d.year d.month
  have hday : IsDay d.year d.month (monthLength d.year d.month) :=
    ⟨d.isDay.1, d.isDay.2.1, by omega, Nat.le_refl _⟩
  refine ⟨⟨_, _, _, hday⟩, ⟨rfl, rfl⟩, ?_⟩
  rw [ordinal_firstOfMonth]
  show daysBeforeYear d.year + daysBeforeMonth d.year d.month + monthLength d.year d.month + 1 = _
  omega

/-- **A month is a row of numbers**, which begins with that of its first day. -/
theorem sameMonth_iff_ordinal (d e : Date) :
    d.SameMonth e ↔ e.firstOfMonth.ordinal ≤ d.ordinal ∧
      d.ordinal < e.firstOfMonth.ordinal + monthLength e.year e.month := by
  obtain ⟨hfy, hfm, _⟩ := e.firstOfMonth_eq
  constructor
  · intro h
    have hday := d.isDay.2.2
    rw [ordinal_firstOfMonth, ordinal, ← h.1, ← h.2]
    omega
  · intro h
    obtain ⟨l, hl, hlast⟩ := e.exists_lastOfMonth
    have hd := d.isDay.2.1
    have he := e.isDay.2.1
    rcases Int.lt_trichotomy d.monthIndex e.monthIndex with hlt | heq | hgt
    · -- an earlier month has smaller numbers than the first day
      have hfirst : e.firstOfMonth.monthIndex = e.monthIndex := by
        unfold monthIndex
        rw [hfy, hfm]
      have := ordinal_lt_of_monthIndex_lt (hfirst ▸ hlt)
      omega
    · unfold monthIndex at heq
      exact ⟨by omega, by omega⟩
    · -- and a later one greater numbers than the last
      have hmonth : l.monthIndex = e.monthIndex := by
        unfold monthIndex
        rw [hl.1, hl.2]
      have := ordinal_lt_of_monthIndex_lt (hmonth ▸ hgt)
      omega

/-- Every month before has 28 to 31 days. -/
theorem daysBeforeMonth_bounds (y m : Nat) :
    28 * (m - 1) ≤ daysBeforeMonth y m ∧ daysBeforeMonth y m ≤ 31 * (m - 1) := by
  induction m with
  | zero => exact ⟨Nat.le_refl 0, Nat.le_refl 0⟩
  | succ m ih =>
      cases m with
      | zero => exact ⟨Nat.le_refl 0, Nat.le_refl 0⟩
      | succ m =>
          have hpos := monthLength_pos y (m + 1)
          have hle := monthLength_le y (m + 1)
          rw [daysBeforeMonth]
          omega

/-- The same month of another year is far away. -/
theorem ordinal_far {a b : Date} (hmonth : a.month = b.month) (hyear : a.year < b.year) :
    a.ordinal + 200 < b.ordinal := by
  obtain ⟨hay, ham, had⟩ := a.isDay
  have hday := a.day_le
  have hsucc := daysBeforeYear_succ hay.1
  have hle := daysBeforeYear_le (show 1 ≤ a.year + 1 by omega)
    (show a.year + 1 ≤ b.year from hyear)
  have hbefore := daysBeforeMonth_bounds a.year a.month
  have hbefore' := daysBeforeMonth_bounds b.year b.month
  have hlen : 365 ≤ yearLength a.year := by
    unfold yearLength
    split <;> omega
  unfold ordinal
  omega

/-- Near a month there is no other month of the same name. -/
theorem sameMonth_of_near {d e : Date} (hmonth : e.month = d.month)
    (hlow : d.firstOfMonth.ordinal ≤ e.ordinal + 200)
    (hhigh : e.ordinal ≤ d.firstOfMonth.ordinal + 200) : e.SameMonth d := by
  obtain ⟨hyear, hsame, _⟩ := d.firstOfMonth_eq
  rcases Nat.lt_trichotomy e.year d.year with hlt | heq | hgt
  · have hfar := ordinal_far (hmonth.trans hsame.symm) (hlt.trans_eq hyear.symm)
    omega
  · exact ⟨heq, hmonth⟩
  · have hfar := ordinal_far (hsame.trans hmonth.symm) (hyear.trans_lt hgt)
    omega

/-! ## §2. Days in a row. -/

theorem run?_eq_some_iff {n : Nat} {d : Date} {days : List Date} :
    run? (n + 2) d = some days ↔
      ∃ d' rest, d.next? = some d' ∧ run? (n + 1) d' = some rest ∧ days = d :: rest := by
  rw [run?]
  cases d.next? with
  | none => simp
  | some d' =>
      cases hrest : run? (n + 1) d' with
      | none => simp [hrest]
      | some rest => simp [hrest, eq_comm]

/-- A row of days begins with the day from which it was taken. -/
theorem head?_of_run? {n : Nat} {d : Date} {days : List Date} (h : run? (n + 1) d = some days) :
    days.head? = some d := by
  cases n with
  | zero =>
      cases h
      rfl
  | succ n =>
      obtain ⟨d', rest, _, _, rfl⟩ := run?_eq_some_iff.mp h
      rfl

theorem length_of_run? {d : Date} {days : List Date} :
    ∀ {n : Nat}, run? n d = some days → days.length = n := by
  intro n
  induction n generalizing d days with
  | zero =>
      intro h
      cases h
      rfl
  | succ n ih =>
      intro h
      cases n with
      | zero =>
          cases h
          rfl
      | succ n =>
          obtain ⟨d', rest, _, hrest, rfl⟩ := run?_eq_some_iff.mp h
          rw [List.length_cons, ih hrest]

/-- **Every day but the first comes after the one before it.** -/
theorem isChain_of_run? {d : Date} {days : List Date} :
    ∀ {n : Nat}, run? n d = some days → days.IsChain (fun a b => a.next? = some b) := by
  intro n
  induction n generalizing d days with
  | zero =>
      intro h
      cases h
      exact .nil
  | succ n ih =>
      intro h
      cases n with
      | zero =>
          cases h
          exact .singleton d
      | succ n =>
          obtain ⟨d', rest, hnext, hrest, rfl⟩ := run?_eq_some_iff.mp h
          rw [List.isChain_cons]
          refine ⟨?_, ih hrest⟩
          rw [head?_of_run? hrest]
          intro b hb
          cases hb
          exact hnext

/-- In a row of days the numbers grow by one. -/
theorem ordinal_getElem {days : List Date} (h : days.IsChain (fun a b => a.next? = some b))
    {d : Date} (hd : days.head? = some d) :
    ∀ (i : Nat) (hi : i < days.length), days[i].ordinal = d.ordinal + i := by
  intro i
  induction i with
  | zero =>
      intro hi
      have hfirst : days[0] = d := by
        rw [List.head?_eq_getElem?, List.getElem?_eq_getElem hi] at hd
        exact Option.some.inj hd
      rw [hfirst]
      rfl
  | succ i ih =>
      intro hi
      have hnext := List.isChain_iff_getElem.mp h i hi
      rw [ordinal_of_next? hnext, ih (by omega)]
      omega

/-- So no day stands in it twice. -/
theorem nodup_of_isChain {days : List Date} (h : days.IsChain (fun a b => a.next? = some b)) :
    days.Nodup := by
  cases days with
  | nil => exact List.nodup_nil
  | cons d rest =>
      rw [List.Nodup, List.pairwise_iff_getElem]
      intro i j hi hj hij heq
      have hord := congrArg ordinal heq
      rw [ordinal_getElem h rfl i hi, ordinal_getElem h rfl j hj] at hord
      omega

/-- A day whose number is among theirs stands in it once: where its number says. -/
theorem count_eq_one_of_isChain {days : List Date}
    (h : days.IsChain (fun a b => a.next? = some b)) {d : Date} (hd : days.head? = some d)
    {e : Date} (hlow : d.ordinal ≤ e.ordinal) (hhigh : e.ordinal < d.ordinal + days.length) :
    days.count e = 1 := by
  have hi : e.ordinal - d.ordinal < days.length := by omega
  have hfound : days[e.ordinal - d.ordinal] = e := by
    apply eq_of_ordinal_eq
    rw [ordinal_getElem h hd _ hi]
    omega
  exact List.count_eq_one_of_mem (nodup_of_isChain h) (hfound ▸ List.getElem_mem hi)

/-! ## §3. Weeks. -/

/-- Days taken week by week. -/
theorem flatten_weeks (days : List Date) (n : Nat) :
    ((List.range n).map (fun i => (days.drop (7 * i)).take 7)).flatten = days.take (7 * n) := by
  induction n with
  | zero => rfl
  | succ n ih =>
      rw [List.range_succ, List.map_append, List.flatten_append, ih, Nat.mul_succ, List.take_add]
      simp

/-- The weeks show the month of a day. -/
structure IsPage (d : Date) (weeks : List (List Date)) : Prop where
  /-- There are four to six of them. -/
  count : 4 ≤ weeks.length ∧ weeks.length ≤ 6
  /-- Each has seven days. -/
  whole : ∀ week ∈ weeks, week.length = 7
  /-- Each goes from Sunday to Saturday. -/
  sunday : ∀ week ∈ weeks, ∀ (j : Nat) (hj : j < week.length), week[j].sinceSunday = j
  /-- Every day is followed by the next one, also from week to week. -/
  row : weeks.flatten.IsChain (fun a b => a.next? = some b)
  /-- Every day of the month is shown once. -/
  once : ∀ e : Date, e.SameMonth d → weeks.flatten.count e = 1
  /-- No day of the same month of another year is shown. -/
  near : ∀ e ∈ weeks.flatten, e.month = d.month → e.SameMonth d

/-- The weeks that are found are cut from a row of days, which begins on the Sunday on or before the
first of the month. -/
theorem exists_row_of_monthGrid {d : Date} {weeks : List (List Date)}
    (h : d.monthGrid = .ok weeks) :
    ∃ (start : Date) (days : List Date), start.ordinal + d.leadingDays = d.firstOfMonth.ordinal ∧
      days.length = 7 * d.gridWeeks ∧ days.IsChain (fun a b => a.next? = some b) ∧
      days.head? = some start ∧
      weeks = (List.range d.gridWeeks).map (fun i => (days.drop (7 * i)).take 7) := by
  have hweeks : d.gridWeeks = (d.leadingDays + monthLength d.year d.month + 6) / 7 := rfl
  have hpos := monthLength_pos d.year d.month
  unfold monthGrid at h
  split at h
  next => cases h
  next start hstart =>
    have hspec := d.firstOfMonth.earlier?_spec d.leadingDays
    rw [hstart] at hspec
    split at h
    next => cases h
    next days hdays =>
      cases h
      have hhead : days.head? = some start := by
        rw [show 7 * d.gridWeeks = (7 * d.gridWeeks - 1) + 1 by omega] at hdays
        exact head?_of_run? hdays
      exact ⟨start, days, hspec, length_of_run? hdays, isChain_of_run? hdays, hhead, rfl⟩

/-- **The page of a month.** -/
theorem isPage_of_monthGrid {d : Date} {weeks : List (List Date)} (h : d.monthGrid = .ok weeks) :
    d.IsPage weeks := by
  obtain ⟨start, days, hstart, hlength, hrow, hhead, rfl⟩ := exists_row_of_monthGrid h
  have hlead : d.leadingDays = d.firstOfMonth.ordinal % 7 := rfl
  have hweeks : d.gridWeeks = (d.leadingDays + monthLength d.year d.month + 6) / 7 := rfl
  have hpos := monthLength_pos d.year d.month
  have hle := monthLength_le d.year d.month
  have hord := ordinal_getElem hrow hhead
  have hflat : ((List.range d.gridWeeks).map (fun i => (days.drop (7 * i)).take 7)).flatten
      = days := by
    rw [flatten_weeks, ← hlength, List.take_length]
  refine { count := ?_, whole := ?_, sunday := ?_, row := ?_, once := ?_, near := ?_ }
  · rw [List.length_map, List.length_range]
    omega
  · intro week hweek
    obtain ⟨i, hi, rfl⟩ := List.mem_map.mp hweek
    have hi := List.mem_range.mp hi
    rw [List.length_take, List.length_drop]
    omega
  · intro week hweek j hj
    obtain ⟨i, hi, rfl⟩ := List.mem_map.mp hweek
    rw [List.length_take, List.length_drop] at hj
    rw [List.getElem_take, List.getElem_drop, sinceSunday, hord _ (by omega)]
    omega
  · rw [hflat]
    exact hrow
  · intro e he
    rw [sameMonth_iff_ordinal] at he
    rw [hflat]
    exact count_eq_one_of_isChain hrow hhead (by omega) (by omega)
  · intro e he hmonth
    rw [hflat] at he
    obtain ⟨i, hi, rfl⟩ := List.getElem_of_mem he
    have hnumber := hord i hi
    exact sameMonth_of_near hmonth (by omega) (by omega)

/-- March 2024 begins on a Friday and takes six weeks. -/
example : (monthGrid ⟨2024, 3, 15, by decide⟩).map List.length = .ok 6 := rfl

end EncodedQuery.Date

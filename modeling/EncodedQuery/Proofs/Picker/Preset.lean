/-
  EncodedQuery.Proofs.Picker.Preset
  ─────────────────────────────────
  **THE NAMED RANGES.**

  The named ranges reach back thirty days and to the month before, so they do
  not exist in the first month of the calendar.  At all other times they do.
  They begin and end with days that are found from today, and each of them is
  the range that its name promises; none ends before it starts.

  Main results:
    • `fails_all_iff` — when they exist,
    • `exists_days_of_all` — the days with which they begin and end,
    • `start_le_stop_of_mem_all` — they are in order,
    • `all_asNamed` — all of it together.
-/
import EncodedQuery.Picker.Preset
import EncodedQuery.Proofs.Date.Page
import EncodedQuery.Proofs.Date.Shift

namespace EncodedQuery

/-! ## §1. When they exist. -/

namespace Instant

theorem fails_plusDays_iff (t : Instant) (n : Int) :
    Fails (t.plusDays n) ↔
      t.date.ordinal + n < 1 ∨ (Date.lastOrdinal : Int) < t.date.ordinal + n := by
  rw [← Date.plusDays?_eq_none_iff]
  unfold plusDays plusDays?
  cases t.date.plusDays? n <;> simp

theorem fails_startOfWeek_iff (t : Instant) :
    Fails t.startOfWeek ↔ (t.date.ordinal : Int) - t.date.sinceSunday < 1 := by
  have hle := t.date.ordinal_le
  have hdays := Date.plusDays?_eq_none_iff t.date (-(t.date.sinceSunday : Int))
  unfold startOfWeek startOfWeek? plusDays?
  cases h : t.date.plusDays? (-(t.date.sinceSunday : Int)) with
  | none =>
      have := hdays.mp h
      refine iff_of_true (fails_error _) ?_
      omega
  | some d =>
      rw [h] at hdays
      simp only [reduceCtorEq, false_iff] at hdays
      refine iff_of_false (not_fails_ok _) ?_
      omega

end Instant

/-- **The named ranges exist except in the first month of the calendar.** -/
theorem Preset.fails_all_iff (now : Instant) : Fails (Preset.all now) ↔ now.date.InFirstMonth := by
  have hall : Fails (Preset.all now) ↔
      Fails (now.startOfDay.plusDays (-1)) ∨ Fails (now.date.firstOfMonth.plusMonths (-1)) ∨
      Fails ((Instant.startOf now.date.firstOfMonth).plusDays (-1)) ∨
      Fails (now.startOfDay.plusDays (-7)) ∨ Fails (now.startOfDay.plusDays (-30)) ∨
      Fails now.startOfWeek := by
    unfold Preset.all
    refine fails_bind_iff_or fun _ => fails_bind_iff_or fun _ => fails_bind_iff_or fun _ => ?_
    exact fails_bind_iff_or fun _ => fails_bind_iff_or fun _ => fails_bind_pure_iff _ _
  have hmonths : Fails (now.date.firstOfMonth.plusMonths (-1)) ↔ now.date.InFirstMonth := by
    obtain ⟨hy, hm, _⟩ := now.date.firstOfMonth_eq
    obtain ⟨hyear, hmonth, _⟩ := now.date.isDay
    rw [Date.fails_plusMonths_iff, Date.monthIndex, hy, hm, Date.InFirstMonth]
    omega
  rw [hall, hmonths]
  constructor
  · -- each of the other days is out of reach in the first thirty days alone
    have hle := now.date.ordinal_le
    have hsunday : now.date.sinceSunday < 7 := Nat.mod_lt _ (by decide)
    have hfirst : now.date.firstOfMonth.ordinal = 1 → now.date.InFirstMonth := by
      intro h
      obtain ⟨hy, hm⟩ := (Date.inFirstMonth_iff now.date.firstOfMonth).mpr (by omega)
      obtain ⟨hy', hm', _⟩ := now.date.firstOfMonth_eq
      exact ⟨hy' ▸ hy, hm' ▸ hm⟩
    have hle' := now.date.firstOfMonth.ordinal_le
    have hdays := Date.inFirstMonth_iff now.date
    have hback : ∀ n : Int, -30 ≤ n ∧ n ≤ 0 → Fails (now.startOfDay.plusDays n) →
        now.date.InFirstMonth := by
      intro n hn h
      replace h := (Instant.fails_plusDays_iff _ _).mp h
      change (now.date.ordinal : Int) + _ < _ ∨ _ < (now.date.ordinal : Int) + _ at h
      exact hdays.mpr (by omega)
    rintro (h | h | h | h | h | h)
    · exact hback _ (by decide) h
    · exact h
    · replace h := (Instant.fails_plusDays_iff _ _).mp h
      change (now.date.firstOfMonth.ordinal : Int) + _ < _ ∨
        _ < (now.date.firstOfMonth.ordinal : Int) + _ at h
      have hpos := now.date.firstOfMonth.ordinal_pos
      exact hfirst (by omega)
    · exact hback _ (by decide) h
    · exact hback _ (by decide) h
    · have h' := (Instant.fails_startOfWeek_iff _).mp h
      exact hdays.mpr (by omega)
  · exact fun h => .inr (.inl h)

/-! ## §2. Their days. -/

namespace Date

theorem firstOfMonth_le (d : Date) : d.firstOfMonth ≤ d := by
  obtain ⟨hy, hm, hd⟩ := d.firstOfMonth_eq
  have hday := d.isDay.2.2.1
  rw [le_iff, monthIndex, monthIndex, hy, hm, hd]
  exact .inr ⟨rfl, hday⟩

theorem firstOfYear_eq (d : Date) :
    d.firstOfYear.year = d.year ∧ d.firstOfYear.month = 1 ∧ d.firstOfYear.day = 1 := by
  unfold firstOfYear
  split
  next d' h => exact (of?_eq_some_iff.mp h).2
  next h =>
    have hlen := monthLength_pos d.year 1
    exact absurd ⟨d.isDay.1, by omega, by omega, by omega⟩ (of?_eq_none_iff.mp h)

theorem firstOfYear_le (d : Date) : d.firstOfYear ≤ d := by
  obtain ⟨hy, hm, hd⟩ := d.firstOfYear_eq
  have hday := d.isDay
  unfold IsDay at hday
  rw [le_iff, monthIndex, monthIndex, hy, hm, hd]
  omega

/-- A month back from the first of a month is the first of the month before. -/
theorem month_of_plusMonths_firstOfMonth {d e : Date}
    (h : d.firstOfMonth.plusMonths (-1) = .ok e) :
    d.IsMonthAway (-1) e.year e.month ∧ e.day = 1 := by
  obtain ⟨hy, hm, hd⟩ := d.firstOfMonth_eq
  obtain ⟨haway, _⟩ := plusMonths_eq_ok_iff.mp h
  have hday := day_of_plusMonths (by omega) h
  refine ⟨?_, by omega⟩
  unfold IsMonthAway at haway ⊢
  rw [hy, hm] at haway
  exact haway

/-- The day before the first of a month is the last of the month before. -/
theorem month_of_prev?_firstOfMonth {d e : Date} (h : d.firstOfMonth.prev? = some e) :
    d.IsMonthAway (-1) e.year e.month ∧ e.day = monthLength e.year e.month := by
  obtain ⟨hy, hm, hd⟩ := d.firstOfMonth_eq
  obtain ⟨_, hmonth, _⟩ := d.isDay
  unfold prev? at h
  rw [hy, hm, hd] at h
  have hnone : of? d.year d.month (1 - 1) = none := by
    rw [of?_eq_none_iff]
    unfold IsDay
    omega
  rw [hnone, Option.none_or] at h
  rcases Option.or_eq_some_iff.mp h with h | ⟨hfirst, h⟩
  · -- within the year
    obtain ⟨hday, hy', hm', hd'⟩ := of?_eq_some_iff.mp h
    have hmonth' := hday.2.1
    refine ⟨?_, by rw [hy', hm', hd']⟩
    unfold IsMonthAway
    omega
  · -- in January it is the end of the year before
    obtain ⟨hday, hy', hm', hd'⟩ := of?_eq_some_iff.mp h
    have hyear := hday.1
    have hjanuary : d.month = 1 := by
      have hlen := monthLength_pos d.year (d.month - 1)
      have hnot := of?_eq_none_iff.mp hfirst
      unfold IsDay at hnot
      omega
    refine ⟨?_, by rw [hm', hd', monthLength_twelve]⟩
    unfold IsMonthAway
    omega

end Date

namespace Instant

/-- A day begins before every instant of it, and of the days after it. -/
theorem startOf_le_iff {d : Date} {t : Instant} : startOf d ≤ t ↔ d ≤ t.date := by
  have htime : t.timeRank < 86400000000 := by
    obtain ⟨hhour, hminute, hsecond, hmicro⟩ := t.isTime
    unfold timeRank
    omega
  have hstart : (startOf d).rank = d.rank * 86400000000 := by simp [rank, timeRank, startOf]
  show (startOf d).rank ≤ t.rank ↔ d.rank ≤ t.date.rank
  rw [hstart, rank]
  omega

/-- **The order of instants is that of their microseconds.** -/
theorem le_iff_epochMicros_le (a b : Instant) : a ≤ b ↔ a.epochMicros ≤ b.epochMicros := by
  have hdays : a.date.rank ≤ b.date.rank ↔ a.date.ordinal ≤ b.date.ordinal :=
    Date.le_iff_ordinal_le a.date b.date
  have hdays' : b.date.rank ≤ a.date.rank ↔ b.date.ordinal ≤ a.date.ordinal :=
    Date.le_iff_ordinal_le b.date a.date
  have ha := a.isTime
  have hb := b.isTime
  unfold IsTime at ha hb
  -- the day decides first on both sides, and the time within a day
  show a.rank ≤ b.rank ↔ _
  unfold rank timeRank epochMicros epochSeconds
  omega

theorem epochMicros_startOf (d : Date) :
    (startOf d).epochMicros = ((d.ordinal : Int) - 719163) * 86400000000 := by
  unfold epochMicros epochSeconds startOf
  dsimp only
  omega

/-- A day ends one second before the next day begins. -/
theorem epochMicros_endOfDay {d d' : Date} (h : d.ordinal + 1 = d'.ordinal) :
    (startOf d).endOfDay.epochMicros + 1000000 = (startOf d').epochMicros := by
  rw [epochMicros_startOf]
  unfold epochMicros epochSeconds endOfDay startOf
  dsimp only
  omega

/-- Some days after the start of a day another day starts. -/
theorem startOf_plusDays {d : Date} {n : Int} {t : Instant} (h : (startOf d).plusDays n = .ok t) :
    ∃ d', t = startOf d' ∧ d.plusDays? n = some d' := by
  unfold plusDays plusDays? at h
  cases hd : (startOf d).date.plusDays? n with
  | none => rw [hd] at h; cases h
  | some d' =>
      rw [hd] at h
      cases h
      exact ⟨d', rfl, hd⟩

/-- A week starts with the last Sunday. -/
theorem eq_startOf_of_startOfWeek {t t' : Instant} (h : t.startOfWeek = .ok t') :
    ∃ d, t' = startOf d ∧ d.ordinal + t.date.sinceSunday = t.date.ordinal := by
  unfold startOfWeek startOfWeek? plusDays? at h
  cases hd : t.date.plusDays? (-(t.date.sinceSunday : Int)) with
  | none => rw [hd] at h; cases h
  | some d =>
      rw [hd] at h
      cases h
      refine ⟨d, rfl, ?_⟩
      have hordinal := Date.ordinal_of_plusDays? hd
      omega

end Instant

/-- The days, besides today, with which named ranges begin and end. -/
structure NamedDays (today : Date) where
  /-- The day before today. -/
  yesterday : Date
  /-- The day a week ago. -/
  weekAgo : Date
  /-- The day thirty days ago. -/
  monthAgo : Date
  /-- The last Sunday. -/
  sunday : Date
  /-- The first day of the month before. -/
  lastMonth : Date
  /-- The last day of the month before. -/
  endOfLastMonth : Date
  isYesterday : yesterday.ordinal + 1 = today.ordinal
  isWeekAgo : weekAgo.ordinal + 7 = today.ordinal
  isMonthAgo : monthAgo.ordinal + 30 = today.ordinal
  isSunday : sunday.ordinal + today.sinceSunday = today.ordinal
  isLastMonth : today.IsMonthAway (-1) lastMonth.year lastMonth.month ∧ lastMonth.day = 1
  isEndOfLastMonth : today.IsMonthAway (-1) endOfLastMonth.year endOfLastMonth.month ∧
    endOfLastMonth.day = monthLength endOfLastMonth.year endOfLastMonth.month
  endsBeforeMonth : endOfLastMonth.ordinal + 1 = today.firstOfMonth.ordinal

/-- The range from the start of a day to the last second of a day. -/
def Preset.ofDays (name : Text) (first last : Date) : Preset :=
  ⟨name, .startOf first, (Instant.startOf last).endOfDay⟩

open Preset (ofDays) in
/-- The named ranges of these days. -/
def NamedDays.presets {today : Date} (days : NamedDays today) : List Preset :=
  [ofDays "Today" today today,
    ofDays "Yesterday" days.yesterday days.yesterday,
    ofDays "Last 7 days" days.weekAgo today,
    ofDays "Last 30 days" days.monthAgo today,
    ofDays "This week" days.sunday today,
    ofDays "This month" today.firstOfMonth today,
    ofDays "Last month" days.lastMonth days.endOfLastMonth,
    ofDays "This year" today.firstOfYear today]

/-- **The named ranges are ranges of such days.** -/
theorem Preset.exists_days_of_all {now : Instant} {presets : List Preset}
    (h : Preset.all now = .ok presets) : ∃ days : NamedDays now.date, presets = days.presets := by
  unfold Preset.all at h
  obtain ⟨_, hyesterday, h⟩ := exists_of_bind_eq_ok h
  obtain ⟨lastMonth, hlast, h⟩ := exists_of_bind_eq_ok h
  obtain ⟨_, hend, h⟩ := exists_of_bind_eq_ok h
  obtain ⟨_, hweek, h⟩ := exists_of_bind_eq_ok h
  obtain ⟨_, hmonth, h⟩ := exists_of_bind_eq_ok h
  obtain ⟨_, hthis, h⟩ := exists_of_bind_eq_ok h
  cases h
  obtain ⟨yesterday, rfl, hone⟩ := Instant.startOf_plusDays hyesterday
  obtain ⟨endOfLastMonth, rfl, hbefore⟩ := Instant.startOf_plusDays hend
  obtain ⟨weekAgo, rfl, hseven⟩ := Instant.startOf_plusDays hweek
  obtain ⟨monthAgo, rfl, hthirty⟩ := Instant.startOf_plusDays hmonth
  obtain ⟨sunday, rfl, hsunday⟩ := Instant.eq_startOf_of_startOfWeek hthis
  have h₁ := Date.ordinal_of_plusDays? hone
  have h₇ := Date.ordinal_of_plusDays? hseven
  have h₃₀ := Date.ordinal_of_plusDays? hthirty
  have hlastDay := Date.ordinal_of_plusDays? hbefore
  exact ⟨{
    yesterday, weekAgo, monthAgo, sunday, lastMonth, endOfLastMonth
    isYesterday := by omega
    isWeekAgo := by omega
    isMonthAgo := by omega
    isSunday := hsunday
    isLastMonth := Date.month_of_plusMonths_firstOfMonth hlast
    isEndOfLastMonth := Date.month_of_prev?_firstOfMonth hbefore
    endsBeforeMonth := by omega }, rfl⟩

/-- Each of them is a range from a day to the same day or a later one. -/
theorem NamedDays.exists_ofDays {today : Date} (days : NamedDays today) :
    ∀ preset ∈ days.presets, ∃ name first last,
      preset = Preset.ofDays name first last ∧ first ≤ last := by
  have hback : ∀ d : Date, d.ordinal ≤ today.ordinal → d ≤ today :=
    fun d h => (Date.le_iff_ordinal_le d today).mpr h
  have hyesterday := days.isYesterday
  have hweek := days.isWeekAgo
  have hmonth := days.isMonthAgo
  have hsunday := days.isSunday
  have hlastMonth : days.lastMonth ≤ days.endOfLastMonth := by
    -- both lie in the month before, and the first of them is its first day
    obtain ⟨hfirst, hone⟩ := days.isLastMonth
    obtain ⟨hlast, hlen⟩ := days.isEndOfLastMonth
    have hpos := Date.monthLength_pos days.endOfLastMonth.year days.endOfLastMonth.month
    have hsame : days.lastMonth.monthIndex = days.endOfLastMonth.monthIndex := by
      rw [Date.isMonthAway_iff.mp hfirst, Date.isMonthAway_iff.mp hlast]
    rw [Date.le_iff]
    exact .inr ⟨hsame, by omega⟩
  simp only [presets, List.forall_mem_cons, List.not_mem_nil, false_implies, implies_true, and_true]
  exact ⟨⟨_, _, _, rfl, Nat.le_refl _⟩, ⟨_, _, _, rfl, Nat.le_refl _⟩,
    ⟨_, _, _, rfl, hback _ (by omega)⟩, ⟨_, _, _, rfl, hback _ (by omega)⟩,
    ⟨_, _, _, rfl, hback _ (by omega)⟩, ⟨_, _, _, rfl, today.firstOfMonth_le⟩,
    ⟨_, _, _, rfl, hlastMonth⟩, ⟨_, _, _, rfl, today.firstOfYear_le⟩⟩

theorem NamedDays.start_le_stop {today : Date} (days : NamedDays today) :
    ∀ preset ∈ days.presets, preset.start ≤ preset.stop := by
  intro preset hpreset
  obtain ⟨name, first, last, rfl, hle⟩ := days.exists_ofDays preset hpreset
  exact Instant.startOf_le_iff.mpr hle

/-- **No named range ends before it starts.** -/
theorem Preset.start_le_stop_of_mem_all {now : Instant} {presets : List Preset}
    (h : Preset.all now = .ok presets) : ∀ preset ∈ presets, preset.start ≤ preset.stop := by
  obtain ⟨days, rfl⟩ := exists_days_of_all h
  exact days.start_le_stop

/-! ## §3. What their names promise. -/

/-- The hour, minute, second and microsecond. -/
def Instant.clock (t : Instant) : Nat × Nat × Nat × Nat := (t.hour, t.minute, t.second, t.micro)

namespace Preset

/-- The range of that name. -/
def named? (presets : List Preset) (name : Text) : Option Preset :=
  presets.find? (fun preset => preset.name = name)

/-- The ranges are what their names promise at `now`. -/
structure AsNamed (now : Instant) (presets : List Preset) : Prop where
  /-- They start with a day. -/
  startClock : ∀ preset ∈ presets, preset.start.clock = (0, 0, 0, 0)
  /-- They end with the last second of a day. -/
  stopClock : ∀ preset ∈ presets, preset.stop.clock = (23, 59, 59, 0)
  /-- None ends before it starts. -/
  ordered : ∀ preset ∈ presets, preset.start ≤ preset.stop
  /-- The week starts on Sunday, and `now` lies in its seven days. -/
  thisWeek : ∃ week, named? presets "This week" = some week ∧
    week.start.date.sinceSunday = 0 ∧ week.start ≤ now ∧
    now.epochMicros < week.start.epochMicros + 7 * 86400000000
  /-- The month before is covered from its first to its last day, up to the second before this
  month starts. -/
  lastMonth : ∃ last this, named? presets "Last month" = some last ∧
    named? presets "This month" = some this ∧
    (now.date.IsMonthAway (-1) last.start.date.year last.start.date.month ∧
      last.start.date.day = 1) ∧
    (now.date.IsMonthAway (-1) last.stop.date.year last.stop.date.month ∧
      last.stop.date.day = monthLength last.stop.date.year last.stop.date.month) ∧
    last.stop.epochMicros + 1000000 = this.start.epochMicros
  /-- The day before ends one second before today starts. -/
  yesterday : ∃ day today, named? presets "Yesterday" = some day ∧
    named? presets "Today" = some today ∧
    day.stop.epochMicros + 1000000 = today.start.epochMicros
  /-- The year starts on its first day. -/
  thisYear : ∃ year, named? presets "This year" = some year ∧
    year.start.date.year = now.date.year ∧ year.start.date.month = 1 ∧ year.start.date.day = 1

end Preset

/-- The Sunday of a week is no more than six days back. -/
theorem NamedDays.sunday_week {now : Instant} (days : NamedDays now.date) :
    days.sunday.sinceSunday = 0 ∧ Instant.startOf days.sunday ≤ now ∧
      now.epochMicros < (Instant.startOf days.sunday).epochMicros + 7 * 86400000000 := by
  have hsunday := days.isSunday
  have hsince : now.date.sinceSunday = now.date.ordinal % 7 := rfl
  have htime := now.isTime
  unfold IsTime at htime
  rw [Instant.le_iff_epochMicros_le, Instant.epochMicros_startOf, Instant.epochMicros,
    Instant.epochSeconds, Date.sinceSunday]
  omega

/-- The ranges of such days are what their names promise. -/
theorem NamedDays.asNamed {now : Instant} (days : NamedDays now.date) :
    Preset.AsNamed now days.presets where
  startClock := by
    intro preset hpreset
    obtain ⟨name, first, last, rfl, _⟩ := days.exists_ofDays preset hpreset
    rfl
  stopClock := by
    intro preset hpreset
    obtain ⟨name, first, last, rfl, _⟩ := days.exists_ofDays preset hpreset
    rfl
  ordered := days.start_le_stop
  thisWeek := ⟨_, rfl, days.sunday_week⟩
  lastMonth := ⟨_, _, rfl, rfl, days.isLastMonth, days.isEndOfLastMonth,
    Instant.epochMicros_endOfDay days.endsBeforeMonth⟩
  yesterday := ⟨_, _, rfl, rfl, Instant.epochMicros_endOfDay days.isYesterday⟩
  thisYear := ⟨_, rfl, now.date.firstOfYear_eq⟩

/-- The first month of the calendar is over from 1 February on. -/
theorem Instant.startOf_february_le_iff (now : Instant) :
    startOf ⟨1, 2, 1, by decide⟩ ≤ now ↔ ¬ now.date.InFirstMonth := by
  have hfebruary : Date.ordinal ⟨1, 2, 1, by decide⟩ = 32 := rfl
  rw [startOf_le_iff, Date.le_iff_ordinal_le, Date.inFirstMonth_iff, hfebruary]
  omega

/-- **The named ranges.**  From 1 February of year 1 on they exist, and each of them is the range
that its name promises; before that day they cannot be given. -/
theorem Preset.all_asNamed (now : Instant) :
    if Instant.startOf ⟨1, 2, 1, by decide⟩ ≤ now then
      ∃ presets, Preset.all now = .ok presets ∧ AsNamed now presets
    else Fails (Preset.all now) := by
  split
  next hfebruary =>
    have hexists : ¬ Fails (Preset.all now) := by
      rw [fails_all_iff]
      exact (Instant.startOf_february_le_iff now).mp hfebruary
    obtain ⟨presets, hall⟩ := exists_ok_of_not_fails hexists
    obtain ⟨days, rfl⟩ := exists_days_of_all hall
    exact ⟨_, hall, days.asNamed⟩
  next hjanuary =>
    rw [fails_all_iff]
    rw [Instant.startOf_february_le_iff, Classical.not_not] at hjanuary
    exact hjanuary

end EncodedQuery

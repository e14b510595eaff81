/-
  EncodedQuery.Proofs.Picker.Escape
  ─────────────────────────────────
  **ESC LEADS OUT OF A PICKER.**

  On another page than the days, Esc leads a calendar back to the days, and from
  there out of it.  A picker for a range shows one of two calendars or the list
  of named ranges, and Esc leads from the list back to a calendar, from the end
  to the start, and from the start out.

  A closed calendar ignores Esc.  So the calendar that is shown has to be open,
  and the list must not lead back to itself.

  Main results: `Calendar.update_esc`, `RangePicker.Awake.update`,
  `RangePicker.update_esc`.
-/
import EncodedQuery.Proofs.Fault
import EncodedQuery.Proofs.Picker.Range

namespace EncodedQuery

/-! ## §1. Calendars. -/

namespace Calendar

/-- The number of times that Esc has to be pressed. -/
def depth (c : Calendar) : Nat := if c.mode = .month then 1 else 2

theorem depth_le (c : Calendar) : c.depth ≤ 2 := by
  unfold depth
  split <;> decide

theorem depth_pos (c : Calendar) : 0 < c.depth := by
  unfold depth
  split <;> decide

@[simp] theorem depth_activate (c : Calendar) : c.activate.depth = 1 := rfl

/-- **Esc leads closer to the way out of a calendar**, or out of it without a choice. -/
theorem update_esc {c : Calendar} (h : c.active = true) (now : Instant) :
    ∃ c', c.update now .esc = .ok c' ∧
      ((c'.active = true ∧ c'.depth < c.depth) ∨
        (c'.active = false ∧ c'.completed = false)) := by
  unfold update
  simp only [h, Bool.not_true, Bool.false_eq_true, if_false]
  cases hm : c.mode with
  | month => exact ⟨_, rfl, .inr ⟨rfl, rfl⟩⟩
  | year | time =>
      have hdepth : c.depth = 2 := by simp [depth, hm]
      refine ⟨_, rfl, .inl ⟨h, ?_⟩⟩
      rw [hdepth]
      exact Nat.one_lt_two

end Calendar

namespace RangePicker

/-! ## §2. Open pickers show open calendars. -/

/-- What the picker shows takes keys, and the list of named ranges leads back to a calendar. -/
structure Awake (p : RangePicker) : Prop where
  /-- The calendar that is shown is open. -/
  shown : p.active = true → p.mode ≠ .presets → p.calendar.active = true
  /-- The list leads back to a calendar. -/
  back : p.mode = .presets → p.returnMode ≠ .presets

@[simp] theorem calendar_setCalendar (p : RangePicker) (c : Calendar) :
    (p.setCalendar c).calendar = c := by
  unfold setCalendar calendar
  by_cases hm : p.mode = .start <;> simp [hm]

/-- A picker that shows a calendar is awake when that calendar is open. -/
theorem awake_of_calendar {p : RangePicker} (hm : p.mode ≠ .presets)
    (h : p.active = true → p.calendar.active = true) : p.Awake :=
  ⟨fun ha _ => h ha, fun heq => absurd heq hm⟩

theorem awake_setCalendar {p : RangePicker} (hm : p.mode ≠ .presets) {c : Calendar}
    (h : c.active = true) : (p.setCalendar c).Awake := by
  refine awake_of_calendar ?_ fun _ => ?_
  · rwa [mode_setCalendar]
  · rwa [calendar_setCalendar]

theorem awake_new (showTime showSeconds allowSameDay : Bool) (now : Instant) :
    (new showTime showSeconds allowSameDay now).Awake :=
  awake_of_calendar nofun nofun

theorem awake_reopen (p : RangePicker) : p.reopen.Awake :=
  awake_of_calendar (by simp [reopen]) fun _ => rfl

theorem awake_activate (p : RangePicker) (now : Instant) : (p.activate now).Awake :=
  awake_reopen _

variable {p : RangePicker}

theorem Awake.deactivate (h : p.Awake) : p.deactivate.Awake := ⟨nofun, h.back⟩

theorem Awake.updatePresets (h : p.Awake) (hm : p.mode = .presets) (k : Key) :
    (p.updatePresets k).Awake := by
  have hlist : ∀ q : RangePicker, q.mode = .presets → q.returnMode = p.returnMode → q.Awake :=
    fun q hq hreturn => ⟨fun _ hne => absurd hq hne, fun _ => hreturn ▸ h.back hm⟩
  unfold RangePicker.updatePresets
  split
  · split
    · exact hlist _ hm rfl
    · exact h
  · exact awake_setCalendar (h.back hm) rfl
  · exact hlist _ hm rfl

theorem awake_openPresets {p' : RangePicker} {now : Instant} (hm : p.mode ≠ .presets)
    (h : p.openPresets now = .ok p') : p'.Awake := by
  unfold openPresets at h
  obtain ⟨presets, _, h⟩ := exists_of_bind_eq_ok h
  cases h
  exact ⟨fun _ hne => absurd rfl hne, fun _ => hm⟩

theorem awake_switch (p : RangePicker) : p.switch.Awake := by
  have hopposite : p.mode.opposite ≠ .presets := by cases p.mode <;> decide
  exact awake_setCalendar hopposite rfl

theorem awake_startConfirmed (p : RangePicker) : p.startConfirmed.Awake :=
  awake_of_calendar (by simp [startConfirmed]) fun _ => rfl

theorem awake_stopConfirmed (hm : p.mode = .stop) : p.stopConfirmed.Awake := by
  have hstop : ∀ q : RangePicker, q.mode = .stop →
      (q.active = true → q.stopCalendar.active = true) →
      q.Awake := by
    intro q hq hopen
    refine awake_of_calendar (by simp [hq]) fun ha => ?_
    simpa [calendar, hq] using hopen ha
  unfold stopConfirmed
  dsimp only
  split
  · exact awake_of_calendar (by simp) fun _ => rfl
  · split
    · exact hstop _ hm nofun
    · exact hstop _ hm fun _ => rfl

theorem awake_calendarCancelled (hm : p.mode ≠ .presets) : p.calendarCancelled.Awake := by
  unfold calendarCancelled
  split
  · exact awake_of_calendar (by simp) fun _ => rfl
  · exact awake_of_calendar hm nofun

/-- A calendar that a key closes gives way to another one, or opens again. -/
theorem Awake.afterCalendar (h : p.Awake) (ha : p.active = true) (hm : p.mode ≠ .presets)
    (c : Calendar) : (p.afterCalendar c).Awake := by
  have hopen := h.shown ha hm
  have hmode : (p.setCalendar c).mode ≠ .presets := by rwa [mode_setCalendar]
  -- the calendar was open, so a closed one was closed by this key
  unfold RangePicker.afterCalendar
  rw [hopen, Bool.true_and]
  cases hc : c.active with
  | true => exact awake_setCalendar hm hc
  | false =>
      rw [Bool.not_false, if_pos rfl]
      split
      · split
        · exact awake_startConfirmed _
        next hstart =>
          refine awake_stopConfirmed ?_
          rw [mode_setCalendar]
          cases hp : p.mode with
          | start => exact absurd hp hstart
          | stop => rfl
          | presets => exact absurd hp hm
      · exact awake_calendarCancelled hmode

/-- **A key leaves what is shown open.** -/
theorem Awake.update {p' : RangePicker} {now : Instant} {k : Key} (h : p.Awake)
    (hu : p.update now k = .ok p') : p'.Awake := by
  unfold RangePicker.update at hu
  split at hu
  · cases hu; exact h
  next ha =>
    replace ha : p.active = true := by simpa using ha
    split at hu
    next hm => cases hu; exact h.updatePresets hm k
    next hm =>
      split at hu
      · exact awake_openPresets hm hu
      · split at hu
        · cases hu; exact awake_switch p
        · rw [updateCalendar_eq] at hu
          cases hc : p.calendar.update now k with
          | error f => rw [hc] at hu; cases hu
          | ok c =>
              rw [hc] at hu
              cases hu
              exact h.afterCalendar ha hm c

/-! ## §3. The way out. -/

/-- The number of times that Esc has to be pressed. -/
def depth (p : RangePicker) : Nat :=
  match p.mode with
  | .start => p.startCalendar.depth
  | .stop => p.stopCalendar.depth + 1
  | .presets => if p.returnMode = .start then 2 else 3

theorem depth_le (p : RangePicker) : p.depth ≤ 3 := by
  have hstart := p.startCalendar.depth_le
  have hstop := p.stopCalendar.depth_le
  unfold depth
  cases p.mode with
  | start => exact Nat.le_succ_of_le hstart
  | stop => exact Nat.succ_le_succ hstop
  | presets => dsimp only; split <;> decide

theorem depth_setCalendar_lt (hm : p.mode ≠ .presets) {c : Calendar}
    (h : c.depth < p.calendar.depth) : (p.setCalendar c).depth < p.depth := by
  unfold calendar at h
  unfold setCalendar depth
  cases hp : p.mode with
  | start => simpa [hp] using h
  | stop => simpa [hp] using h
  | presets => exact absurd hp hm

/-- The list leads back to the days of the calendar from which it was opened. -/
theorem updatePresets_esc (h : p.Awake) (ha : p.active = true) (hm : p.mode = .presets) :
    (p.updatePresets .esc).active = true ∧ (p.updatePresets .esc).depth < p.depth := by
  cases hr : p.returnMode with
  | start =>
      have hback : p.updatePresets .esc =
          { p with mode := .start, startCalendar := p.startCalendar.activate } := by
        simp [updatePresets, setCalendar, calendar, hr]
      rw [hback]
      exact ⟨ha, by simp [depth, hm, hr]⟩
  | stop =>
      have hback : p.updatePresets .esc =
          { p with mode := .stop, stopCalendar := p.stopCalendar.activate } := by
        simp [updatePresets, setCalendar, calendar, hr]
      rw [hback]
      exact ⟨ha, by simp [depth, hm, hr]⟩
  | presets => exact absurd hr (h.back hm)

/-- A calendar that was left leads from the end to the start, and from the start out. -/
theorem calendarCancelled_setCalendar (ha : p.active = true) (c : Calendar) :
    let q := (p.setCalendar c).calendarCancelled
    (q.active = true ∧ q.depth < p.depth) ∨ (q.active = false ∧ q.completed = false) := by
  intro q
  by_cases hstop : p.mode = .stop
  · -- the start opens at its days, one Esc away from the way out
    have hq : q = { p.setCalendar c with
        mode := .start
        error := []
        startCalendar := (p.setCalendar c).startCalendar.activate } := by
      simp only [q, calendarCancelled, mode_setCalendar, hstop, if_true]
    refine .inl ⟨?_, ?_⟩
    · rw [hq]
      exact (active_setCalendar p c).trans ha
    · rw [hq]
      simp [depth, hstop, Calendar.depth_pos]
  · have hq : q = deactivate { p.setCalendar c with completed := false } := by
      simp only [q, calendarCancelled, mode_setCalendar, hstop, if_false]
    rw [hq]
    exact .inr ⟨rfl, rfl⟩

theorem depth_pos (p : RangePicker) : 0 < p.depth := by
  unfold depth
  cases p.mode with
  | start => exact p.startCalendar.depth_pos
  | stop => exact Nat.succ_pos _
  | presets => dsimp only; split <;> decide

/-- **Esc leads closer to the way out of a picker for a range**, or out of it without a range. -/
theorem update_esc (h : p.Awake) (ha : p.active = true) (now : Instant) :
    ∃ p', p.update now .esc = .ok p' ∧
      ((p'.active = true ∧ p'.depth < p.depth) ∨
        (p'.active = false ∧ p'.completed = false)) := by
  by_cases hm : p.mode = .presets
  · exact ⟨_, by simp [update, ha, hm], .inl (updatePresets_esc h ha hm)⟩
  · have hopen := h.shown ha hm
    obtain ⟨c, hc, hcases⟩ := Calendar.update_esc hopen now
    have hupdate : p.update now .esc = .ok (p.afterCalendar c) := by
      have hkey : p.update now .esc = p.updateCalendar now .esc := by simp [update, ha, hm]
      rw [hkey, updateCalendar_eq, hc]
      rfl
    refine ⟨_, hupdate, ?_⟩
    unfold afterCalendar
    rw [hopen, Bool.true_and]
    rcases hcases with ⟨hactive, hlt⟩ | ⟨hactive, hdone⟩
    · rw [hactive, Bool.not_true, if_neg Bool.false_ne_true, active_setCalendar]
      exact .inl ⟨ha, depth_setCalendar_lt hm hlt⟩
    · rw [hactive, hdone, Bool.not_false, if_pos rfl, if_neg Bool.false_ne_true]
      exact calendarCancelled_setCalendar ha c

end RangePicker

end EncodedQuery

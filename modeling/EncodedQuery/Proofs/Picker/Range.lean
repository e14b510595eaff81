/-
  EncodedQuery.Proofs.Picker.Range
  ────────────────────────────────
  **A PICKER FOR A RANGE FROM KEY TO KEY.**

  Two calendars and a list are all there is to a picker for a range, and none of
  its keys changes how these were made.  A picker that is opened afresh shows
  nothing of earlier ranges; only the list of named ranges keeps its rows, and
  it is filled again before it is shown.

  Main results:
    • `sameMake_update` — no key changes how a picker was made,
    • `fails_update_iff`, `fails_view_iff` — a picker fails where its calendar
      does, and when the named ranges are wanted in the first month,
    • `veiled_update` — what a key does does not depend on rows of named ranges
      that are not shown.
-/
import EncodedQuery.Picker.Range
import EncodedQuery.Proofs.Picker.Calendar
import EncodedQuery.Proofs.Picker.Preset
import EncodedQuery.Proofs.Widget.PickList

namespace EncodedQuery.RangePicker

/-! ## §1. How a picker was made. -/

/-- Both pickers were made in the same way. -/
structure SameMake (p p' : RangePicker) : Prop where
  /-- The order that is asked of the two ends. -/
  allowSameDay : p'.allowSameDay = p.allowSameDay
  /-- The calendar of the start. -/
  startCalendar : p.startCalendar.SameMake p'.startCalendar
  /-- The calendar of the end. -/
  stopCalendar : p.stopCalendar.SameMake p'.stopCalendar
  /-- The list of named ranges, once it is filled. -/
  presets : p'.presets.setItems = p.presets.setItems

theorem SameMake.refl (p : RangePicker) : SameMake p p :=
  ⟨rfl, .refl _, .refl _, rfl⟩

theorem SameMake.trans {p p' p'' : RangePicker} (h : SameMake p p') (h' : SameMake p' p'') :
    SameMake p p'' :=
  ⟨h'.allowSameDay.trans h.allowSameDay, h.startCalendar.trans h'.startCalendar,
    h.stopCalendar.trans h'.stopCalendar, h'.presets.trans h.presets⟩

/-! ## §2. Opening and closing. -/

theorem sameMake_deactivate (p : RangePicker) : SameMake p p.deactivate :=
  ⟨rfl, ⟨rfl, rfl, rfl, rfl, rfl⟩, ⟨rfl, rfl, rfl, rfl, rfl⟩, rfl⟩

theorem sameMake_reopen (p : RangePicker) : SameMake p p.reopen :=
  ⟨rfl, ⟨rfl, rfl, rfl, rfl, rfl⟩, ⟨rfl, rfl, rfl, rfl, rfl⟩, rfl⟩

theorem sameMake_activate (p : RangePicker) (now : Instant) : SameMake p (p.activate now) :=
  ⟨rfl, ⟨rfl, rfl, rfl, rfl, rfl⟩, ⟨rfl, rfl, rfl, rfl, rfl⟩, rfl⟩

/-! ## §3. Keys. -/

theorem sameMake_setCalendar (p : RangePicker) {c : Calendar} (h : p.calendar.SameMake c) :
    SameMake p (p.setCalendar c) := by
  unfold setCalendar
  unfold calendar at h
  split at h
  next hm => rw [if_pos hm]; exact ⟨rfl, h, .refl _, rfl⟩
  next hm => rw [if_neg hm]; exact ⟨rfl, .refl _, h, rfl⟩

theorem sameMake_applyPreset (p : RangePicker) (preset : Preset) :
    SameMake p (p.applyPreset preset) :=
  ⟨rfl, ⟨rfl, rfl, rfl, rfl, rfl⟩, ⟨rfl, rfl, rfl, rfl, rfl⟩, rfl⟩

theorem sameMake_openPresets {p p' : RangePicker} {now : Instant}
    (h : p.openPresets now = .ok p') : SameMake p p' := by
  unfold openPresets at h
  cases hall : Preset.all now with
  | error f => rw [hall] at h; cases h
  | ok presets =>
      rw [hall] at h
      cases h
      have hclosed := sameMake_setCalendar p (c := p.calendar.deactivate) ⟨rfl, rfl, rfl, rfl, rfl⟩
      exact ⟨hclosed.allowSameDay, hclosed.startCalendar, hclosed.stopCalendar, rfl⟩

theorem sameMake_updatePresets (p : RangePicker) (k : Key) : SameMake p (p.updatePresets k) := by
  unfold updatePresets
  split
  · split
    · exact sameMake_applyPreset p _
    · exact .refl p
  · have hmode : SameMake p { p with mode := p.returnMode } := ⟨rfl, .refl _, .refl _, rfl⟩
    exact hmode.trans (sameMake_setCalendar _ ⟨rfl, rfl, rfl, rfl, rfl⟩)
  · exact ⟨rfl, .refl _, .refl _, funext fun items => by simp⟩

theorem sameMake_switch (p : RangePicker) : SameMake p p.switch := by
  have hclosed := sameMake_setCalendar p (c := p.calendar.deactivate) ⟨rfl, rfl, rfl, rfl, rfl⟩
  have hturned : SameMake (p.setCalendar p.calendar.deactivate)
      { p.setCalendar p.calendar.deactivate with mode := p.mode.opposite } :=
    ⟨rfl, .refl _, .refl _, rfl⟩
  exact (hclosed.trans hturned).trans (sameMake_setCalendar _ ⟨rfl, rfl, rfl, rfl, rfl⟩)

theorem sameMake_startConfirmed (p : RangePicker) : SameMake p p.startConfirmed := by
  unfold startConfirmed
  dsimp only
  split
  · split <;> exact ⟨rfl, .refl _, ⟨rfl, rfl, rfl, rfl, rfl⟩, rfl⟩
  · exact ⟨rfl, .refl _, ⟨rfl, rfl, rfl, rfl, rfl⟩, rfl⟩

theorem sameMake_stopConfirmed (p : RangePicker) : SameMake p p.stopConfirmed := by
  unfold stopConfirmed
  dsimp only
  split
  · exact ⟨rfl, ⟨rfl, rfl, rfl, rfl, rfl⟩, .refl _, rfl⟩
  · split <;> exact ⟨rfl, ⟨rfl, rfl, rfl, rfl, rfl⟩, ⟨rfl, rfl, rfl, rfl, rfl⟩, rfl⟩

theorem sameMake_calendarCancelled (p : RangePicker) : SameMake p p.calendarCancelled := by
  unfold calendarCancelled
  split
  · exact ⟨rfl, ⟨rfl, rfl, rfl, rfl, rfl⟩, .refl _, rfl⟩
  · exact ⟨rfl, ⟨rfl, rfl, rfl, rfl, rfl⟩, ⟨rfl, rfl, rfl, rfl, rfl⟩, rfl⟩

/-- The picker after its calendar took a key: when that closed the calendar, the picker moves on. -/
def afterCalendar (p : RangePicker) (after : Calendar) : RangePicker :=
  if p.calendar.active && !after.active then
    if after.completed then
      if p.mode = .start then (p.setCalendar after).startConfirmed
      else (p.setCalendar after).stopConfirmed
    else (p.setCalendar after).calendarCancelled
  else p.setCalendar after

@[simp] theorem active_setCalendar (p : RangePicker) (c : Calendar) :
    (p.setCalendar c).active = p.active := by
  unfold setCalendar
  split <;> rfl

@[simp] theorem mode_setCalendar (p : RangePicker) (c : Calendar) :
    (p.setCalendar c).mode = p.mode := by
  unfold setCalendar
  split <;> rfl

theorem updateCalendar_eq (p : RangePicker) (now : Instant) (k : Key) :
    p.updateCalendar now k = (p.calendar.update now k).map p.afterCalendar := by
  unfold updateCalendar afterCalendar
  dsimp only
  cases p.calendar.update now k with
  | error f => rfl
  | ok c =>
      show Except.ok _ = Except.ok _
      rw [mode_setCalendar]

theorem sameMake_updateCalendar {p p' : RangePicker} {now : Instant} {k : Key}
    (h : p.updateCalendar now k = .ok p') : SameMake p p' := by
  rw [updateCalendar_eq] at h
  cases hc : p.calendar.update now k with
  | error f => rw [hc] at h; cases h
  | ok c =>
      rw [hc] at h
      cases h
      have hset := sameMake_setCalendar p (Calendar.sameMake_update hc)
      unfold afterCalendar
      split
      · split
        · split
          · exact hset.trans (sameMake_startConfirmed _)
          · exact hset.trans (sameMake_stopConfirmed _)
        · exact hset.trans (sameMake_calendarCancelled _)
      · exact hset

/-- **No key changes how a picker was made.** -/
theorem sameMake_update {p p' : RangePicker} {now : Instant} {k : Key}
    (h : p.update now k = .ok p') : SameMake p p' := by
  unfold update at h
  split at h
  · cases h; exact .refl p
  · split at h
    · cases h; exact sameMake_updatePresets p k
    · split at h
      · exact sameMake_openPresets h
      · split at h
        · cases h; exact sameMake_switch p
        · exact sameMake_updateCalendar h

/-! ## §4. Opening afresh. -/

/-- The picker opened afresh, its list of named ranges empty. -/
def renewed (p : RangePicker) (now : Instant) : RangePicker :=
  { p.activate now with presets := p.presets.setItems [] }

/-- Pickers of one make are the same once they are opened afresh. -/
theorem SameMake.renewed_eq {p p' : RangePicker} (h : SameMake p p') : p'.renewed = p.renewed := by
  funext now
  have hstart := (h.startCalendar.reset_eq now).2
  have hstop := (h.stopCalendar.reset_eq now).1
  simp [renewed, activate, reopen, h.allowSameDay, h.presets, hstart, hstop]

/-- What a picker keeps while it is used can be seen when it is opened afresh. -/
theorem make_of_renewed_eq {p q : RangePicker} (h : p.renewed = q.renewed) :
    p.presets.setItems = q.presets.setItems ∧ p.allowSameDay = q.allowSameDay := by
  have hrenewed := congrFun h (Instant.startOf ⟨1, 1, 1, by decide⟩)
  refine ⟨funext fun items => ?_, ?_⟩
  · have hpresets := congrArg (fun r : RangePicker => r.presets.setItems items) hrenewed
    exact hpresets
  · have hallow := congrArg allowSameDay hrenewed
    exact hallow

/-! ## §5. Leaving the calendar. -/

/-- The key moves the cursor out of the calendar, or asks for ranges that do not exist. -/
def Overruns (p : RangePicker) (now : Instant) (k : Key) : Prop :=
  p.active = true ∧ p.mode ≠ .presets ∧
    (p.calendar.Overruns k ∨
      (p.calendar.mode = .month ∧ k = .char 'p' ∧ now.date.InFirstMonth))

/-- The keys that a picker takes itself move no cursor. -/
theorem not_overruns_of_own_key {c : Calendar} {k : Key} (h : c.mode = .month)
    (hk : k = .char 'p' ∨ k = .tab) : ¬ c.Overruns k := by
  rintro ⟨s, hs, _⟩
  unfold Calendar.shift? at hs
  rw [h] at hs
  rcases hk with rfl | rfl <;> split at hs <;> cases hs

/-- **When a key fails.** -/
theorem fails_update_iff (p : RangePicker) (now : Instant) (k : Key) :
    Fails (p.update now k) ↔ p.Overruns now k := by
  unfold update Overruns
  split
  next ha => simp_all
  next ha =>
    replace ha : p.active = true := by simpa using ha
    split
    next hm => simp [hm]
    next hm =>
      simp only [ha, hm, ne_eq, not_false_eq_true, true_and]
      split
      next hp =>
        have hnot := not_overruns_of_own_key hp.1 (.inl hp.2)
        have hopen : Fails (p.openPresets now) ↔ now.date.InFirstMonth :=
          (fails_bind_pure_iff _ _).trans (Preset.fails_all_iff now)
        rw [hopen]
        exact ⟨fun h => .inr ⟨hp.1, hp.2, h⟩, fun h => (h.resolve_left hnot).2.2⟩
      next hp =>
        split
        next ht =>
          have hnot := not_overruns_of_own_key ht.1 (.inr ht.2)
          refine iff_of_false (not_fails_ok _) ?_
          rintro (h | ⟨_, hk, _⟩)
          · exact hnot h
          · exact hp ⟨ht.1, hk⟩
        next =>
          rw [updateCalendar_eq, fails_map_iff, Calendar.fails_update_iff]
          constructor
          · exact .inl
          · rintro (h | ⟨hm, hk, _⟩)
            · exact h
            · exact absurd ⟨hm, hk⟩ hp

/-- The picker shows a calendar that shows the days of the first or of the last month. -/
def ShowsEnd (p : RangePicker) : Prop := p.mode ≠ .presets ∧ p.calendar.ShowsEnd

/-- **When a picker cannot be shown.** -/
theorem fails_view_iff (p : RangePicker) (now : Instant) : Fails (p.view now) ↔ p.ShowsEnd := by
  unfold view
  dsimp only
  by_cases hm : p.mode = .presets
  · rw [if_pos hm, fails_bind_pure_iff]
    simp [ShowsEnd, hm]
  · rw [if_neg hm]
    simp only [pure_bind, fails_bind_pure_iff, Calendar.fails_view_iff]
    simp [ShowsEnd, hm]

/-! ## §6. Rows that are not shown. -/

/-- The picker with other rows of named ranges. -/
def withPresets (p : RangePicker) (l : PickList Preset) : RangePicker := { p with presets := l }

/-- The picker without rows of named ranges, unless they are shown. -/
def veiled (p : RangePicker) : RangePicker :=
  if p.mode = .presets then p else p.withPresets {}

theorem mode_veiled (p : RangePicker) : p.veiled.mode = p.mode := by
  unfold veiled
  split <;> rfl

theorem veiled_withPresets {p : RangePicker} (h : p.mode ≠ .presets) (l : PickList Preset) :
    (p.withPresets l).veiled = p.veiled := by
  rw [veiled, veiled, if_neg h, if_neg (show (p.withPresets l).mode ≠ .presets from h)]
  rfl

/-- Pickers that look alike differ at most in rows that are not shown. -/
theorem eq_or_eq_withPresets {p q : RangePicker} (h : q.veiled = p.veiled) :
    q = p ∨ p.mode ≠ .presets ∧ q = p.withPresets q.presets := by
  have hmode : q.mode = p.mode := by rw [← mode_veiled q, h, mode_veiled]
  by_cases hm : p.mode = .presets
  · rw [veiled, veiled, if_pos (hmode.trans hm), if_pos hm] at h
    exact .inl h
  · rw [veiled, veiled, if_neg (hmode ▸ hm), if_neg hm] at h
    have heq := congrArg (fun r : RangePicker => r.withPresets q.presets) h
    exact .inr ⟨hm, heq⟩

/-- What a picker gives does not depend on its rows. -/
theorem eq_of_veiled_eq {p q : RangePicker} (h : q.veiled = p.veiled) :
    q.active = p.active ∧ q.completed = p.completed ∧ q.ends? = p.ends? := by
  rcases eq_or_eq_withPresets h with rfl | ⟨_, heq⟩
  · exact ⟨rfl, rfl, rfl⟩
  · rw [heq]
    exact ⟨rfl, rfl, rfl⟩

/-- Closing and opening a picker does not look at its rows. -/
theorem veiled_deactivate {p q : RangePicker} (h : q.veiled = p.veiled) :
    q.deactivate.veiled = p.deactivate.veiled := by
  rcases eq_or_eq_withPresets h with rfl | ⟨hm, heq⟩
  · rfl
  · rw [heq]
    exact veiled_withPresets (p := p.deactivate) hm _

theorem veiled_reopen {p q : RangePicker} (h : q.veiled = p.veiled) :
    q.reopen.veiled = p.reopen.veiled := by
  rcases eq_or_eq_withPresets h with rfl | ⟨_, heq⟩
  · rfl
  · rw [heq]
    exact veiled_withPresets (p := p.reopen) (by simp [reopen]) _

theorem veiled_renewed (p : RangePicker) (now : Instant) :
    (p.renewed now).veiled = (p.activate now).veiled :=
  veiled_withPresets (p := p.activate now) (by simp [activate, reopen]) _

/-- A choice between pickers with other rows is a choice between pickers. -/
theorem ite_withPresets {c : Prop} [Decidable c] {p q p' q' : RangePicker} {l : PickList Preset}
    (hp : p' = p.withPresets l) (hq : q' = q.withPresets l) :
    (if c then p' else q') = (if c then p else q).withPresets l := by
  split
  · exact hp
  · exact hq

theorem setCalendar_withPresets (p : RangePicker) (l : PickList Preset) (c : Calendar) :
    (p.withPresets l).setCalendar c = (p.setCalendar c).withPresets l :=
  ite_withPresets rfl rfl

theorem startConfirmed_withPresets (p : RangePicker) (l : PickList Preset) :
    (p.withPresets l).startConfirmed = p.startConfirmed.withPresets l := rfl

theorem stopConfirmed_withPresets (p : RangePicker) (l : PickList Preset) :
    (p.withPresets l).stopConfirmed = p.stopConfirmed.withPresets l := by
  unfold stopConfirmed
  simp only [show (p.withPresets l).start = p.start from rfl]
  cases p.start with
  | none => rfl
  | some start => exact ite_withPresets rfl rfl

theorem calendarCancelled_withPresets (p : RangePicker) (l : PickList Preset) :
    (p.withPresets l).calendarCancelled = p.calendarCancelled.withPresets l :=
  ite_withPresets rfl rfl

theorem afterCalendar_withPresets (p : RangePicker) (l : PickList Preset) (c : Calendar) :
    (p.withPresets l).afterCalendar c = (p.afterCalendar c).withPresets l := by
  unfold afterCalendar
  rw [setCalendar_withPresets, startConfirmed_withPresets, stopConfirmed_withPresets,
    calendarCancelled_withPresets]
  exact ite_withPresets (ite_withPresets (ite_withPresets rfl rfl) rfl) rfl

theorem switch_withPresets (p : RangePicker) (l : PickList Preset) :
    (p.withPresets l).switch = p.switch.withPresets l := by
  unfold switch
  rw [show (p.withPresets l).calendar = p.calendar from rfl, setCalendar_withPresets]
  exact setCalendar_withPresets
    { p.setCalendar p.calendar.deactivate with mode := p.mode.opposite } l _

theorem openPresets_withPresets {p : RangePicker} {l : PickList Preset}
    (h : l.setItems = p.presets.setItems) (now : Instant) :
    (p.withPresets l).openPresets now = p.openPresets now := by
  unfold openPresets
  rw [show (p.withPresets l).calendar = p.calendar from rfl, setCalendar_withPresets]
  simp only [show (p.withPresets l).presets = l from rfl, h]
  rfl

/-- No key but the one for the named ranges leads to them. -/
theorem mode_switch (p : RangePicker) : p.switch.mode ≠ .presets := by
  unfold switch
  dsimp only
  rw [mode_setCalendar]
  cases p.mode <;> intro h <;> cases h

theorem mode_afterCalendar {p : RangePicker} (h : p.mode ≠ .presets) (c : Calendar) :
    (p.afterCalendar c).mode ≠ .presets := by
  have hset : (p.setCalendar c).mode ≠ .presets := by rwa [mode_setCalendar]
  unfold afterCalendar
  repeat' split
  · exact nofun
  · unfold stopConfirmed
    dsimp only
    split
    · exact nofun
    · split <;> exact hset
  · unfold calendarCancelled
    split
    · exact nofun
    · exact hset
  · exact hset

/-- **What a key does to a picker does not depend on rows that are not shown.** -/
theorem veiled_update {p q : RangePicker} (h : q.veiled = p.veiled)
    (hl : q.presets.setItems = p.presets.setItems) (now : Instant) (k : Key) :
    (q.update now k).map veiled = (p.update now k).map veiled := by
  rcases eq_or_eq_withPresets h with rfl | ⟨hm, heq⟩
  · rfl
  · -- only the key that shows the rows looks at them, and it fills them first
    rw [heq]
    generalize q.presets = l at hl
    unfold update
    simp only [show (p.withPresets l).active = p.active from rfl,
      show (p.withPresets l).mode = p.mode from rfl,
      show (p.withPresets l).calendar = p.calendar from rfl, if_neg hm]
    split
    · exact congrArg Except.ok (veiled_withPresets hm l)
    · split
      · rw [openPresets_withPresets hl]
      · split
        · rw [switch_withPresets]
          exact congrArg Except.ok (veiled_withPresets (mode_switch p) l)
        · rw [updateCalendar_eq, updateCalendar_eq]
          show ((p.calendar.update now k).map _).map _ = _
          cases p.calendar.update now k with
          | error f => rfl
          | ok c =>
              show Except.ok ((p.withPresets l).afterCalendar c).veiled = _
              rw [afterCalendar_withPresets]
              exact congrArg Except.ok (veiled_withPresets (mode_afterCalendar hm c) l)

end EncodedQuery.RangePicker

/-
  EncodedQuery.Proofs.Picker.Whole
  ────────────────────────────────
  **A PICKED RANGE HAS WHOLE SECONDS.**

  The clock counts microseconds, but what is picked does not: a calendar has
  parts down to the second, and a named range begins and ends with a day.  A
  picker for a range therefore holds whole seconds from key to key.

  Main results: `Preset.isWhole_of_mem_all`, `RangePicker.IsWhole.update`.
-/
import EncodedQuery.Proofs.Fault
import EncodedQuery.Proofs.Picker.Range

namespace EncodedQuery

/-! ## §1. Named ranges. -/

/-- Both ends of a named range are whole seconds. -/
def Preset.IsWhole (preset : Preset) : Prop := preset.start.micro = 0 ∧ preset.stop.micro = 0

/-- **The named ranges have whole seconds.** -/
theorem Preset.isWhole_of_mem_all {now : Instant} {presets : List Preset}
    (h : Preset.all now = .ok presets) : ∀ preset ∈ presets, preset.IsWhole := by
  obtain ⟨days, rfl⟩ := exists_days_of_all h
  intro preset hpreset
  obtain ⟨name, first, last, rfl, _⟩ := days.exists_ofDays preset hpreset
  exact ⟨rfl, rfl⟩

namespace RangePicker

/-! ## §2. Pickers with whole seconds. -/

/-- Everything that the picker holds is a whole second. -/
structure IsWhole (p : RangePicker) : Prop where
  /-- The start. -/
  start : ∀ t ∈ p.start, t.micro = 0
  /-- The end. -/
  stop : ∀ t ∈ p.stop, t.micro = 0
  /-- The named ranges. -/
  presets : ∀ item ∈ p.presets.items, item.value.IsWhole
  /-- The named ranges are listed in order. -/
  listed : p.presets.Valid

theorem isWhole_new (showTime showSeconds allowSameDay : Bool) (now : Instant) :
    (new showTime showSeconds allowSameDay now).IsWhole where
  start := nofun
  stop := nofun
  presets := nofun
  listed := PickList.valid_setItems _ _

variable {p : RangePicker}

/-- Calendars play no part in it, nor does what is being picked. -/
theorem IsWhole.of_eq {q : RangePicker} (h : p.IsWhole) (hstart : q.start = p.start)
    (hstop : q.stop = p.stop) (hpresets : q.presets = p.presets) : q.IsWhole where
  start := hstart ▸ h.start
  stop := hstop ▸ h.stop
  presets := hpresets ▸ h.presets
  listed := hpresets ▸ h.listed

theorem IsWhole.deactivate (h : p.IsWhole) : p.deactivate.IsWhole := h.of_eq rfl rfl rfl

theorem IsWhole.reopen (h : p.IsWhole) : p.reopen.IsWhole := h.of_eq rfl rfl rfl

theorem IsWhole.activate (h : p.IsWhole) (now : Instant) : (p.activate now).IsWhole where
  start := nofun
  stop := nofun
  presets := h.presets
  listed := h.listed

theorem IsWhole.setCalendar (h : p.IsWhole) (c : Calendar) : (p.setCalendar c).IsWhole := by
  unfold RangePicker.setCalendar
  split <;> exact h.of_eq rfl rfl rfl

/-! ## §3. Keys. -/

theorem IsWhole.openPresets {p' : RangePicker} {now : Instant} (h : p.IsWhole)
    (ho : p.openPresets now = .ok p') : p'.IsWhole := by
  unfold RangePicker.openPresets at ho
  obtain ⟨presets, hall, ho⟩ := exists_of_bind_eq_ok ho
  cases ho
  have hclosed := h.setCalendar p.calendar.deactivate
  refine ⟨hclosed.start, hclosed.stop, ?_, PickList.valid_setItems _ _⟩
  intro item hitem
  obtain ⟨preset, hpreset, rfl⟩ := List.mem_map.mp hitem
  exact Preset.isWhole_of_mem_all hall preset hpreset

theorem IsWhole.updatePresets (h : p.IsWhole) (k : Key) : (p.updatePresets k).IsWhole := by
  unfold RangePicker.updatePresets
  split
  · split
    next item hitem =>
      obtain ⟨hstart, hstop⟩ := h.presets item (h.listed.mem_of_selected hitem)
      exact ⟨by rintro t ⟨⟩; exact hstart, by rintro t ⟨⟩; exact hstop, h.presets, h.listed⟩
    next => exact h
  · exact (h.of_eq (q := { p with mode := p.returnMode }) rfl rfl rfl).setCalendar _
  · exact ⟨h.start, h.stop, by rw [PickList.items_handle]; exact h.presets, h.listed.handle k⟩

theorem IsWhole.switch (h : p.IsWhole) : p.switch.IsWhole := by
  have hclosed := h.setCalendar p.calendar.deactivate
  exact (hclosed.of_eq (q := { p.setCalendar p.calendar.deactivate with mode := p.mode.opposite })
    rfl rfl rfl).setCalendar _

/-- A calendar gives a whole second. -/
theorem IsWhole.startConfirmed (h : p.IsWhole) : p.startConfirmed.IsWhole where
  start := by rintro t ⟨⟩; rfl
  stop := h.stop
  presets := h.presets
  listed := h.listed

theorem IsWhole.stopConfirmed (h : p.IsWhole) : p.stopConfirmed.IsWhole := by
  have hstop : ∀ t ∈ some p.stopCalendar.instant, t.micro = 0 := by
    rintro t ⟨⟩
    rfl
  unfold RangePicker.stopConfirmed
  dsimp only
  split
  · exact ⟨h.start, hstop, h.presets, h.listed⟩
  · split
    · exact ⟨h.start, hstop, h.presets, h.listed⟩
    · exact h.of_eq rfl rfl rfl

theorem IsWhole.calendarCancelled (h : p.IsWhole) : p.calendarCancelled.IsWhole := by
  unfold RangePicker.calendarCancelled
  split <;> exact h.of_eq rfl rfl rfl

theorem IsWhole.afterCalendar (h : p.IsWhole) (c : Calendar) : (p.afterCalendar c).IsWhole := by
  have hset := h.setCalendar c
  unfold RangePicker.afterCalendar
  split
  · split
    · split
      · exact hset.startConfirmed
      · exact hset.stopConfirmed
    · exact hset.calendarCancelled
  · exact hset

/-- **No key brings in a fraction of a second.** -/
theorem IsWhole.update {p' : RangePicker} {now : Instant} {k : Key} (h : p.IsWhole)
    (hu : p.update now k = .ok p') : p'.IsWhole := by
  unfold RangePicker.update at hu
  split at hu
  · cases hu; exact h
  · split at hu
    · cases hu; exact h.updatePresets k
    · split at hu
      · exact h.openPresets hu
      · split at hu
        · cases hu; exact h.switch
        · rw [updateCalendar_eq] at hu
          cases hc : p.calendar.update now k with
          | error f => rw [hc] at hu; cases hu
          | ok c =>
              rw [hc] at hu
              cases hu
              exact h.afterCalendar c

/-- The range that is picked has whole seconds. -/
theorem IsWhole.ends (h : p.IsWhole) {a z : Instant} (hends : p.ends? = some (a, z)) :
    a.micro = 0 ∧ z.micro = 0 := by
  unfold ends? at hends
  split at hends <;> cases hends
  next hstart hstop => exact ⟨h.start a hstart, h.stop z hstop⟩

end RangePicker

end EncodedQuery

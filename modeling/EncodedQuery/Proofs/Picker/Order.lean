/-
  EncodedQuery.Proofs.Picker.Order
  ────────────────────────────────
  **HOW A PICKER CLOSES WITH A RANGE.**

  A picker for a range closes with a range in two ways: a named range is taken
  as it is, or the end is confirmed in its calendar after the start was picked.
  Only the second way looks at the order of the two ends, so a named range may
  lie on one day even where that is not allowed.

  Main results:
    • `problem_eq_nil_iff` — when nothing is wrong with the order of two ends,
    • `problem_of_update` — nothing is wrong with a picked range that has no
      name.
-/
import EncodedQuery.Proofs.Picker.Range

namespace EncodedQuery.RangePicker

/-! ## §1. The order of two ends. -/

/-- **Nothing is wrong with two ends** that are in order and, unless that is allowed, do not lie on
one day. -/
theorem problem_eq_nil_iff (allowSameDay : Bool) (start stop : Instant) :
    problem allowSameDay start stop = [] ↔
      start ≤ stop ∧ (allowSameDay = false → start.date ≠ stop.date) := by
  have horder : start ≤ stop ↔ ¬ stop < start :=
    ⟨fun h => Nat.not_lt.mpr h, fun h => Nat.le_of_not_lt h⟩
  rw [horder]
  unfold problem Instant.sameDay
  split
  next hlt => exact iff_of_false (by decide) fun h => h.1 hlt
  next hge =>
    split
    next hsame =>
      simp only [Bool.and_eq_true, Bool.not_eq_true', decide_eq_true_eq] at hsame
      exact iff_of_false (by decide) fun h => h.2 hsame.1 hsame.2
    next hdays =>
      refine iff_of_true rfl ⟨hge, fun hallow heq => hdays ?_⟩
      simp [hallow, heq]

/-! ## §2. Closing. -/

/-- The key takes the named range on which the cursor stands. -/
def TakesPreset (p : RangePicker) (k : Key) : Prop := p.mode = .presets ∧ k = .enter

instance (p : RangePicker) (k : Key) : Decidable (p.TakesPreset k) :=
  inferInstanceAs (Decidable (_ ∧ _))

/-- The picker is closed with a range. -/
def Closed (p : RangePicker) (a z : Instant) : Prop :=
  p.active = false ∧ p.completed = true ∧ p.ends? = some (a, z)

variable {p : RangePicker} {a z : Instant}

/-- An open picker is not closed. -/
theorem not_closed_of_active (h : p.active = true) : ¬ p.Closed a z := by
  rintro ⟨hclosed, _⟩
  rw [h] at hclosed
  cases hclosed

/-- The list of named ranges closes the picker by taking one of them, and by nothing else. -/
theorem takesPreset_of_updatePresets (ha : p.active = true) (hm : p.mode = .presets) {k : Key}
    (h : (p.updatePresets k).Closed a z) : p.TakesPreset k := by
  refine ⟨hm, ?_⟩
  unfold updatePresets at h
  split at h
  · rfl
  · exact absurd h (not_closed_of_active ((active_setCalendar _ _).trans ha))
  · exact absurd h (not_closed_of_active ha)

/-- **Confirming the end closes the picker when nothing is wrong with the order.** -/
theorem problem_of_stopConfirmed (ha : p.active = true) (h : p.stopConfirmed.Closed a z) :
    problem p.allowSameDay a z = [] := by
  unfold stopConfirmed at h
  dsimp only at h
  split at h
  next => exact absurd h (not_closed_of_active ha)
  next start hstart =>
    split at h
    next hok =>
      have hends : some (start, p.stopCalendar.instant) = some (a, z) := by
        rw [← h.2.2]
        simp [ends?, RangePicker.deactivate, hstart]
      cases hends
      exact List.isEmpty_iff.mp hok
    next => exact absurd h (not_closed_of_active ha)

/-- A calendar that a key closes closes the picker with a range when it was the end that was
confirmed. -/
theorem problem_of_afterCalendar (ha : p.active = true) {c : Calendar}
    (h : (p.afterCalendar c).Closed a z) : problem p.allowSameDay a z = [] := by
  have hset : (p.setCalendar c).active = true := (active_setCalendar p c).trans ha
  have hallow : (p.setCalendar c).allowSameDay = p.allowSameDay := by
    unfold setCalendar
    split <;> rfl
  unfold afterCalendar at h
  split at h
  · split at h
    · split at h
      · exact absurd h (not_closed_of_active hset)
      · exact hallow ▸ problem_of_stopConfirmed hset h
    · unfold calendarCancelled at h
      split at h
      · exact absurd h (not_closed_of_active hset)
      · cases h.2.1
  · exact absurd h (not_closed_of_active hset)

/-- **Nothing is wrong with the order of a picked range**, unless it was taken by its name. -/
theorem problem_of_update {p' : RangePicker} {now : Instant} {k : Key} (ha : p.active = true)
    (hu : p.update now k = .ok p') (h : p'.Closed a z) (hk : ¬ p.TakesPreset k) :
    problem p.allowSameDay a z = [] := by
  unfold update at hu
  simp only [ha, Bool.not_true, Bool.false_eq_true, if_false] at hu
  split at hu
  next hm =>
    cases hu
    exact absurd (takesPreset_of_updatePresets ha hm h) hk
  next =>
    split at hu
    · unfold openPresets at hu
      cases hall : Preset.all now with
      | error f => rw [hall] at hu; cases hu
      | ok presets =>
          rw [hall] at hu
          cases hu
          refine absurd h (not_closed_of_active ?_)
          exact (active_setCalendar p _).trans ha
    · split at hu
      · cases hu
        refine absurd h (not_closed_of_active ?_)
        exact (active_setCalendar _ _).trans ((active_setCalendar p _).trans ha)
      · rw [updateCalendar_eq] at hu
        cases hc : p.calendar.update now k with
        | error f => rw [hc] at hu; cases hu
        | ok c =>
            rw [hc] at hu
            cases hu
            exact problem_of_afterCalendar ha h

end EncodedQuery.RangePicker

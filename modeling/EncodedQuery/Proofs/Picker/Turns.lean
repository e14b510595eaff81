/-
  EncodedQuery.Proofs.Picker.Turns
  ────────────────────────────────
  **ONE END AT A TIME.**

  The two calendars of a picker for a range take turns.  The one whose end is
  being picked is open and the other one is closed, and while the named ranges
  are listed both are.  So a calendar that a key closes is always the one whose
  turn it is, and the picker closes in three ways: a named range is taken, the
  end is confirmed and comes after a start that was picked before, or Esc leaves
  the days of the start.

  The start can be changed after the end was picked.  That does not matter,
  because the order of the two is looked at when the end is confirmed, which is
  always the last thing that is done.

  Main results:
    • `step_update` — everything that a key can do to an open picker,
    • `InTurn.step`, `Settled.step` — the calendars take turns, and a range that
      is complete is in order,
    • `one_end_at_a_time` — what holds of a picker after any keys.
-/
import EncodedQuery.Proofs.Picker.Confirm
import EncodedQuery.Proofs.Picker.Escape
import EncodedQuery.Proofs.Picker.Order

namespace EncodedQuery.RangePicker

/-! ## §1. Turns. -/

/-- The calendar of an end is open when the picker is and it is the turn of that end. -/
structure InTurn (p : RangePicker) : Prop where
  /-- The calendar of the start. -/
  start : p.startCalendar.active = (p.active && decide (p.mode = .start))
  /-- The calendar of the end. -/
  stop : p.stopCalendar.active = (p.active && decide (p.mode = .stop))
  /-- The list of named ranges leads back to one of them. -/
  back : p.mode = .presets → p.returnMode ≠ .presets

/-- Both calendars are closed. -/
def IsShut (p : RangePicker) : Prop :=
  p.startCalendar.active = false ∧ p.stopCalendar.active = false

/-- The turn of an end: its calendar opens. -/
def turnTo (p : RangePicker) (m : RangeMode) : RangePicker :=
  let turned := { p with mode := m }
  turned.setCalendar turned.calendar.activate

variable {p q : RangePicker} {c : Calendar} {m : RangeMode}

theorem active_turnTo (p : RangePicker) (m : RangeMode) : (p.turnTo m).active = p.active :=
  active_setCalendar _ _

theorem mode_turnTo (p : RangePicker) (m : RangeMode) : (p.turnTo m).mode = m :=
  mode_setCalendar _ _

/-- When it is the turn of the end already, its calendar opens. -/
theorem turnTo_stop (hm : p.mode = .stop) :
    p.turnTo .stop = { p with stopCalendar := p.stopCalendar.activate } := by
  unfold turnTo
  rw [← hm]
  simp [setCalendar, calendar, hm]

/-- When the calendar whose turn it is closes, both are. -/
theorem InTurn.isShut_setCalendar (h : p.InTurn) (hm : p.mode ≠ .presets) (hc : c.active = false) :
    (p.setCalendar c).IsShut := by
  have hstart := h.start
  have hstop := h.stop
  unfold setCalendar IsShut
  cases hmode : p.mode with
  | start => simp_all
  | stop => simp_all
  | presets => exact absurd hmode hm

/-- The calendar that is shown is the one whose turn it is. -/
theorem InTurn.awake (h : p.InTurn) : p.Awake := by
  refine ⟨fun ha hm => ?_, h.back⟩
  have hstart := h.start
  have hstop := h.stop
  unfold calendar
  cases hmode : p.mode with
  | start => simp_all
  | stop => simp_all
  | presets => exact absurd hmode hm

/-- While the named ranges are listed both are closed. -/
theorem InTurn.isShut (h : p.InTurn) (hm : p.mode = .presets) : p.IsShut := by
  refine ⟨h.start.trans ?_, h.stop.trans ?_⟩ <;> simp [hm]

/-- A turn begins after both were closed. -/
theorem IsShut.turnTo (h : p.IsShut) (ha : p.active = true) (hm : m ≠ .presets) :
    (p.turnTo m).InTurn := by
  obtain ⟨hstart, hstop⟩ := h
  refine ⟨?_, ?_, fun heq => absurd ((mode_turnTo p m).symm.trans heq) hm⟩
  · cases m <;> simp_all [RangePicker.turnTo, setCalendar, calendar, Calendar.activate]
  · cases m <;> simp_all [RangePicker.turnTo, setCalendar, calendar, Calendar.activate]

theorem inTurn_reopen (p : RangePicker) : p.reopen.InTurn := ⟨rfl, rfl, nofun⟩

/-! ## §2. Keys. -/

/-- What a key can do to an open picker whose calendars take turns. -/
inductive KeyStep (p : RangePicker) (now : Instant) (k : Key) : RangePicker → Prop
  /-- Among the named ranges, at most the row changes. -/
  | row {l : PickList Preset} (hm : p.mode = .presets) (hitems : l.items = p.presets.items)
      (hl : p.presets.Valid → l.Valid) : KeyStep p now k { p with presets := l }
  /-- A named range is taken. -/
  | name {item : PickItem Preset} (hm : p.mode = .presets) (hk : k = .enter)
      (hi : p.presets.selected = some item) : KeyStep p now k (p.applyPreset item.value)
  /-- The named ranges are listed. -/
  | list {presets : List Preset} (hm : p.mode ≠ .presets) (hall : Preset.all now = .ok presets) :
      KeyStep p now k
        { p.setCalendar p.calendar.deactivate with
          returnMode := p.mode
          presets := p.presets.setItems (presets.map presetItem)
          mode := .presets }
  /-- Something is entered in the calendar of the end whose turn it is. -/
  | entry {c : Calendar} (hm : p.mode ≠ .presets) (hc : c.active = true) :
      KeyStep p now k (p.setCalendar c)
  /-- It is the turn of an end. -/
  | turn {q : RangePicker} {m : RangeMode} (ha : q.active = true) (hq : q.IsShut)
      (hm : m ≠ .presets) : KeyStep p now k (q.turnTo m)
  /-- The end is confirmed, which completes the range. -/
  | complete {c : Calendar} {start : Instant} (hm : p.mode = .stop) (hs : p.start = some start)
      (ho : problem p.allowSameDay start c.instant = []) :
      KeyStep p now k
        (deactivate { p with
          stopCalendar := c, stop := some c.instant, error := [], completed := true })
  /-- The range is given up: by Esc, on the days of the start. -/
  | cancel {c : Calendar} (hm : p.mode = .start) (hk : k = .esc)
      (hdays : p.startCalendar.mode = .month) :
      KeyStep p now k (deactivate { p with startCalendar := c, completed := false })

section
variable {p' : RangePicker} {now : Instant} {k : Key}

theorem step_updatePresets (h : p.InTurn) (ha : p.active = true) (hm : p.mode = .presets) :
    KeyStep p now k (p.updatePresets k) := by
  unfold updatePresets
  split
  · split
    next item hi => exact .name hm rfl hi
    next => exact .row (l := p.presets) hm rfl id
  · exact .turn ha (h.isShut hm) (h.back hm)
  · exact .row hm (PickList.items_handle _ _) fun hl => hl.handle k

/-- The calendar of the start was closed by confirming it, so it is the turn of the end. -/
theorem step_startConfirmed (ha : q.active = true) (hq : q.IsShut) :
    KeyStep p now k q.startConfirmed := by
  unfold startConfirmed
  dsimp only
  generalize hc : (if q.stopCalendar.selected.isNone then _ else q.stopCalendar) = c
  have hclosed : c.active = false := by
    rw [← hc]
    split
    · split <;> exact hq.2
    · exact hq.2
  exact .turn (q := { q with start := some q.startCalendar.instant, stopCalendar := c })
    (m := .stop) ha ⟨hq.1, hclosed⟩ (by decide)

/-- The calendar of the end opens again with an error. -/
theorem step_stopAgain (ha : p.active = true) (hm : p.mode = .stop)
    (hq : IsShut { p with stopCalendar := c }) {error : Text} :
    KeyStep p now k { p with error, stopCalendar := c.activate } := by
  have hagain := turnTo_stop (p := { p with error, stopCalendar := c }) hm
  have hturn : KeyStep p now k (RangePicker.turnTo { p with error, stopCalendar := c } .stop) :=
    .turn ha hq (by decide)
  rwa [hagain] at hturn

/-- The calendar of the end was closed by confirming it: the range is complete, or it is the turn of
the start that is missing, or of the end again. -/
theorem step_stopConfirmed (ha : p.active = true) (hm : p.mode = .stop)
    (hq : IsShut { p with stopCalendar := c }) :
    KeyStep p now k (stopConfirmed { p with stopCalendar := c }) := by
  unfold stopConfirmed
  dsimp only
  split
  next =>
    exact .turn (q := { p with stopCalendar := c, stop := some c.instant }) (m := .start) ha hq
      (by decide)
  next start hs =>
    split
    next hok => exact .complete hm hs (List.isEmpty_iff.mp hok)
    next =>
      exact step_stopAgain ha hm hq

/-- The calendar of the start was given up, and the range with it. -/
theorem step_startCancelled (hm : p.mode = .start) (hk : k = .esc)
    (hdays : p.startCalendar.mode = .month) :
    KeyStep p now k (calendarCancelled { p with startCalendar := c }) := by
  unfold calendarCancelled
  rw [if_neg (by simp [hm])]
  exact .cancel hm hk hdays

/-- The calendar of the end was given up, so it is the turn of the start again. -/
theorem step_stopCancelled (ha : q.active = true) (hm : q.mode = .stop) (hq : q.IsShut) :
    KeyStep p now k q.calendarCancelled := by
  unfold calendarCancelled
  rw [if_pos hm]
  exact .turn (q := { q with error := [] }) (m := .start) ha hq (by decide)

/-- A key for the calendar of the end whose turn it is. -/
theorem step_afterCalendar (h : p.InTurn) (ha : p.active = true) (hm : p.mode ≠ .presets)
    (hc : p.calendar.update now k = .ok c) : KeyStep p now k (p.afterCalendar c) := by
  have hopen : p.calendar.active = true := h.awake.shown ha hm
  have hset : (p.setCalendar c).active = true := (active_setCalendar p c).trans ha
  unfold afterCalendar
  rw [hopen, Bool.true_and]
  cases hclosed : c.active with
  | true => exact .entry hm hclosed
  | false =>
      -- the key closed the calendar, by confirming it or by Esc
      have hshut := h.isShut_setCalendar hm hclosed
      have hcases := (Calendar.step_update hopen hc).cases_of_closed hopen hclosed
      rw [Bool.not_false, if_pos rfl]
      by_cases hmode : p.mode = .start
      · rw [if_pos hmode]
        rcases hcases with hdone | ⟨hgiven, hk, hdays⟩
        · rw [if_pos hdone]
          exact step_startConfirmed hset hshut
        · rw [calendar, if_pos hmode] at hdays
          rw [hgiven, if_neg Bool.false_ne_true, setCalendar, if_pos hmode]
          exact step_startCancelled hmode hk hdays
      · have hstop : p.mode = .stop := by
          cases heq : p.mode with
          | start => exact absurd heq hmode
          | stop => rfl
          | presets => exact absurd heq hm
        rw [setCalendar, if_neg hmode] at hshut ⊢
        rw [if_neg hmode]
        rcases hcases with hdone | ⟨hgiven, _, _⟩
        · rw [if_pos hdone]
          exact step_stopConfirmed ha hstop hshut
        · rw [hgiven, if_neg Bool.false_ne_true]
          exact step_stopCancelled ha hstop hshut

/-- **Everything that a key can do to an open picker.** -/
theorem step_update (h : p.InTurn) (ha : p.active = true) (hu : p.update now k = .ok p') :
    KeyStep p now k p' := by
  unfold update at hu
  rw [ha, Bool.not_true, if_neg Bool.false_ne_true] at hu
  split at hu
  next hm =>
    cases hu
    exact step_updatePresets h ha hm
  next hm =>
    split at hu
    · obtain ⟨presets, hall, hu⟩ := exists_of_bind_eq_ok hu
      cases hu
      exact .list hm hall
    · split at hu
      · cases hu
        have hopposite : p.mode.opposite ≠ .presets := by cases p.mode <;> decide
        exact .turn (q := p.setCalendar p.calendar.deactivate)
          ((active_setCalendar _ _).trans ha) (h.isShut_setCalendar hm rfl) hopposite
      · rw [updateCalendar_eq] at hu
        cases hc : p.calendar.update now k with
        | error f => rw [hc] at hu; cases hu
        | ok c =>
            rw [hc] at hu
            cases hu
            exact step_afterCalendar h ha hm hc

/-! ## §3. From key to key. -/

/-- **The calendars take turns.** -/
theorem InTurn.step (h : p.InTurn) (ha : p.active = true) (hs : KeyStep p now k p') :
    p'.InTurn := by
  -- a turn begins after both calendars were closed, and the other steps open none
  cases hs with
  | row => exact ⟨h.start, h.stop, h.back⟩
  | name | complete | cancel => exact ⟨rfl, rfl, h.back⟩
  | list hm =>
      obtain ⟨hstart, hstop⟩ := h.isShut_setCalendar (c := p.calendar.deactivate) hm rfl
      refine ⟨hstart.trans ?_, hstop.trans ?_, fun _ => hm⟩ <;> simp
  | @entry c hm hc =>
      have hstart := h.start
      have hstop := h.stop
      refine ⟨?_, ?_, fun heq => absurd ((mode_setCalendar p c).symm.trans heq) hm⟩
      all_goals
        unfold setCalendar
        cases hmode : p.mode <;> simp_all
  | turn ha' hq hm => exact hq.turnTo ha' hm

/-- A closed picker takes no keys. -/
theorem update_of_inactive (ha : p.active = false) (now : Instant) (k : Key) :
    p.update now k = .ok p := by
  simp [RangePicker.update, ha]

theorem InTurn.update (h : p.InTurn) (hu : p.update now k = .ok p') : p'.InTurn := by
  cases ha : p.active with
  | true => exact h.step ha (step_update h ha hu)
  | false =>
      rw [update_of_inactive ha] at hu
      cases hu
      exact h

/-- The key takes a named range. -/
def appliesPreset (p : RangePicker) (k : Key) : Bool :=
  p.active && decide (p.TakesPreset k) && p.presets.selected.isSome

/-- A range that is complete is in order; `named` says whether it was taken by its name. -/
structure Settled (p : RangePicker) (named : Bool) : Prop where
  /-- The named ranges that are listed are in order. -/
  rows : p.mode = .presets →
    p.presets.Valid ∧ ∀ item ∈ p.presets.items, item.value.start ≤ item.value.stop
  /-- So is the range. -/
  ends : p.active = false → p.completed = true → ∃ a z, p.start = some a ∧ p.stop = some z ∧
    a ≤ z ∧ (p.allowSameDay = false → named = false → a.date ≠ z.date)

variable {named : Bool}

/-- A picker that shows a calendar is not done yet. -/
theorem settled_of_active (ha : p.active = true) (hm : p.mode ≠ .presets) : p.Settled named where
  rows heq := absurd heq hm
  ends hclosed := by
    rw [ha] at hclosed
    cases hclosed

/-- **A range that is complete is in order.** -/
theorem Settled.step (h : p.Settled named) (ha : p.active = true) (hs : KeyStep p now k p') :
    p'.Settled (named || p.appliesPreset k) := by
  have hopen : p.active ≠ false := ne_false_of_eq_true ha
  cases hs with
  | row hm hitems hl =>
      obtain ⟨hvalid, hordered⟩ := h.rows hm
      exact ⟨fun _ => ⟨hl hvalid, hitems ▸ hordered⟩, fun hclosed => absurd hclosed hopen⟩
  | @name item hm hk hi =>
      have hnamed : p.appliesPreset k = true := by simp [appliesPreset, TakesPreset, ha, hm, hk, hi]
      obtain ⟨hvalid, hordered⟩ := h.rows hm
      refine ⟨fun _ => ⟨hvalid, hordered⟩, fun _ _ => ⟨_, _, rfl, rfl,
        hordered item (hvalid.mem_of_selected hi), fun _ hunnamed => ?_⟩⟩
      simp [hnamed] at hunnamed
  | @list presets hm hall =>
      -- whatever the clock says, every named range begins before it ends
      refine ⟨fun _ => ⟨PickList.valid_setItems _ _, ?_⟩, fun hclosed => absurd ?_ hopen⟩
      · intro item hitem
        obtain ⟨preset, hpreset, rfl⟩ := List.mem_map.mp hitem
        exact Preset.start_le_stop_of_mem_all hall preset hpreset
      · exact (active_setCalendar p _).symm.trans hclosed
  | @entry c hm =>
      refine settled_of_active ((active_setCalendar p c).trans ha) ?_
      rwa [mode_setCalendar]
  | @turn q m ha' _ hm =>
      refine settled_of_active ((active_turnTo q m).trans ha') ?_
      rwa [mode_turnTo]
  | complete hm hstart ho =>
      -- the order was looked at last, whatever was changed before
      obtain ⟨hle, hdays⟩ := (problem_eq_nil_iff _ _ _).mp ho
      refine ⟨fun heq => ?_, fun _ _ => ⟨_, _, hstart, rfl, hle, fun hallow _ => hdays hallow⟩⟩
      rw [show p.mode = .presets from heq] at hm
      cases hm
  | cancel hm =>
      refine ⟨fun heq => ?_, nofun⟩
      rw [show p.mode = .presets from heq] at hm
      cases hm

theorem Settled.update (ht : p.InTurn) (h : p.Settled named) (hu : p.update now k = .ok p') :
    p'.Settled (named || p.appliesPreset k) := by
  cases ha : p.active with
  | true => exact h.step ha (step_update ht ha hu)
  | false =>
      rw [update_of_inactive ha] at hu
      cases hu
      rwa [appliesPreset, ha, Bool.false_and, Bool.false_and, Bool.or_false]

/-- **How an open picker closes without a range.** -/
theorem KeyStep.esc_of_closed (hs : KeyStep p now k p') (ha : p.active = true)
    (hclosed : p'.active = false) (hgiven : p'.completed = false) :
    k = .esc ∧ p.mode = .start ∧ p.startCalendar.mode = .month := by
  cases hs with
  | cancel hm hk hdays => exact ⟨hk, hm, hdays⟩
  | name | complete => cases hgiven
  | row =>
      rw [show p.active = false from hclosed] at ha
      cases ha
  | list | entry =>
      rw [(active_setCalendar p _).symm.trans hclosed] at ha
      cases ha
  | turn ha' =>
      rw [active_turnTo, ha'] at hclosed
      cases hclosed

end

/-! ## §4. After any keys. -/

/-- The picker after a key, and whether a named range was taken by then. -/
def press (s : RangePicker × Bool) (e : Instant × Key) : Except Fault (RangePicker × Bool) := do
  return (← s.1.update e.1 e.2, s.2 || s.1.appliesPreset e.2)

/-- **A picker after any keys**, whatever its make and whatever was done with it before it was
opened.  While it is open, the calendar is open whose turn it is, and no other.  When it is closed
with a range, both ends are there and in order, and unless it was taken by its name it does not lie
on one day where that is not allowed.  Without a range it is closed by Esc on the days of the start
alone. -/
theorem one_end_at_a_time (p : RangePicker) (opened : Instant) (keep : Bool)
    {keys : List (Instant × Key)} {q : RangePicker} {named : Bool}
    (h : keys.foldlM press (if keep then p.reopen else p.activate opened, false) =
      .ok (q, named)) :
    (q.active = true →
      (q.startCalendar.active = true ↔ q.mode = .start) ∧
      (q.stopCalendar.active = true ↔ q.mode = .stop)) ∧
    (q.active = false → q.completed = true →
      ∃ a z, q.start = some a ∧ q.stop = some z ∧ a ≤ z ∧
        (p.allowSameDay = false → named = false → a.date ≠ z.date)) ∧
    (q.active = true → ∀ now k q', q.update now k = .ok q' →
      q'.active = false → q'.completed = false →
        k = .esc ∧ q.mode = .start ∧ q.startCalendar.mode = .month) := by
  have hopened : ∀ o : RangePicker, o = p.reopen ∨ o = p.activate opened →
      o.InTurn ∧ o.Settled false ∧ p.SameMake o := by
    rintro o (rfl | rfl)
    · exact ⟨inTurn_reopen p, settled_of_active rfl nofun, sameMake_reopen p⟩
    · exact ⟨inTurn_reopen _, settled_of_active rfl nofun, sameMake_activate p opened⟩
  have hstart : (if keep then p.reopen else p.activate opened) = p.reopen ∨
      (if keep then p.reopen else p.activate opened) = p.activate opened := by
    cases keep
    · exact .inr rfl
    · exact .inl rfl
  obtain ⟨hturn, hsettled, hmake⟩ : q.InTurn ∧ q.Settled named ∧ p.SameMake q := by
    refine of_foldlM
      (P := fun s : RangePicker × Bool => s.1.InTurn ∧ s.1.Settled s.2 ∧ p.SameMake s.1)
      ?_ (hopened _ hstart) h
    rintro ⟨c, taken⟩ s' ⟨now, k⟩ ⟨hturn, hsettled, hmake⟩ hpress
    obtain ⟨c', hu, hs'⟩ := exists_of_bind_eq_ok hpress
    cases hs'
    exact ⟨hturn.update hu, hsettled.update hturn hu, hmake.trans (sameMake_update hu)⟩
  refine ⟨fun ha => ?_, ?_, fun ha now k q' hu hclosed hgiven => ?_⟩
  · rw [hturn.start, hturn.stop, ha]
    simp
  · rw [← hmake.allowSameDay]
    exact hsettled.ends
  · exact (step_update hturn ha hu).esc_of_closed ha hclosed hgiven

/-- Where a range must not lie on one day, the 15th of March is confirmed as its start and refused
as its end; the day after completes it. -/
theorem one_end_at_a_time_in_march :
    let march : Instant := .startOf ⟨2024, 3, 15, by decide⟩
    ∃ q, ([Key.enter, .enter, .enter, .enter, .right, .enter, .enter].map
        fun k => (march, k)).foldlM press ((new true true false march).activate march, false) =
          .ok (q, false) ∧
      q.active = false ∧ q.completed = true ∧
      ∃ a z, q.start = some a ∧ q.stop = some z ∧ a ≤ z ∧ a.date ≠ z.date := by
  intro march
  obtain ⟨⟨q, named⟩, hrun, hclosed⟩ := exists_ok_of_any
    (x := ([Key.enter, .enter, .enter, .enter, .right, .enter, .enter].map
      fun k => (march, k)).foldlM press ((new true true false march).activate march, false))
    (p := fun s : RangePicker × Bool =>
      decide (s.1.active = false ∧ s.1.completed = true ∧ s.2 = false))
    (by decide +kernel)
  obtain ⟨hactive, hdone, rfl⟩ := of_decide_eq_true hclosed
  obtain ⟨-, hends, -⟩ := one_end_at_a_time (new true true false march) march false hrun
  obtain ⟨a, z, ha, hz, hle, hdays⟩ := hends hactive hdone
  exact ⟨q, hrun, hactive, hdone, a, z, ha, hz, hle, hdays rfl rfl⟩

end EncodedQuery.RangePicker

/-
  EncodedQuery.Proofs.Picker.Confirm
  ──────────────────────────────────
  **HOW A CALENDAR CLOSES.**

  Enter on the page of days closes a calendar that has no time, and otherwise
  leads to the page of the time, where Enter closes it.  Nothing on that page
  moves the cursor, and it can also be opened by the way without a day being
  confirmed, where Enter only leads back.  So a calendar that closes with a
  choice has its cursor on the chosen day, which can be confirmed.

  Main results:
    • `step_update` — everything that a key can do to an open calendar,
    • `Step.cases_of_closed` — how it can close,
    • `Firm.update` — a choice that is complete was confirmed.
-/
import EncodedQuery.Proofs.Picker.Calendar

namespace EncodedQuery

/-! ## §1. Parts of the time. -/

namespace TimeSlot

/-- The focus moves among the parts that are shown. -/
theorem before_mem_shown (seconds : Bool) (s : TimeSlot) : s.before ∈ shown seconds := by
  cases s <;> cases seconds <;> decide

theorem after_mem_shown (seconds : Bool) (s : TimeSlot) : s.after seconds ∈ shown seconds := by
  cases s <;> cases seconds <;> decide

theorem turn_mem_shown (seconds : Bool) (s : TimeSlot) : s.turn seconds ∈ shown seconds := by
  cases s <;> cases seconds <;> decide

end TimeSlot

namespace Calendar

/-! ## §2. Keys. -/

/-- What a key can do to an open calendar. -/
inductive Step (c : Calendar) (now : Instant) (k : Key) : Calendar → Prop
  /-- At most the time is entered, or its focus moved to a part that is shown. -/
  | stay {time : DayTime} {focus : TimeSlot} {error : Text}
      (hf : focus = c.focus ∨ focus ∈ TimeSlot.shown c.showSeconds) :
      Step c now k { c with time, focus, error }
  /-- The cursor moves, but not on the page of the time. -/
  | move {cursor : Date} {error : Text} (hm : c.mode ≠ .time) :
      Step c now k { c with cursor, error }
  /-- The current instant becomes the choice, on the page of days. -/
  | pickNow (hm : c.mode = .month) : Step c now k (c.pickNow now)
  /-- A page is turned; the page of the time is not reached by confirming a day. -/
  | turn {mode : CalendarMode} {confirming : Bool} (h : mode ≠ .time ∨ confirming = false) :
      Step c now k { c with mode, confirming }
  /-- The day under the cursor is confirmed, and its time is asked for. -/
  | choose (hr : c.inRange c.cursor = true) :
      Step c now k
        { c with selected := some c.cursor, error := [], mode := .time, confirming := true }
  /-- The day under the cursor is confirmed, which completes the choice. -/
  | pick (hr : c.inRange c.cursor = true) :
      Step c now k
        { c with selected := some c.cursor, error := [], completed := true, active := false }
  /-- The time of a confirmed day is confirmed, which completes the choice. -/
  | complete (hm : c.mode = .time) (hc : c.confirming = true) :
      Step c now k { c with completed := true, active := false }
  /-- The choice is given up: by Esc, on the page of days. -/
  | cancel (hm : c.mode = .month) (hk : k = .esc) :
      Step c now k { c with completed := false, active := false }

section
variable {c c' : Calendar} {now : Instant} {k : Key}

theorem exists_of_move {n : Int} (h : c.move n = .ok c') :
    ∃ d, c' = { c with cursor := d, error := [] } := by
  obtain ⟨d, _, h⟩ := exists_of_bind_eq_ok h
  cases h
  exact ⟨d, rfl⟩

theorem exists_of_moveMonths {n : Int} (h : c.moveMonths n = .ok c') :
    ∃ d, c' = { c with cursor := d } := by
  obtain ⟨d, _, h⟩ := exists_of_bind_eq_ok h
  cases h
  exact ⟨d, rfl⟩

theorem exists_of_moveYears {n : Int} (h : c.moveYears n = .ok c') :
    ∃ d, c' = { c with cursor := d } :=
  exists_of_moveMonths h

/-- A key that does nothing. -/
theorem step_self : Step c now k c := .stay (.inl rfl)

theorem step_confirmDay : Step c now k c.confirmDay := by
  unfold confirmDay
  dsimp only
  split
  · exact .stay (.inl rfl)
  next hr =>
    replace hr : c.inRange c.cursor = true := by simpa using hr
    split
    · exact .choose hr
    · exact .pick hr

theorem step_updateMonth (hm : c.mode = .month) (h : c.updateMonth now k = .ok c') :
    Step c now k c' := by
  have hdays : c.mode ≠ .time := by rw [hm]; decide
  unfold updateMonth at h
  split at h
  case h_1 | h_2 | h_3 | h_4 | h_5 | h_6 | h_7 | h_8 =>
    obtain ⟨d, rfl⟩ := exists_of_move h
    exact .move hdays
  case h_9 | h_10 | h_11 | h_12 =>
    obtain ⟨d, rfl⟩ := exists_of_moveMonths h
    exact .move hdays
  case h_13 =>
    cases h
    exact .turn (.inl (by decide))
  case h_14 =>
    cases h
    split
    · exact .turn (.inr rfl)
    · exact step_self
  case h_15 =>
    cases h
    exact .pickNow hm
  case h_16 | h_17 =>
    cases h
    exact step_confirmDay
  case h_18 =>
    cases h
    exact .cancel hm rfl
  case h_19 =>
    cases h
    exact step_self

theorem step_updateYear (hm : c.mode = .year) (h : c.updateYear k = .ok c') :
    Step c now k c' := by
  have hyears : c.mode ≠ .time := by rw [hm]; decide
  unfold updateYear at h
  split at h
  case h_1 | h_2 | h_3 | h_4 | h_5 | h_6 | h_7 | h_8 =>
    obtain ⟨d, rfl⟩ := exists_of_moveYears h
    exact .move hyears
  case h_9 | h_10 | h_11 | h_12 =>
    cases h
    exact .turn (.inl (by decide))
  case h_13 =>
    cases h
    exact step_self

theorem step_enterDigit (digit : Nat) : Step c now k (c.enterDigit digit) := by
  unfold enterDigit
  dsimp only
  split <;> exact .stay (.inl rfl)

theorem step_updateTime (hm : c.mode = .time) : Step c now k (c.updateTime k) := by
  unfold updateTime
  split
  case h_1 | h_2 => exact .stay (.inr (TimeSlot.before_mem_shown _ _))
  case h_3 | h_4 => exact .stay (.inr (TimeSlot.after_mem_shown _ _))
  case h_5 => exact .stay (.inr (TimeSlot.turn_mem_shown _ _))
  case h_6 | h_7 | h_8 | h_9 => exact .stay (.inl rfl)
  case h_10 =>
    split
    next hc => exact .complete hm hc
    next => exact .turn (.inl (by decide))
  case h_11 => exact .turn (.inr rfl)
  case h_12 =>
    split
    · exact step_enterDigit _
    · exact step_self

/-- **Everything that a key can do to an open calendar.** -/
theorem step_update (ha : c.active = true) (h : c.update now k = .ok c') : Step c now k c' := by
  unfold update at h
  rw [ha, Bool.not_true, if_neg Bool.false_ne_true] at h
  split at h
  next hm => exact step_updateMonth hm h
  next hm => exact step_updateYear hm h
  next hm =>
    cases h
    exact step_updateTime hm

/-- A closed calendar takes no keys. -/
theorem update_of_inactive (ha : c.active = false) (now : Instant) (k : Key) :
    c.update now k = .ok c := by
  simp [update, ha]

/-! ## §3. Closing. -/

/-- **How an open calendar closes**: with a choice, or by Esc on the page of days. -/
theorem Step.cases_of_closed (hs : Step c now k c') (ha : c.active = true)
    (hclosed : c'.active = false) :
    c'.completed = true ∨ (c'.completed = false ∧ k = .esc ∧ c.mode = .month) := by
  cases hs with
  | stay | move | turn | choose | pickNow =>
      rw [show c.active = false from hclosed] at ha
      cases ha
  | pick | complete => exact .inl rfl
  | cancel hm hk => exact .inr ⟨rfl, hk, hm⟩

/-- The day under the cursor is the chosen one, and it can be confirmed. -/
def Chosen (c : Calendar) : Prop := c.selected = some c.cursor ∧ c.inRange c.cursor = true

/-- What is complete was confirmed, and so was what a time is asked for in order to complete it. -/
structure Firm (c : Calendar) : Prop where
  /-- The time of a confirmed day is asked for. -/
  asked : c.active = true → c.mode = .time → c.confirming = true → c.Chosen
  /-- The choice is complete. -/
  complete : c.active = false → c.completed = true → c.Chosen

theorem firm_activate (c : Calendar) : c.activate.Firm := ⟨nofun, nofun⟩

theorem Firm.step (h : c.Firm) (ha : c.active = true) (hs : Step c now k c') : c'.Firm := by
  have hopen : c.active ≠ false := ne_false_of_eq_true ha
  cases hs with
  | stay => exact ⟨h.asked, fun hclosed => absurd hclosed hopen⟩
  -- where the cursor moves, no time is asked for
  | move hm => exact ⟨fun _ htime => absurd htime hm, fun hclosed => absurd hclosed hopen⟩
  | pickNow hm =>
      refine ⟨fun _ htime => ?_, fun hclosed => absurd hclosed hopen⟩
      rw [show c.mode = .time from htime] at hm
      cases hm
  | @turn mode confirming hturn =>
      refine ⟨fun _ htime hasked => ?_, fun hclosed => absurd hclosed hopen⟩
      rcases hturn with hmode | hnot
      · exact absurd htime hmode
      · rw [show confirming = true from hasked] at hnot
        cases hnot
  | choose hr => exact ⟨fun _ _ _ => ⟨rfl, hr⟩, fun hclosed => absurd hclosed hopen⟩
  | pick hr => exact ⟨nofun, fun _ _ => ⟨rfl, hr⟩⟩
  | complete hm hc => exact ⟨nofun, fun _ _ => h.asked ha hm hc⟩
  | cancel => exact ⟨nofun, nofun⟩

/-- **No key completes what was not confirmed.** -/
theorem Firm.update (h : c.Firm) (hu : c.update now k = .ok c') : c'.Firm := by
  cases ha : c.active with
  | true => exact h.step ha (step_update ha hu)
  | false =>
      rw [update_of_inactive ha] at hu
      cases hu
      exact h

end

end Calendar

end EncodedQuery

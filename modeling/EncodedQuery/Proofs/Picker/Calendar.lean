/-
  EncodedQuery.Proofs.Picker.Calendar
  ───────────────────────────────────
  **A CALENDAR FROM KEY TO KEY.**

  Keys move the cursor, turn pages, enter a time and close a calendar.  How it
  was made — heading, parts of the time, days that can be confirmed — they
  leave alone, so a calendar that is opened afresh shows nothing of what was
  done with it before.

  Main results:
    • `sameMake_update` — no key changes how a calendar was made,
    • `fails_update_iff` — a key fails exactly when it moves the cursor out of
      the calendar,
    • `fails_view_iff` — a page of days cannot be shown exactly at the ends of
      the calendar.
-/
import EncodedQuery.Picker.Calendar
import EncodedQuery.Proofs.Date.Page

namespace EncodedQuery.Calendar

/-! ## §1. How a calendar was made. -/

/-- Both calendars were made in the same way. -/
structure SameMake (c c' : Calendar) : Prop where
  /-- The heading. -/
  title : c'.title = c.title
  /-- A time is picked too. -/
  showTime : c'.showTime = c.showTime
  /-- The time has seconds. -/
  showSeconds : c'.showSeconds = c.showSeconds
  /-- The first day that can be confirmed. -/
  first : c'.first = c.first
  /-- The last one. -/
  last : c'.last = c.last

theorem SameMake.refl (c : Calendar) : SameMake c c := ⟨rfl, rfl, rfl, rfl, rfl⟩

theorem SameMake.trans {c c' c'' : Calendar} (h : SameMake c c') (h' : SameMake c' c'') :
    SameMake c c'' :=
  ⟨h'.title.trans h.title, h'.showTime.trans h.showTime, h'.showSeconds.trans h.showSeconds,
    h'.first.trans h.first, h'.last.trans h.last⟩

/-- The functions of a calendar that take no key leave its make alone. -/
theorem sameMake_confirmDay (c : Calendar) : SameMake c c.confirmDay := by
  unfold confirmDay
  dsimp only
  split
  · exact ⟨rfl, rfl, rfl, rfl, rfl⟩
  · split <;> exact ⟨rfl, rfl, rfl, rfl, rfl⟩

theorem sameMake_move {c c' : Calendar} {n : Int} (h : c.move n = .ok c') : SameMake c c' := by
  unfold move at h
  cases hd : c.cursor.plusDays n with
  | error f => rw [hd] at h; cases h
  | ok d => rw [hd] at h; cases h; exact ⟨rfl, rfl, rfl, rfl, rfl⟩

theorem sameMake_moveMonths {c c' : Calendar} {n : Int} (h : c.moveMonths n = .ok c') :
    SameMake c c' := by
  unfold moveMonths at h
  cases hd : c.cursor.plusMonths n with
  | error f => rw [hd] at h; cases h
  | ok d => rw [hd] at h; cases h; exact ⟨rfl, rfl, rfl, rfl, rfl⟩

theorem sameMake_moveYears {c c' : Calendar} {n : Int} (h : c.moveYears n = .ok c') :
    SameMake c c' := by
  unfold moveYears at h
  cases hd : c.cursor.plusYears n with
  | error f => rw [hd] at h; cases h
  | ok d => rw [hd] at h; cases h; exact ⟨rfl, rfl, rfl, rfl, rfl⟩

theorem sameMake_updateMonth {c c' : Calendar} {now : Instant} {k : Key}
    (h : c.updateMonth now k = .ok c') : SameMake c c' := by
  unfold updateMonth at h
  split at h
  all_goals first
    | exact sameMake_move h
    | exact sameMake_moveMonths h
    | (injection h with h
       rw [← h]
       first
       | exact sameMake_confirmDay c
       | exact ⟨rfl, rfl, rfl, rfl, rfl⟩
       | (split <;> exact ⟨rfl, rfl, rfl, rfl, rfl⟩))

theorem sameMake_updateYear {c c' : Calendar} {k : Key} (h : c.updateYear k = .ok c') :
    SameMake c c' := by
  unfold updateYear at h
  split at h
  all_goals first
    | exact sameMake_moveYears h
    | (cases h; exact ⟨rfl, rfl, rfl, rfl, rfl⟩)

theorem sameMake_enterDigit (c : Calendar) (digit : Nat) : SameMake c (c.enterDigit digit) := by
  unfold enterDigit
  dsimp only
  split <;> exact ⟨rfl, rfl, rfl, rfl, rfl⟩

theorem sameMake_updateTime (c : Calendar) (k : Key) : SameMake c (c.updateTime k) := by
  unfold updateTime
  split
  all_goals first
    | exact ⟨rfl, rfl, rfl, rfl, rfl⟩
    | (split <;> first | exact sameMake_enterDigit c _ | exact ⟨rfl, rfl, rfl, rfl, rfl⟩)

/-- **No key changes how a calendar was made.** -/
theorem sameMake_update {c c' : Calendar} {now : Instant} {k : Key}
    (h : c.update now k = .ok c') : SameMake c c' := by
  unfold update at h
  split at h
  · cases h
    exact SameMake.refl c
  · split at h
    · exact sameMake_updateMonth h
    · exact sameMake_updateYear h
    · cases h
      exact sameMake_updateTime c k

/-! ## §2. Opening afresh. -/

/-- The calendar opened afresh under a heading, with or without a time. -/
def renewed (c : Calendar) (now : Instant) (title : Text) (showTime : Bool) : Calendar :=
  activate (reset { c with title, showTime } now)

/-- Calendars of one make are the same once they are opened afresh. -/
theorem SameMake.renewed_eq {c c' : Calendar} (h : SameMake c c') : c'.renewed = c.renewed := by
  funext now title showTime
  simp [renewed, reset, activate, h.showSeconds, h.first, h.last]

/-- Calendars of one make are the same once their choice is forgotten and they are closed. -/
theorem SameMake.reset_eq {c c' : Calendar} (h : SameMake c c') (now : Instant) :
    (c'.reset now).deactivate = (c.reset now).deactivate ∧
      (c'.reset now).activate = (c.reset now).activate := by
  simp [reset, deactivate, activate, h.title, h.showTime, h.showSeconds, h.first, h.last]

/-! ## §3. Moving the cursor. -/

/-- A move of the cursor. -/
inductive Shift where
  /-- So many days further. -/
  | days (n : Int)
  /-- So many months further. -/
  | months (n : Int)

/-- The move leads from a day out of the calendar: its number or its year would be none. -/
def Shift.Leaves (s : Shift) (d : Date) : Prop :=
  match s with
  | .days n => d.ordinal + n < 1 ∨ (Date.lastOrdinal : Int) < d.ordinal + n
  | .months n => d.monthIndex + n < 12 ∨ 120000 ≤ d.monthIndex + n

/-- The move that a key asks for on the page of days. -/
def dayShift? : Key → Option Shift
  | .left | .char 'h' => some (.days (-1))
  | .right | .char 'l' => some (.days 1)
  | .up | .char 'k' => some (.days (-7))
  | .down | .char 'j' => some (.days 7)
  | .char 'm' | .pageUp => some (.months (-1))
  | .char 'M' | .pageDown => some (.months 1)
  | _ => none

/-- The move that a key asks for on the page of years. -/
def yearShift? : Key → Option Shift
  | .left | .char 'h' => some (.months (12 * (-1)))
  | .right | .char 'l' => some (.months (12 * 1))
  | .up | .char 'k' => some (.months (12 * (-(yearColumns : Int))))
  | .down | .char 'j' => some (.months (12 * (yearColumns : Int)))
  | _ => none

/-- The move that a key asks for. -/
def shift? (c : Calendar) (k : Key) : Option Shift :=
  if !c.active then none
  else match c.mode with
    | .month => dayShift? k
    | .year => yearShift? k
    | .time => none

/-- The key moves the cursor out of the calendar. -/
def Overruns (c : Calendar) (k : Key) : Prop := ∃ s, c.shift? k = some s ∧ s.Leaves c.cursor

theorem fails_move_iff (c : Calendar) (n : Int) :
    Fails (c.move n) ↔ (Shift.days n).Leaves c.cursor :=
  (fails_bind_pure_iff _ _).trans (Date.fails_plusDays_iff _ _)

theorem fails_moveMonths_iff (c : Calendar) (n : Int) :
    Fails (c.moveMonths n) ↔ (Shift.months n).Leaves c.cursor :=
  (fails_bind_pure_iff _ _).trans (Date.fails_plusMonths_iff _ _)

theorem fails_moveYears_iff (c : Calendar) (n : Int) :
    Fails (c.moveYears n) ↔ (Shift.months (12 * n)).Leaves c.cursor :=
  (fails_bind_pure_iff _ _).trans (Date.fails_plusMonths_iff _ _)

theorem fails_updateMonth_iff (c : Calendar) (now : Instant) (k : Key) :
    Fails (c.updateMonth now k) ↔ ∃ s, dayShift? k = some s ∧ s.Leaves c.cursor := by
  unfold updateMonth dayShift?
  split <;> simp [fails_move_iff, fails_moveMonths_iff]

theorem fails_updateYear_iff (c : Calendar) (k : Key) :
    Fails (c.updateYear k) ↔ ∃ s, yearShift? k = some s ∧ s.Leaves c.cursor := by
  unfold updateYear yearShift?
  split <;> simp [fails_moveYears_iff]

/-- **A key fails exactly when it moves the cursor out of the calendar.** -/
theorem fails_update_iff (c : Calendar) (now : Instant) (k : Key) :
    Fails (c.update now k) ↔ c.Overruns k := by
  unfold update Overruns shift?
  split
  · simp
  · cases c.mode with
    | month => exact fails_updateMonth_iff c now k
    | year => exact fails_updateYear_iff c k
    | time => simp

/-! ## §4. Showing a page. -/

/-- The calendar shows the days of the first or of the last month. -/
def ShowsEnd (c : Calendar) : Prop :=
  c.mode ≠ .year ∧ (c.cursor.InFirstMonth ∨ c.cursor.InLastMonth)

/-- **A calendar cannot be shown exactly when it shows the days of the first or the last month.** -/
theorem fails_view_iff (c : Calendar) (now : Instant) : Fails (c.view now) ↔ c.ShowsEnd := by
  have hpage : Fails (c.monthView now) ↔ c.cursor.InFirstMonth ∨ c.cursor.InLastMonth :=
    (fails_bind_pure_iff _ _).trans (Date.fails_monthGrid_iff _)
  unfold view
  dsimp only
  by_cases hm : c.mode = .year
  · rw [if_pos hm, fails_bind_pure_iff]
    simp [ShowsEnd, hm]
  · rw [if_neg hm, fails_bind_pure_iff, hpage]
    simp [ShowsEnd, hm]

end EncodedQuery.Calendar

/-
  EncodedQuery.Proofs.Picker.Entry
  ────────────────────────────────
  **ENTERING A TIME.**

  The parts of a time are typed digit by digit, stepped up and down, or set from
  outside.  Here they are plain numbers, which nothing keeps within the limits
  of a clock but the arithmetic of the keys: a digit is refused where it would
  lead beyond, and a step starts over.  These numbers are the time that the
  calendar holds, whatever is done with it, so no number is ever cut to fit.

  Main results:
    • `numbers_updateTime`, `InStep.perform` — the numbers go along with the
      calendar,
    • `instant_of_calls` — what holds of a calendar at any time, and of the day
      that it closes with.
-/
import EncodedQuery.Proofs.Picker.Confirm
import Mathlib.Logic.Function.Basic

namespace EncodedQuery

/-! ## §1. Plain numbers. -/

/-- The parts of a time as plain numbers, without limits. -/
abbrev TimeNumbers := TimeSlot → Int

/-- The time of an instant in plain numbers. -/
def TimeNumbers.ofInstant (t : Instant) : TimeNumbers
  | .hour => t.hour
  | .minute => t.minute
  | .second => t.second

/-- The number that counts for a part: parts that are not shown are zero. -/
def TimeNumbers.counted (r : TimeNumbers) (showTime showSeconds : Bool) (slot : TimeSlot) : Nat :=
  if showTime = true ∧ slot ∈ TimeSlot.shown showSeconds then (r slot).toNat else 0

/-- The number that a key writes in place of `n`, if it writes one: one more, one less, or a digit
pushed in from the right. -/
def TimeSlot.written? (slot : TimeSlot) (n : Int) (k : Key) : Option Int :=
  if k = .up ∨ k = .char 'k' then some ((n + 1) % slot.limit)
  else if k = .down ∨ k = .char 'j' then some ((n - 1) % slot.limit)
  else match k.digit? with
    | some d => if n % 10 * 10 + d < slot.limit then some (n % 10 * 10 + d) else none
    | none => none

namespace DayTime

/-- The time in plain numbers. -/
def numbers (t : DayTime) : TimeNumbers := fun slot => t.get slot

theorem numbers_bounds (t : DayTime) (slot : TimeSlot) :
    0 ≤ t.numbers slot ∧ t.numbers slot < slot.limit := by
  refine ⟨Int.natCast_nonneg _, ?_⟩
  cases slot
  · exact Int.ofNat_lt.mpr t.hour.isLt
  · exact Int.ofNat_lt.mpr t.minute.isLt
  · exact Int.ofNat_lt.mpr t.second.isLt

theorem numbers_ofInstant (t : Instant) : (ofInstant t).numbers = TimeNumbers.ofInstant t := by
  funext slot
  cases slot <;> rfl

/-- A part that is set is taken round the clock, and the others stay. -/
theorem numbers_set (t : DayTime) (slot : TimeSlot) (n : Int) :
    (t.set slot n).numbers = Function.update t.numbers slot (n % slot.limit) := by
  have hfin : ∀ m : Nat, 0 < m → (((n % m).toNat % m : Nat) : Int) = n % m := by
    intro m hm
    have hlow := Int.emod_nonneg n (b := m) (by omega)
    have hhigh := Int.emod_lt_of_pos n (b := m) (by omega)
    rw [Nat.mod_eq_of_lt (by omega), Int.toNat_of_nonneg hlow]
  funext part
  by_cases hpart : part = slot
  · rw [hpart, Function.update_self]
    cases slot
    · exact hfin 24 (by decide)
    · exact hfin 60 (by decide)
    · exact hfin 60 (by decide)
  · rw [Function.update_of_ne hpart]
    cases slot <;> cases part <;> first | rfl | exact absurd rfl hpart

end DayTime

namespace Calendar

/-! ## §2. Keys. -/

variable {c c' : Calendar} {now : Instant} {k : Key}

/-- On the page of days one key alone changes the time. -/
theorem time_updateMonth (h : c.updateMonth now k = .ok c') :
    c'.time = if k = .char 'n' then DayTime.ofInstant now else c.time := by
  unfold updateMonth at h
  split at h
  case h_1 | h_2 | h_3 | h_4 | h_5 | h_6 | h_7 | h_8 =>
    obtain ⟨d, rfl⟩ := exists_of_move h
    simp
  case h_9 | h_10 | h_11 | h_12 =>
    obtain ⟨d, rfl⟩ := exists_of_moveMonths h
    simp
  case h_13 | h_15 | h_18 =>
    cases h
    simp [pickNow]
  case h_14 =>
    cases h
    split <;> simp
  case h_16 | h_17 =>
    cases h
    unfold confirmDay
    dsimp only
    split
    · simp
    · split <;> simp
  case h_19 hnow _ _ _ =>
    cases h
    rw [if_neg fun heq => hnow heq]

/-- On the page of years none does. -/
theorem time_updateYear (h : c.updateYear k = .ok c') : c'.time = c.time := by
  unfold updateYear at h
  split at h
  case h_1 | h_2 | h_3 | h_4 | h_5 | h_6 | h_7 | h_8 =>
    obtain ⟨d, rfl⟩ := exists_of_moveYears h
    rfl
  all_goals
    cases h
    rfl

/-- A step is taken round the clock. -/
theorem numbers_stepTime (c : Calendar) (n : Int) :
    (c.stepTime n).time.numbers =
      Function.update c.time.numbers c.focus ((c.time.numbers c.focus + n) % c.focus.limit) :=
  DayTime.numbers_set _ _ _

/-- A digit is pushed in where the number stays within its limit. -/
theorem numbers_enterDigit (c : Calendar) (digit : Nat) :
    (c.enterDigit digit).time.numbers =
      if c.time.numbers c.focus % 10 * 10 + digit < c.focus.limit then
        Function.update c.time.numbers c.focus (c.time.numbers c.focus % 10 * 10 + digit)
      else c.time.numbers := by
  have hshifted : c.time.numbers c.focus % 10 * 10 + digit =
      ((c.time.get c.focus % 10 * 10 + digit : Nat) : Int) := by
    simp [DayTime.numbers]
  rw [hshifted]
  unfold enterDigit
  dsimp only
  by_cases hlimit : c.focus.limit ≤ c.time.get c.focus % 10 * 10 + digit
  · rw [if_pos hlimit, if_neg (by omega)]
  · -- the number is below the limit, so nothing is cut from it
    rw [if_neg hlimit, if_pos (by omega)]
    show (c.time.set c.focus _).numbers = _
    rw [DayTime.numbers_set, Int.emod_eq_of_lt (by omega) (by omega)]

/-- **On the page of the time a key writes its number** into the part under focus. -/
theorem numbers_updateTime (c : Calendar) (k : Key) :
    (c.updateTime k).time.numbers =
      ((c.focus.written? (c.time.numbers c.focus) k).map
        (Function.update c.time.numbers c.focus)).getD c.time.numbers := by
  have hnone : c.focus.written? (c.time.numbers c.focus) k = none →
      c.time.numbers = ((c.focus.written? (c.time.numbers c.focus) k).map
        (Function.update c.time.numbers c.focus)).getD c.time.numbers := by
    intro h
    rw [h]
    rfl
  unfold updateTime
  split
  case h_1 | h_2 | h_3 | h_4 | h_5 | h_11 => exact hnone rfl
  case h_6 | h_7 => exact numbers_stepTime c 1
  case h_8 | h_9 => exact numbers_stepTime c (-1)
  case h_10 =>
    split <;> exact hnone rfl
  case h_12 hup hk hdown hj _ _ =>
    -- of the other keys, those for digits write
    have hwritten : c.focus.written? (c.time.numbers c.focus) k = k.digit?.bind (fun d =>
        if c.time.numbers c.focus % 10 * 10 + d < c.focus.limit then
          some (c.time.numbers c.focus % 10 * 10 + d) else none) := by
      unfold TimeSlot.written?
      rw [if_neg (not_or.mpr ⟨hup, hk⟩), if_neg (not_or.mpr ⟨hdown, hj⟩)]
      cases k.digit? <;> rfl
    rw [hwritten]
    cases k.digit? with
    | none => rfl
    | some d =>
        show (c.enterDigit d).time.numbers = _
        rw [numbers_enterDigit]
        simp only [Option.bind_some]
        split <;> rfl

/-! ## §3. Calls. -/

/-- What is done with a calendar. -/
inductive Call where
  /-- It is opened. -/
  | activate
  /-- It is closed. -/
  | deactivate
  /-- Its choice is forgotten. -/
  | reset
  /-- An instant is made its choice. -/
  | setInstant (t : Instant)
  /-- Its time is set. -/
  | setTime (h m s : Int)
  /-- A key is pressed. -/
  | key (k : Key)

/-- The calendar after a call at an instant. -/
def call (c : Calendar) (now : Instant) : Call → Except Fault Calendar
  | .activate => .ok c.activate
  | .deactivate => .ok c.deactivate
  | .reset => .ok (c.reset now)
  | .setInstant t => .ok (c.setInstant t)
  | .setTime h m s => .ok (c.setTime h m s)
  | .key k => c.update now k

/-- The plain numbers after a call. -/
def written (c : Calendar) (now : Instant) (r : TimeNumbers) : Call → TimeNumbers
  | .activate | .deactivate => r
  | .reset => fun _ => 0
  | .setInstant t => TimeNumbers.ofInstant t
  | .setTime h m s => fun
      | .hour => h % 24
      | .minute => m % 60
      | .second => s % 60
  | .key k =>
      if c.active = true ∧ c.mode = .month ∧ k = .char 'n' then TimeNumbers.ofInstant now
      else if c.active = true ∧ c.mode = .time then
        ((c.focus.written? (r c.focus) k).map (Function.update r c.focus)).getD r
      else r

/-- Calendar and plain numbers after a call. -/
def perform (s : Calendar × TimeNumbers) (e : Instant × Call) :
    Except Fault (Calendar × TimeNumbers) := do
  return (← s.1.call e.1 e.2, s.1.written e.1 s.2 e.2)

/-- **A key writes the plain numbers into the calendar.** -/
theorem numbers_update (h : c.update now k = .ok c') :
    c'.time.numbers = c.written now c.time.numbers (.key k) := by
  unfold written
  cases ha : c.active with
  | false =>
      rw [update_of_inactive ha] at h
      cases h
      simp
  | true =>
      unfold update at h
      rw [ha, Bool.not_true, if_neg Bool.false_ne_true] at h
      split at h
      next hm =>
        rw [time_updateMonth h]
        by_cases hk : k = .char 'n'
        · simp [hm, hk, DayTime.numbers_ofInstant]
        · simp [hm, hk]
      next hm =>
        rw [time_updateYear h]
        simp [hm]
      next hm =>
        cases h
        rw [numbers_updateTime]
        simp [hm]

/-- The calendar goes along with the plain numbers; its focus is on a part that is shown, and it is
made as `c₀` is. -/
structure InStep (c₀ : Calendar) (s : Calendar × TimeNumbers) : Prop where
  /-- The time is that of the numbers. -/
  numbers : s.1.time.numbers = s.2
  /-- The focus is on a part that is shown. -/
  focus : s.1.focus ∈ TimeSlot.shown s.1.showSeconds
  /-- The make is the same. -/
  make : c₀.SameMake s.1

theorem hour_mem_shown (seconds : Bool) : TimeSlot.hour ∈ TimeSlot.shown seconds := by
  cases seconds <;> decide

/-- A key keeps the focus on a part that is shown. -/
theorem focus_update (hf : c.focus ∈ TimeSlot.shown c.showSeconds) (h : c.update now k = .ok c') :
    c'.focus ∈ TimeSlot.shown c'.showSeconds := by
  cases ha : c.active with
  | false =>
      rw [update_of_inactive ha] at h
      cases h
      exact hf
  | true =>
      cases step_update ha h with
      | stay hfocus =>
          rcases hfocus with rfl | hshown
          · exact hf
          · exact hshown
      | move | pickNow | turn | choose | pick | complete | cancel => exact hf

/-- **Every call keeps calendar and plain numbers in step.** -/
theorem InStep.perform {c₀ : Calendar} {s s' : Calendar × TimeNumbers} {e : Instant × Call}
    (h : InStep c₀ s) (hp : perform s e = .ok s') : InStep c₀ s' := by
  obtain ⟨c, r⟩ := s
  obtain ⟨now, call⟩ := e
  obtain ⟨c', hc, hs'⟩ := exists_of_bind_eq_ok hp
  cases hs'
  obtain ⟨hnumbers, hfocus, hmake⟩ := h
  dsimp only at hnumbers hfocus hmake hc
  -- the plain numbers before the call are those of the calendar
  subst hnumbers
  have hsame : c.SameMake c' → c₀.SameMake c' := hmake.trans
  cases call with
  | activate | deactivate =>
      cases hc
      exact ⟨rfl, hfocus, hsame ⟨rfl, rfl, rfl, rfl, rfl⟩⟩
  | reset =>
      cases hc
      refine ⟨?_, hour_mem_shown _, hsame ⟨rfl, rfl, rfl, rfl, rfl⟩⟩
      funext slot
      cases slot <;> rfl
  | setInstant t =>
      cases hc
      exact ⟨DayTime.numbers_ofInstant t, hfocus, hsame ⟨rfl, rfl, rfl, rfl, rfl⟩⟩
  | setTime h m s =>
      cases hc
      refine ⟨?_, hfocus, hsame ⟨rfl, rfl, rfl, rfl, rfl⟩⟩
      show (DayTime.set _ _ _).numbers = _
      rw [DayTime.numbers_set, DayTime.numbers_set, DayTime.numbers_set]
      funext slot
      cases slot <;> rfl
  | key k => exact ⟨numbers_update hc, focus_update hfocus hc, hsame (sameMake_update hc)⟩

/-! ## §4. Calendars at any time. -/

/-- A time in plain numbers, within their limits, is that of the choice. -/
theorem of?_counted (c : Calendar) :
    Instant.of? (c.selected.getD c.cursor)
      (c.time.numbers.counted c.showTime c.showSeconds .hour)
      (c.time.numbers.counted c.showTime c.showSeconds .minute)
      (c.time.numbers.counted c.showTime c.showSeconds .second) 0 = some c.instant := by
  have hcounted : ∀ slot, c.time.numbers.counted c.showTime c.showSeconds slot =
      c.effectiveTime.get slot := by
    intro slot
    unfold TimeNumbers.counted effectiveTime
    cases c.showTime <;> cases c.showSeconds <;> cases slot <;> rfl
  rw [hcounted, hcounted, hcounted]
  exact dif_pos c.instant.isTime

/-- **A calendar at any time.**  Whatever was done with it, its time is the one that was entered in
plain numbers, each below its limit; the focus is on a part that is shown; and day and time are an
instant.  However it is used from one opening on, if it closes with a choice then the chosen day is
the one under the cursor, and it can be confirmed. -/
theorem instant_of_calls (title : Text) (showTime showSeconds : Bool) (first last : Option Date)
    (now : Instant) {calls : List (Instant × Call)} {c : Calendar} {r : TimeNumbers}
    (h : calls.foldlM perform
      ((new title showTime showSeconds now).setBounds first last, fun _ => 0) = .ok (c, r)) :
    c.time.numbers = r ∧ (∀ slot, 0 ≤ r slot ∧ r slot < slot.limit) ∧
    c.focus.index < (TimeSlot.shown showSeconds).length ∧
    Instant.of? (c.selected.getD c.cursor) (r.counted showTime showSeconds .hour)
      (r.counted showTime showSeconds .minute) (r.counted showTime showSeconds .second) 0 =
        some c.instant ∧
    ∀ (keys : List (Instant × Key)) (c' : Calendar),
      keys.foldlM (fun c e => c.update e.1 e.2) c.activate = .ok c' →
      c'.active = false → c'.completed = true →
        c'.selected = some c'.cursor ∧ (∀ d ∈ first, d ≤ c'.cursor) ∧
          ∀ d ∈ last, c'.cursor ≤ d := by
  have hstart : InStep ((new title showTime showSeconds now).setBounds first last)
      ((new title showTime showSeconds now).setBounds first last, fun _ => 0) := by
    refine ⟨?_, hour_mem_shown _, .refl _⟩
    funext slot
    cases slot <;> rfl
  obtain ⟨hnumbers, hfocus, hmake⟩ := of_foldlM InStep.perform hstart h
  dsimp only at hnumbers hfocus hmake
  have htime : c.showTime = showTime := hmake.showTime
  have hseconds : c.showSeconds = showSeconds := hmake.showSeconds
  refine ⟨hnumbers, ?_, ?_, ?_, ?_⟩
  · rw [← hnumbers]
    exact c.time.numbers_bounds
  · rw [hseconds] at hfocus
    revert hfocus
    cases showSeconds <;> cases c.focus <;> decide
  · rw [← hnumbers, ← htime, ← hseconds]
    exact of?_counted c
  · intro keys c' hkeys hclosed hdone
    -- from the opening on a choice is only completed by confirming it
    obtain ⟨hfirm, hsame⟩ : c'.Firm ∧ c.activate.SameMake c' :=
      of_foldlM (P := fun c' => c'.Firm ∧ c.activate.SameMake c')
        (fun hc hu => ⟨hc.1.update hu, hc.2.trans (sameMake_update hu)⟩)
        ⟨firm_activate c, .refl _⟩ hkeys
    obtain ⟨hselected, hrange⟩ := hfirm.complete hclosed hdone
    have hfirst : c'.first = first := hsame.first.trans hmake.first
    have hlast : c'.last = last := hsame.last.trans hmake.last
    refine ⟨hselected, ?_⟩
    rw [inRange, hfirst, hlast, Bool.and_eq_true] at hrange
    simpa [Option.all_eq_true] using hrange

/-- A calendar from the 15th of March on.  On the page of the time, which was opened by the way, 25
hours are refused and 23 are not, and a minute before the full hour is the 59th; after that the 16th
is confirmed. -/
theorem instant_of_calls_in_march :
    let march : Instant := .startOf ⟨2024, 3, 15, by decide⟩
    ∃ c r c',
      ([Call.activate, .key (.char 't'), .key (.char '2'), .key (.char '5'), .key (.char '3'),
          .key .tab, .key .down].map fun call => (march, call)).foldlM perform
        ((new [] true false march).setBounds (some march.date) none, fun _ => 0) = .ok (c, r) ∧
      (r .hour = 23 ∧ r .hour < 24) ∧ (r .minute = 59 ∧ r .minute < 60) ∧
      ([Key.right, .enter, .enter].map fun k => (march, k)).foldlM
          (fun c e => c.update e.1 e.2) c.activate = .ok c' ∧
        c'.cursor.day = 16 ∧ c'.selected = some c'.cursor ∧ march.date ≤ c'.cursor := by
  intro march
  obtain ⟨⟨c, r⟩, hcalls, hkeys⟩ := exists_ok_of_any
    (x := ([Call.activate, .key (.char 't'), .key (.char '2'), .key (.char '5'), .key (.char '3'),
        .key .tab, .key .down].map fun call => (march, call)).foldlM perform
      ((new [] true false march).setBounds (some march.date) none, fun _ => 0))
    (p := fun s : Calendar × TimeNumbers => decide (s.2 .hour = 23 ∧ s.2 .minute = 59) &&
      (([Key.right, .enter, .enter].map fun k => (march, k)).foldlM
        (fun (c : Calendar) (e : Instant × Key) => c.update e.1 e.2) s.1.activate).toOption.any
        fun c' : Calendar => decide (c'.cursor.day = 16 ∧ c'.active = false ∧ c'.completed = true))
    (by decide +kernel)
  rw [Bool.and_eq_true, decide_eq_true_eq] at hkeys
  obtain ⟨⟨hhour, hminute⟩, hkeys⟩ := hkeys
  obtain ⟨c', hrun, hclosed⟩ := exists_ok_of_any hkeys
  obtain ⟨hday, hactive, hdone⟩ := of_decide_eq_true hclosed
  obtain ⟨-, hlimits, -, -, hchosen⟩ :=
    instant_of_calls [] true false (some march.date) none march hcalls
  obtain ⟨hselected, hfirst, -⟩ := hchosen _ c' hrun hactive hdone
  exact ⟨c, r, c', hcalls, ⟨hhour, (hlimits .hour).2⟩, ⟨hminute, (hlimits .minute).2⟩, hrun, hday,
    hselected, hfirst _ rfl⟩

end Calendar

end EncodedQuery

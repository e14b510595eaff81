/-
  EncodedQuery.Proofs.Builder.RangeEntry
  ──────────────────────────────────────
  **TYPED AND PICKED RANGES ARE THE SAME.**

  A range of days is either typed into two lines or picked in two calendars.  The
  lines hold the two ends as they are shown, which are read back before their
  order is looked at; the picker looks at the order of the instants themselves.
  Both make the same condition of the same two instants, and the check of that
  condition reads its literal.  So what the lines refuse because a year has too
  few digits, the check refuses when it is picked.

  Main results:
    • `TypesRange.typeKeys_rangeKeys`, `typedRange?_shown` — what is typed, and
      read back,
    • `RangePicker.ConfirmsEnd.closes` — what is picked,
    • `described_submit_iff` — when a condition is accepted,
    • `History.entries_agree` — both ways give the same.
-/
import EncodedQuery.Proofs.Builder.Origin
import EncodedQuery.Proofs.Instant.Typed
import EncodedQuery.Proofs.Picker.Escape

namespace EncodedQuery

/-! ## §1. What is picked. -/

namespace RangePicker

/-- The start is picked, and Enter confirms the end in its calendar. -/
structure ConfirmsEnd (p : RangePicker) (now start stop : Instant) : Prop where
  /-- The picker takes keys. -/
  active : p.active = true
  /-- It is the turn of the end. -/
  mode : p.mode = .stop
  /-- The start is picked. -/
  start : p.start = some start
  /-- The calendar of the end is open. -/
  calendar : p.stopCalendar.active = true
  /-- Enter confirms it. -/
  confirms : ∃ c, p.stopCalendar.update now .enter = .ok c ∧ c.active = false ∧
    c.completed = true ∧ c.instant = stop

variable {p : RangePicker} {now s z : Instant}

/-- **The picker closes with both ends when nothing is wrong with their order**, and otherwise stays
open. -/
theorem ConfirmsEnd.closes (h : p.ConfirmsEnd now s z) :
    ∃ p', p.update now .enter = .ok p' ∧
      (if problem p.allowSameDay s z = [] then p'.Closed s z else p'.active = true) := by
  obtain ⟨c, hc, hclosed, hdone, rfl⟩ := h.confirms
  have hstop : p.mode ≠ .start := by rw [h.mode]; decide
  have hlist : p.mode ≠ .presets := by rw [h.mode]; decide
  have hcalendar : p.calendar = p.stopCalendar := if_neg hstop
  have hset : p.setCalendar c = { p with stopCalendar := c } := if_neg hstop
  have hupdate : p.update now .enter = p.updateCalendar now .enter := by
    simp [update, h.active, hlist]
  refine ⟨p.afterCalendar c, ?_, ?_⟩
  · rw [hupdate, updateCalendar_eq, hcalendar, hc]
    rfl
  · rw [afterCalendar, hcalendar, h.calendar, hclosed, hdone, Bool.true_and, Bool.not_false,
      if_pos rfl, if_pos rfl, if_neg hstop, hset, stopConfirmed]
    simp only [h.start]
    split
    next hok =>
      rw [hok]
      exact ⟨rfl, rfl, rfl⟩
    next hwrong =>
      rw [if_neg (mt List.isEmpty_iff.mp hwrong)]
      exact h.active

/-- With its seconds shown a calendar can be on any whole second, so every range can be picked up to
that key. -/
theorem exists_confirmsEnd (allowSameDay : Bool) (now s : Instant) {z : Instant}
    (hz : z.micro = 0) :
    ∃ p : RangePicker, p.allowSameDay = allowSameDay ∧ p.ConfirmsEnd now s z := by
  let stopCalendar : Calendar :=
    { (Calendar.new "End date" true true now).setInstant z with
      active := true, mode := .time, confirming := true }
  have hinstant : stopCalendar.instant = z := by
    obtain ⟨date, hour, minute, second, micro, isTime⟩ := z
    cases hz
    rfl
  exact ⟨{ new true true allowSameDay now with
    active := true, mode := .stop, start := some s, stopCalendar }, rfl, rfl, rfl, rfl, rfl,
    { stopCalendar with completed := true, active := false }, rfl, rfl, rfl, hinstant⟩

end RangePicker

namespace Builder

/-! ## §2. What is typed. -/

/-- The builder with texts in the lines of the start and of the end, the cursors behind them. -/
def lines (b : Builder) (start stop : Text) (focusStop : Bool) : Builder :=
  { b with
    startInput := b.startInput.setValue start
    stopInput := b.stopInput.setValue stop
    focusStop }

variable {b : Builder} {now s z : Instant}

/-- A range is being typed, into lines without a limit. -/
structure TypesRange (b : Builder) : Prop where
  /-- Keys are taken. -/
  active : b.active = true
  /-- They are for the two lines. -/
  stage : b.stage = .rangeText
  /-- The line of the start has no limit. -/
  startInput : b.startInput.limit = 0
  /-- Nor has that of the end. -/
  stopInput : b.stopInput.limit = 0

theorem TypesRange.lines (h : b.TypesRange) (u v : Text) (focusStop : Bool) :
    (b.lines u v focusStop).TypesRange :=
  ⟨h.active, h.stage, h.startInput, h.stopInput⟩

/-- A key while a range is typed. -/
theorem TypesRange.update (h : b.TypesRange) {k : Key} (hk : b.globalKey? now k = none) :
    b.update now k = b.described (b.rangeTextKey k) := by
  rw [Builder.update, h.active, hk, stageKey, h.stage]
  rfl

/-- A key that commits nothing and leaves keys to be taken goes before the others. -/
theorem TypesRange.typeKeys_cons (h : b.TypesRange) {k : Key} {b' : Builder}
    (hk : b.globalKey? now k = none) (hkey : b.rangeTextKey k = b')
    (hc : b'.conditions = b.conditions) (ha : b'.active = true) (rest : List Key) :
    b.typeKeys now (k :: rest) = b'.typeKeys now rest := by
  rw [typeKeys, h.update hk, hkey, described_of_length_le (by rw [hc])]
  show (if b'.active then _ else _) = _
  rw [ha, if_pos rfl]

/-- **A text that is typed goes to the end of a line**, when each of its characters does. -/
theorem typeKeys_chars {f : Text → Builder} (h : ∀ u, (f u).TypesRange)
    (hc : ∀ u v, (f u).conditions = (f v).conditions)
    (hkey : ∀ u c, Text.isPrintable c = true → (f u).rangeTextKey (.char c) = f (u ++ [c]))
    {t : Text} (ht : ∀ c ∈ t, Text.isPrintable c = true) (rest : List Key) :
    ∀ u, (f u).typeKeys now (t.map Key.char ++ rest) = (f (u ++ t)).typeKeys now rest := by
  induction t with
  | nil =>
      intro u
      rw [List.append_nil]
      rfl
  | cons c t ih =>
      intro u
      obtain ⟨hprintable, ht⟩ := List.forall_mem_cons.mp ht
      rw [List.map_cons, List.cons_append,
        (h u).typeKeys_cons rfl (hkey u c hprintable) (hc _ _) (h _).active, ih ht,
        List.append_assoc]
      rfl

theorem typeKeys_singleton (b : Builder) (now : Instant) (k : Key) :
    b.typeKeys now [k] = b.update now k := by
  rw [typeKeys]
  cases b.update now k with
  | error f => rfl
  | ok b' =>
      show (if b'.active then Except.ok b' else .ok b') = _
      rw [ite_self]

/-- The keys that type two texts into the two lines; a key between them turns to the second line,
and Enter takes the range. -/
def rangeKeys (start stop : Text) (turn : Key) : List Key :=
  start.map .char ++ turn :: (stop.map .char ++ [.enter])

/-- **Both texts are in their lines** before the last key. -/
theorem TypesRange.typeKeys_rangeKeys (h : b.TypesRange) {start stop : Text}
    (hstart : ∀ c ∈ start, Text.isPrintable c = true)
    (hstop : ∀ c ∈ stop, Text.isPrintable c = true) {turn : Key}
    (hturn : turn = .tab ∨ turn = .enter) :
    (b.lines [] [] false).typeKeys now (rangeKeys start stop turn) =
      (b.lines start stop true).update now .enter := by
  have hfirst : (b.lines [] [] false).typeKeys now (rangeKeys start stop turn) =
      (b.lines start [] false).typeKeys now (turn :: (stop.map .char ++ [.enter])) :=
    typeKeys_chars (f := fun u => b.lines u [] false) (fun u => h.lines u [] false)
      (fun _ _ => rfl)
      (fun u c hc => by
        simp [Builder.lines, rangeTextKey, TextInput.handle_setValue h.startInput u hc])
      hstart _ []
  have hturned : (b.lines start [] false).rangeTextKey turn = b.lines start [] true := by
    rcases hturn with rfl | rfl <;> rfl
  have hkey : (b.lines start [] false).globalKey? now turn = none := by
    rcases hturn with rfl | rfl <;> rfl
  have hsecond : (b.lines start [] true).typeKeys now (stop.map .char ++ [.enter]) =
      (b.lines start stop true).typeKeys now [.enter] :=
    typeKeys_chars (f := fun v => b.lines start v true) (fun v => h.lines start v true)
      (fun _ _ => rfl)
      (fun v c hc => by
        simp [Builder.lines, rangeTextKey, TextInput.handle_setValue h.stopInput v hc])
      hstop _ []
  rw [hfirst, (h.lines start [] false).typeKeys_cons hkey hturned rfl h.active, hsecond,
    typeKeys_singleton]

/-- **What is read back from the two lines**: both ends, if their years have four digits and nothing
is wrong with their order. -/
theorem typedRange?_shown (hstart : b.startInput.value = s.shown)
    (hstop : b.stopInput.value = z.shown) (hs : s.micro = 0) (hz : z.micro = 0) :
    b.typedRange? = if (1000 ≤ s.date.year ∧ 1000 ≤ z.date.year) ∧
      RangePicker.problem b.rangePicker.allowSameDay s z = [] then some (s, z) else none := by
  have htime : .char ':' ∈ z.shown := by
    rw [Instant.shown_eq]
    simp
  have hread : ∀ {t : Instant}, t.micro = 0 → 1000 ≤ t.date.year →
      Instant.read Pattern.rangeInput t.shown = .ok t := by
    intro t ht hyear
    rw [Instant.read_rangeInput_shown hyear, Instant.wholeSecond_eq_self ht]
  unfold typedRange?
  dsimp only
  rw [hstart, hstop, Instant.strip_shown, Instant.strip_shown]
  simp only [if_pos htime]
  by_cases hyears : 1000 ≤ s.date.year ∧ 1000 ≤ z.date.year
  · rw [hread hs hyears.1, hread hz hyears.2]
    dsimp only
    simp only [List.isEmpty_iff, hyears, true_and]
  · rw [if_neg fun h => hyears h.1]
    -- the first end with too few digits is the one that is not read
    by_cases hyear : 1000 ≤ s.date.year
    · obtain ⟨f, hf⟩ := Instant.fails_read_rangeInput_shown (t := z) (by omega)
      rw [hread hs hyear, hf]
    · obtain ⟨f, hf⟩ := Instant.fails_read_rangeInput_shown (t := s) (by omega)
      rw [hf]

/-- What is typed is checked as a range, if it is one; otherwise an error is shown. -/
theorem confirmRangeText_cases (b : Builder) :
    (∃ a e, b.typedRange? = some (a, e) ∧ b.confirmRangeText = b.submitRange a e) ∨
      (b.typedRange? = none ∧ b.confirmRangeText.core = b.core) := by
  unfold typedRange? confirmRangeText
  dsimp only
  cases Instant.read Pattern.rangeInput (Text.strip b.startInput.value) with
  | error f => exact .inr ⟨rfl, rfl⟩
  | ok start =>
      cases Instant.read Pattern.rangeInput (Text.strip b.stopInput.value) with
      | error f => exact .inr ⟨rfl, rfl⟩
      | ok read =>
          dsimp only
          generalize
            (if .char ':' ∈ Text.strip b.stopInput.value then read else read.endOfDay) = stop
          split
          · exact .inl ⟨start, stop, rfl, rfl⟩
          · exact .inr ⟨rfl, rfl⟩

/-! ## §3. What is accepted. -/

/-- The builder accepts a condition: the first one is committed, a later one waits for its link. -/
def Accepts (b : Builder) (c : Condition) (b' : Builder) : Prop :=
  (b.conditions.conditions = [] ∧ b'.conditions.conditions = [c]) ∨
  (b.conditions.conditions ≠ [] ∧ b'.conditions = b.conditions ∧ b'.pending = some c ∧
    b'.stage = .link)

/-- The check finds no error in a condition, which can be described if it is committed at once. -/
def Admits (b : Builder) (c : Condition) : Prop :=
  ¬ b.core.Rejects c ∧ (b.conditions.conditions = [] → ¬ OnOddName c)

/-- Nothing is accepted where the conditions stay and no link is asked for. -/
theorem not_accepts_of_same {b b' : Builder} {c : Condition} (hc : b'.conditions = b.conditions)
    (hs : b'.stage ≠ .link) : ¬ b.Accepts c b' := by
  rintro (⟨hempty, hone⟩ | ⟨_, _, _, hlink⟩)
  · rw [hc, hempty] at hone
    cases hone
  · exact hs hlink

theorem eq_of_described {b b₁ b₂ : Builder} (h : b.described b₁ = .ok b₂) : b₂ = b₁ := by
  unfold described at h
  split at h <;> cases h
  rfl

section
variable {b₁ b₂ : Builder} {c d : Condition} (h₁ : b₁.conditions = b.conditions)
  (h₂ : b₂.conditions = b.conditions)
include h₂

/-- What the check refuses is not accepted. -/
theorem not_accepts_of_rejects (ht : b₂.table = b.table) (hs : b₂.stage ≠ .link)
    (hr : b.core.Rejects d) {b' : Builder} (h : b₁.described (b₂.submit d) = .ok b') :
    ¬ b.Accepts c b' := by
  obtain ⟨first, hsubmit⟩ := submit_of_error hr
  rw [hsubmit b₂ ht] at h
  have hcore := core_reopenPicker { b₂ with error := first.format }
  rw [← eq_of_described h] at hcore
  exact not_accepts_of_same ((congrArg Core.conditions hcore).trans h₂)
    ((congrArg Core.stage hcore).trans_ne hs)

include h₁

/-- The first condition is accepted when it can be described, as it is committed at once. -/
theorem described_submit_first_iff (ht : b₂.table = b.table) (hr : ¬ b.core.Rejects d)
    (hempty : b.conditions.conditions = []) (hd : d.link = none) :
    (∃ b', b₁.described (b₂.submit d) = .ok b' ∧ b.Accepts c b') ↔ ¬ OnOddName d ∧ c = d := by
  have hcore := core_submit_of_no_error (b := b₂) (d := d) (by rw [ht]; exact hr)
  rw [h₂, if_pos hempty] at hcore
  have hone : (b₂.submit d).conditions.conditions = [d] := by
    have hself : ({ d with link := none } : Condition) = d := by
      cases d
      cases hd
      rfl
    have happend : (b₂.submit d).conditions = b.conditions.append d none :=
      congrArg Core.conditions hcore
    rw [happend, Chain.append, hempty, hself]
    rfl
  have hfails : Fails (b₁.described (b₂.submit d)) ↔ OnOddName d := by
    rw [fails_described_iff, h₁, hempty, hone]
    simp
  constructor
  · rintro ⟨b', hdescribed, haccepts⟩
    have hodd : ¬ OnOddName d := by
      rw [← hfails, hdescribed]
      exact not_fails_ok b'
    obtain rfl := eq_of_described hdescribed
    rcases haccepts with ⟨_, hthis⟩ | ⟨hne, _⟩
    · rw [hone] at hthis
      cases hthis
      exact ⟨hodd, rfl⟩
    · exact absurd hempty hne
  · rintro ⟨hodd, rfl⟩
    obtain ⟨b', hdescribed⟩ := exists_ok_of_not_fails (mt hfails.mp hodd)
    obtain rfl := eq_of_described hdescribed
    exact ⟨_, hdescribed, .inl ⟨hempty, hone⟩⟩

/-- A later condition is accepted: it waits for its link, and nothing is described yet. -/
theorem described_submit_later_iff (ht : b₂.table = b.table) (hr : ¬ b.core.Rejects d)
    (hne : b.conditions.conditions ≠ []) :
    (∃ b', b₁.described (b₂.submit d) = .ok b' ∧ b.Accepts c b') ↔ c = d := by
  have hcore := core_submit_of_no_error (b := b₂) (d := d) (by rw [ht]; exact hr)
  rw [h₂, if_neg hne] at hcore
  have hconditions : (b₂.submit d).conditions = b.conditions :=
    (congrArg Core.conditions hcore).trans h₂
  have hpending : (b₂.submit d).pending = some d := congrArg Core.pending hcore
  have hlink : (b₂.submit d).stage = .link := congrArg Core.stage hcore
  constructor
  · rintro ⟨b', hdescribed, haccepts⟩
    obtain rfl := eq_of_described hdescribed
    rcases haccepts with ⟨hempty, _⟩ | ⟨_, _, hthis, _⟩
    · exact absurd hempty hne
    · rw [hpending] at hthis
      cases hthis
      rfl
  · rintro rfl
    exact ⟨_, described_of_length_le (by rw [hconditions, h₁]),
      .inr ⟨hne, hconditions, hpending, hlink⟩⟩

/-- **When a condition is accepted**, whatever the builder looks like otherwise. -/
theorem described_submit_iff (ht : b₂.table = b.table) (hs : b₂.stage ≠ .link)
    (hd : d.link = none) :
    (∃ b', b₁.described (b₂.submit d) = .ok b' ∧ b.Accepts c b') ↔ b.Admits d ∧ c = d := by
  by_cases hr : b.core.Rejects d
  · refine iff_of_false ?_ fun h => h.1.1 hr
    rintro ⟨b', hdescribed, haccepts⟩
    exact not_accepts_of_rejects h₂ ht hs hr hdescribed haccepts
  · by_cases hempty : b.conditions.conditions = []
    · rw [described_submit_first_iff h₁ h₂ ht hr hempty hd, Admits, and_iff_right hr,
        forall_prop_of_true hempty]
    · rw [described_submit_later_iff h₁ h₂ ht hr hempty, Admits, and_iff_right hr,
        forall_prop_of_false hempty, true_and]

end

/-! ## §4. Both ways. -/

/-- The builder with another picker for a range. -/
def withPicker (b : Builder) (p : RangePicker) : Builder := { b with rangePicker := p }

/-- The condition of a range. -/
def rangeCondition (f : Field) (e : OperatorEntry) (s z : Instant) : Condition :=
  { field := f, operator := e.token, value := Instant.rangeLiteral s z, start := some s,
    stop := some z }

/-- Where the picker closes with both ends, they are checked. -/
theorem update_enter_of_closed (ha : b.active = true) (hs : b.stage = .rangePicker)
    {p : RangePicker} (hp : b.rangePicker.update now .enter = .ok p) (hclosed : p.Closed s z) :
    b.update now .enter = b.described ((b.withPicker p).submitRange s z) := by
  have hkey : b.rangePickerKey now .enter = .ok ((b.withPicker p).submitRange s z) := by
    simp [rangePickerKey, hp, hclosed.1, hclosed.2.1, hclosed.2.2, withPicker, bind, Except.bind,
      pure, Except.pure]
  have hstep : b.update now .enter = b.rangePickerKey now .enter >>= b.described := by
    rw [Builder.update, ha, stageKey, hs]
    rfl
  rw [hstep, hkey]
  rfl

section
variable {f : Field} {e : OperatorEntry} {t : Builder} (hf : t.field = some f)
  (he : t.operator = some e) {c : Condition} (hconditions : t.conditions = b.conditions)
  (htable : t.table = b.table)
include hf he

theorem submitRange_eq_submit (s z : Instant) :
    t.submitRange s z = t.submit (rangeCondition f e s z) := by
  rw [submitRange_eq, rangeCondition?, hf, he]
  rfl

include hconditions htable

/-- **When a typed range is accepted.** -/
theorem TypesRange.enter_iff (h : t.TypesRange) (hfocus : t.focusStop = true)
    (hstart : t.startInput.value = s.shown) (hstop : t.stopInput.value = z.shown)
    (hs : s.micro = 0) (hz : z.micro = 0) :
    (∃ b', t.update now .enter = .ok b' ∧ b.Accepts c b') ↔
      ((1000 ≤ s.date.year ∧ 1000 ≤ z.date.year) ∧
        RangePicker.problem t.rangePicker.allowSameDay s z = []) ∧
      b.Admits (rangeCondition f e s z) ∧ c = rangeCondition f e s z := by
  have hstage : t.stage ≠ .link := by rw [h.stage]; decide
  have htaken : t.rangeTextKey .enter = t.confirmRangeText := if_pos hfocus
  have hread := typedRange?_shown hstart hstop hs hz
  rw [h.update rfl, htaken]
  by_cases hok : (1000 ≤ s.date.year ∧ 1000 ≤ z.date.year) ∧
      RangePicker.problem t.rangePicker.allowSameDay s z = []
  · rw [if_pos hok] at hread
    rcases t.confirmRangeText_cases with ⟨x, y, hxy, hsubmit⟩ | ⟨hnone, _⟩
    · rw [hread] at hxy
      cases hxy
      rw [hsubmit, submitRange_eq_submit hf he,
        described_submit_iff hconditions hconditions htable hstage rfl]
      exact (and_iff_right hok).symm
    · rw [hread] at hnone
      cases hnone
  · -- nothing is read back, so an error is shown and the lines stay
    rw [if_neg hok] at hread
    refine iff_of_false ?_ fun hall => hok hall.1
    rintro ⟨b', hdescribed, haccepts⟩
    rcases t.confirmRangeText_cases with ⟨x, y, hxy, _⟩ | ⟨_, hcore⟩
    · rw [hread] at hxy
      cases hxy
    · obtain rfl := eq_of_described hdescribed
      exact not_accepts_of_same ((congrArg Core.conditions hcore).trans hconditions)
        ((congrArg Core.stage hcore).trans_ne hstage) haccepts

/-- **When a picked range is accepted.** -/
theorem confirmsEnd_iff (ha : t.active = true) (hs : t.stage = .rangePicker)
    (hp : t.rangePicker.ConfirmsEnd now s z) :
    (∃ p' b', t.rangePicker.update now .enter = .ok p' ∧ p'.Closed s z ∧
      t.update now .enter = .ok b' ∧ b.Accepts c b') ↔
      RangePicker.problem t.rangePicker.allowSameDay s z = [] ∧
      b.Admits (rangeCondition f e s z) ∧ c = rangeCondition f e s z := by
  obtain ⟨p, hupdate, hclosed⟩ := hp.closes
  by_cases hok : RangePicker.problem t.rangePicker.allowSameDay s z = []
  · rw [if_pos hok] at hclosed
    have hset : (t.withPicker p).conditions = b.conditions := hconditions
    have hstage : (t.withPicker p).stage ≠ .link := by
      show t.stage ≠ .link
      rw [hs]
      decide
    have htaken : t.update now .enter =
        t.described ((t.withPicker p).submit (rangeCondition f e s z)) := by
      rw [update_enter_of_closed ha hs hupdate hclosed,
        submitRange_eq_submit (t := t.withPicker p) hf he]
    have haccepted :
        (∃ b', t.described ((t.withPicker p).submit (rangeCondition f e s z)) = .ok b' ∧
          b.Accepts c b') ↔
        b.Admits (rangeCondition f e s z) ∧ c = rangeCondition f e s z :=
      described_submit_iff hconditions hset htable hstage rfl
    rw [← htaken] at haccepted
    rw [and_iff_right hok, ← haccepted]
    constructor
    · rintro ⟨_, b', _, _, hthis⟩
      exact ⟨b', hthis⟩
    · rintro ⟨b', hthis⟩
      exact ⟨p, b', hupdate, hclosed, hthis⟩
  · -- in the wrong order the picker stays open
    rw [if_neg hok] at hclosed
    refine iff_of_false ?_ fun hall => hok hall.1
    rintro ⟨p', b', hthis, hends, _⟩
    rw [hupdate] at hthis
    cases hthis
    exact RangePicker.not_closed_of_active hclosed hends

end

/-- The builder asks for a value of an operator, with days picked or typed. -/
def asking (b : Builder) (picked : Bool) (now : Instant) (e : OperatorEntry) : Builder :=
  chooseOperator { b with useAdvancedDate := picked } now e

/-- The builder while a range is typed. -/
def typing (b : Builder) (e : OperatorEntry) : Builder :=
  { b with useAdvancedDate := false, operator := some e, error := [], stage := .rangeText }

/-- The builder while a range is picked. -/
def picking (b : Builder) (e : OperatorEntry) (p : RangePicker) : Builder :=
  { b with
    useAdvancedDate := true, operator := some e, error := [], stage := .rangePicker
    rangePicker := p }

section
variable {f : Field} {e : OperatorEntry} (hf : b.field = some f)
  (he : e.requiresValue = true ∧ e.dateOnly = true)
include hf he

/-- An operator for ranges leads to the widget for them. -/
theorem asking_eq (picked : Bool) (now : Instant) :
    b.asking picked now e =
      if picked then b.picking e (b.rangePicker.activate now)
      else (b.typing e).lines [] [] false := by
  unfold asking chooseOperator
  dsimp only
  split
  next hnone =>
    rw [hf] at hnone
    cases hnone
  next =>
    rw [if_pos he.1, openValue, if_pos he.2]
    cases picked <;> rfl

end

/-- The lines of a builder have no limits. -/
theorem History.limits_eq {table : Table} {settings : Settings} {resolver : Resolver}
    (h : History table settings resolver b) : b.startInput.limit = 0 ∧ b.stopInput.limit = 0 := by
  have hframe := h.frame_eq ides
  have hstart := congrArg (fun f : Frame => f.startInput.limit) hframe
  have hstop := congrArg (fun f : Frame => f.stopInput.limit) hframe
  exact ⟨hstart, hstop⟩

/-- **Typed and picked ranges are the same.**  Let a field with days be chosen and the operator for
ranges on offer for it, whatever happened to the builder before, and take two whole seconds.  Typing
them as they are shown gives an accepted condition exactly when a picker in which the first one is
the start, and the second one is confirmed as the end, closes and its condition is accepted.  It is
the same condition, with the literal of the two as its value and the two beside it. -/
theorem History.entries_agree {table : Table} {settings : Settings} {resolver : Resolver}
    (h : History table settings resolver b) (ha : b.active = true) {f : Field} {e : OperatorEntry}
    (hf : b.field = some f) (hdate : f.type.isDate = true)
    (he : e ∈ OperatorEntry.offered (some f.type)) (hop : e.token = Operator.between.token)
    (hs : s.micro = 0) (hz : z.micro = 0) {turn : Key} (hturn : turn = .tab ∨ turn = .enter)
    {p : RangePicker} (hsame : p.allowSameDay = settings.allowSameDay)
    (hp : p.ConfirmsEnd now s z) (c : Condition) :
    ((∃ b', (b.asking false now e).typeKeys now (rangeKeys s.shown z.shown turn) = .ok b' ∧
        b.Accepts c b') ↔
      ∃ p' b', p.update now .enter = .ok p' ∧ p'.Closed s z ∧
        ((b.asking true now e).withPicker p).update now .enter = .ok b' ∧
        b.Accepts c b') ∧
    ((∃ b', (b.asking false now e).typeKeys now (rangeKeys s.shown z.shown turn) = .ok b' ∧
        b.Accepts c b') →
      c.value = Instant.rangeLiteral s z ∧ c.start = some s ∧ c.stop = some z) := by
  have hvalue := (OperatorEntry.isRange_iff he).mpr ⟨hdate, hop⟩
  obtain ⟨hstart, hstop⟩ := h.limits_eq
  have htyped : (∃ b',
        (b.asking false now e).typeKeys now (rangeKeys s.shown z.shown turn) = .ok b' ∧
        b.Accepts c b') ↔
      ((1000 ≤ s.date.year ∧ 1000 ≤ z.date.year) ∧
        RangePicker.problem settings.allowSameDay s z = []) ∧
      b.Admits (rangeCondition f e s z) ∧ c = rangeCondition f e s z := by
    have hshown : ∀ t : Instant, ∀ c ∈ t.shown, Text.isPrintable c = true := fun t c hc =>
      Instant.isPrintable_of_isShownChar (Instant.isShownChar_of_mem_shown t c hc)
    have htyping : (b.typing e).TypesRange := ⟨ha, rfl, hstart, hstop⟩
    rw [asking_eq hf hvalue, if_neg Bool.false_ne_true,
      htyping.typeKeys_rangeKeys (hshown s) (hshown z) hturn, ← h.allowSameDay_eq]
    exact TypesRange.enter_iff (t := (b.typing e).lines s.shown z.shown true) hf rfl rfl rfl
      (htyping.lines s.shown z.shown true) rfl (TextInput.value_setValue hstart _)
      (TextInput.value_setValue hstop _) hs hz
  have hpicked : (∃ p' b', p.update now .enter = .ok p' ∧ p'.Closed s z ∧
        ((b.asking true now e).withPicker p).update now .enter = .ok b' ∧
        b.Accepts c b') ↔
      RangePicker.problem settings.allowSameDay s z = [] ∧
      b.Admits (rangeCondition f e s z) ∧ c = rangeCondition f e s z := by
    rw [asking_eq hf hvalue, if_pos rfl, ← hsame]
    exact confirmsEnd_iff (t := b.picking e p) hf rfl rfl rfl ha rfl hp
  -- an accepted condition has years of four digits
  have hyears : b.Admits (rangeCondition f e s z) → 1000 ≤ s.date.year ∧ 1000 ≤ z.date.year := by
    intro hadmits
    have hrange : (rangeCondition f e s z).IsRangeOf s z := ⟨hdate, hop, rfl, rfl, rfl, hs, hz⟩
    have hclear : ∀ i ∈ Check.condition (some b.table) (rangeCondition f e s z),
        i.isError = false := fun i hi =>
      Bool.eq_false_iff.mpr fun herror => hadmits.1 (List.any_eq_true.mpr ⟨i, hi, herror⟩)
    obtain ⟨hstart, hstop, _⟩ := hrange.of_check hclear
    exact ⟨hstart, hstop⟩
  rw [htyped, hpicked]
  refine ⟨⟨fun hall => ⟨hall.1.2, hall.2⟩, fun hall => ⟨⟨hyears hall.2.1, hall.1⟩, hall.2⟩⟩, ?_⟩
  rintro ⟨_, _, rfl⟩
  exact ⟨rfl, rfl, rfl⟩

/-- The operator for ranges of days. -/
def betweenDays : OperatorEntry :=
  { OperatorEntry.valued .between "Date Range" "Between two dates" with dateOnly := true }

/-- The range from the 15th of March to a time of the next day, typed and picked. -/
theorem entries_agree_in_march :
    let noon : Instant :=
      { date := ⟨2024, 3, 16, by decide⟩, hour := 12, minute := 30, second := 45 }
    ∃ b p c, History oneDay {} noSearches b ∧ b.field.isSome = true ∧
      p.ConfirmsEnd ides ides noon ∧
      (∃ b', (b.asking false ides betweenDays).typeKeys ides
        (rangeKeys ides.shown noon.shown .tab) = .ok b' ∧ b.Accepts c b') ∧
      (∃ p' b', p.update ides .enter = .ok p' ∧ p'.Closed ides noon ∧
        ((b.asking true ides betweenDays).withPicker p).update ides .enter = .ok b' ∧
        b.Accepts c b') ∧
      c.start = some ides ∧ c.stop = some noon := by
  intro noon
  let due : Field := { name := "due_date", label := "Due", type := .date }
  obtain ⟨b, hb, hstate⟩ := exists_reachable oneDay {} noSearches ides [.enter]
    (fun b : Builder =>
      decide (b.active = true ∧ b.field = some due ∧ b.conditions.conditions = []) &&
      ((b.asking false ides betweenDays).typeKeys ides
        (rangeKeys ides.shown noon.shown .tab)).toOption.any fun b' : Builder => decide
          (b'.conditions.conditions = [rangeCondition due betweenDays ides noon]))
    (by decide +kernel)
  rw [Bool.and_eq_true, decide_eq_true_eq] at hstate
  obtain ⟨⟨hactive, hfield, hempty⟩, hrun⟩ := hstate
  obtain ⟨b', htyped, hone⟩ := exists_ok_of_any hrun
  have haccepts : b.Accepts (rangeCondition due betweenDays ides noon) b' :=
    .inl ⟨hempty, of_decide_eq_true hone⟩
  obtain ⟨p, hsame, hp⟩ := RangePicker.exists_confirmsEnd true ides ides (z := noon) rfl
  obtain ⟨hagree, -⟩ := hb.history.entries_agree hactive hfield rfl (e := betweenDays) (by decide)
    rfl (s := ides) (z := noon) rfl rfl (.inl rfl : Key.tab = .tab ∨ Key.tab = .enter) hsame hp
    (rangeCondition due betweenDays ides noon)
  exact ⟨b, p, _, hb.history, by rw [hfield]; rfl, hp, ⟨b', htyped, haccepts⟩,
    hagree.mp ⟨b', htyped, haccepts⟩, rfl, rfl⟩

end Builder

end EncodedQuery

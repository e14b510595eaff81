/-
  EncodedQuery.Proofs.Builder.Failure
  ───────────────────────────────────
  **WHEN A BUILDER FAILS.**

  Everything that a key needs is there in the state in which it is pressed, so
  only two things go wrong.  The calendar of the days has ends, and neither the
  keys that move a cursor nor the pages that show a month stop short of them.
  And a condition on a field whose name is no text cannot be described when it
  is committed or waits for its link.

  Main result: `Reachable.fails_iff`.
-/
import EncodedQuery.Builder.View
import EncodedQuery.Proofs.Builder.Invariant

namespace EncodedQuery.Builder

/-! ## §1. Keys. -/

/-- The key moves a cursor out of the calendar, or asks for named ranges that do not exist. -/
def Overruns (b : Builder) (now : Instant) (k : Key) : Prop :=
  b.active = true ∧
    ((b.stage = .calendar ∧ b.calendar.Overruns k) ∨
      (b.stage = .rangePicker ∧ b.rangePicker.Overruns now k))

/-- A key that chooses a link. -/
def isLinkKey : Key → Bool
  | .enter | .esc | .char 'a' | .char 'A' | .char 'o' | .char 'O' => true
  | _ => false

/-- The condition that a key commits: the first one at once, a later one with its link. -/
def committed? (b : Builder) (now : Instant) (k : Key) : Option Condition :=
  match b.completed? now k with
  | some c =>
      if b.conditions.conditions.isEmpty && !(Check.condition (some b.table) c).any Issue.isError
      then some c else none
  | none => if b.active && b.stage = .link && isLinkKey k then b.pending else none

/-- A condition on a field whose name is no text. -/
def OnOddName (c : Condition) : Prop := c.field.oddName.isSome = true

/-- A key that works in every stage is a letter with control. -/
theorem exists_ctrl_of_globalKey {b b' : Builder} {now : Instant} {k : Key}
    (h : b.globalKey? now k = some b') : ∃ c, k = .ctrl c := by
  unfold globalKey? at h
  split at h <;> first | exact ⟨_, rfl⟩ | cases h

/-- No letter with control moves a cursor. -/
theorem not_overruns_ctrl (b : Builder) (now : Instant) (c : CodePoint) :
    ¬ b.Overruns now (.ctrl c) := by
  have hnot : ∀ p : Calendar, ¬ p.Overruns (.ctrl c) := by
    rintro p ⟨s, hs, _⟩
    unfold Calendar.shift? at hs
    split at hs
    · cases hs
    · split at hs <;> cases hs
  rintro ⟨_, ⟨_, hover⟩ | ⟨_, _, _, hover | ⟨_, hk, _⟩⟩⟩
  · exact hnot _ hover
  · exact hnot _ hover
  · cases hk

/-- A key of the stage fails exactly when it moves a cursor out of the calendar. -/
theorem fails_stageKey_iff {b : Builder} (ha : b.active = true) (now : Instant) (k : Key) :
    Fails (b.stageKey now k) ↔ b.Overruns now k := by
  unfold stageKey Overruns
  cases hs : b.stage with
  | calendar =>
      simp only [ha, true_and, reduceCtorEq, false_and, or_false]
      exact (fails_bind_pure_iff _ _).trans (Calendar.fails_update_iff _ _ _)
  | rangePicker =>
      simp only [ha, true_and, reduceCtorEq, false_and, false_or]
      exact (fails_bind_pure_iff _ _).trans (RangePicker.fails_update_iff _ _ _)
  | _ => simp

/-- A commit fails exactly when its condition cannot be described. -/
theorem fails_described_iff (b b' : Builder) :
    Fails (b.described b') ↔ b.conditions.conditions.length < b'.conditions.conditions.length ∧
      ∃ c ∈ b'.conditions.conditions.getLast?, OnOddName c := by
  unfold described
  split
  next h => simpa [OnOddName, Option.any_eq_true] using h
  next h => simpa [OnOddName, Option.any_eq_true] using h

/-- The condition that goes to the end of the chain stands at its end. -/
theorem onOddName_append_iff (s : Chain) (c : Condition) (link : Option Link) :
    (∃ d ∈ (s.append c link).conditions.getLast?, OnOddName d) ↔ OnOddName c := by
  simp [Chain.append, OnOddName]

/-- A key that chooses a link commits the condition that waits. -/
theorem conditions_linkKey {b : Builder} {c : Condition} (hp : b.pending = some c) {k : Key}
    (hk : isLinkKey k = true) : ∃ l, (b.linkKey k).conditions = b.conditions.append c l := by
  have hcommit : ∀ l, (b.commit (some l)).conditions = b.conditions.append c (some l) :=
    fun l => congrArg Core.conditions (core_commit hp (some l))
  unfold linkKey
  split
  case h_7 => unfold isLinkKey at hk; split at hk <;> simp_all
  all_goals exact ⟨_, hcommit _⟩

/-- Any other key moves in the list of links. -/
theorem conditions_linkKey_of_other {b : Builder} {k : Key} (hk : isLinkKey k = false) :
    (b.linkKey k).conditions = b.conditions := by
  unfold linkKey
  split
  case h_7 => rfl
  all_goals cases hk

/-- A key of the stage commits a condition on an odd name exactly when `committed?` says so. -/
theorem commits_odd_iff {table : Table} {b b' : Builder} (hb : b.InOrder table)
    (ha : b.active = true) {now : Instant} {k : Key} (hg : b.globalKey? now k = none)
    (h : b.stageKey now k = .ok b') :
    Fails (b.described b') ↔ ∃ c, b.committed? now k = some c ∧ OnOddName c := by
  have hs := step_stageKey hb.coherent hb.lists.1 hb.lists.2.1 h
  have hcompleted : b.completed? now k = b.stageCondition? now k := by
    simp [completed?, ha, hg]
  rw [fails_described_iff]
  unfold committed?
  rw [hcompleted]
  cases hc : b.stageCondition? now k with
  | some c =>
      -- a completed condition is committed now if it is accepted and the first one
      rw [hc] at hs
      by_cases hr : b.core.Rejects c
      · have hsame : b'.conditions = b.conditions := (hs.of_rejects hr).1
        have herror : (Check.condition (some b.table) c).any Issue.isError = true := hr
        simp [hsame, herror]
      · have hok : (Check.condition (some b.table) c).any Issue.isError = false :=
          Bool.eq_false_iff.mpr hr
        rcases hs.of_not_rejects hr with ⟨hempty, happend⟩ | ⟨hne, hsame, _⟩
        · replace hempty : b.conditions.conditions = [] := hempty
          replace happend : b'.conditions = b.conditions.append c none := happend
          rw [happend, onOddName_append_iff]
          simp [hempty, hok]
        · replace hne : b.conditions.conditions ≠ [] := hne
          replace hsame : b'.conditions = b.conditions := hsame
          simp [hsame, hne]
  | none =>
      -- otherwise only the condition that waits can be committed
      rw [hc] at hs
      by_cases hlink : b.stage = .link
      · obtain ⟨c, hp⟩ := Option.isSome_iff_exists.mp (hb.coherent.pending.mpr hlink)
        replace hp : b.pending = some c := hp
        have hkey : b.linkKey k = b' := by
          rw [stageKey, hlink] at h
          exact Except.ok.inj h
        cases hk : isLinkKey k with
        | true =>
            obtain ⟨l, happend⟩ := conditions_linkKey hp hk
            rw [← hkey, happend, onOddName_append_iff]
            simp [ha, hlink, hp]
        | false =>
            rw [← hkey, conditions_linkKey_of_other hk]
            simp
      · have hp : b.core.pending = none := by
          have := mt hb.coherent.pending.mp hlink
          simpa using this
        have hle : b'.conditions.conditions.length ≤ b.conditions.conditions.length :=
          (hs.stays_unlinked (fun _ he => by cases he) hlink hp).2.2
        refine iff_of_false (fun hlt => ?_) ?_
        · omega
        · simp [hlink]

/-- **When a key fails.** -/
theorem fails_update_iff {table : Table} {b : Builder} (hb : b.InOrder table) (now : Instant)
    (k : Key) :
    Fails (b.update now k) ↔
      b.Overruns now k ∨ ∃ c, b.committed? now k = some c ∧ OnOddName c := by
  cases ha : b.active with
  | false =>
      rw [update_of_inactive ha]
      simp [Overruns, committed?, completed?, ha]
  | true =>
      unfold update
      simp only [ha, Bool.not_true, Bool.false_eq_true, if_false]
      cases hg : b.globalKey? now k with
      | some b' =>
          obtain ⟨c, rfl⟩ := exists_ctrl_of_globalKey hg
          simp [not_overruns_ctrl, committed?, completed?, hg, isLinkKey]
      | none =>
          dsimp only
          rw [fails_bind_iff, fails_stageKey_iff ha]
          by_cases hover : b.Overruns now k
          · simp [hover]
          · obtain ⟨b', hb'⟩ := exists_ok_of_not_fails (mt (fails_stageKey_iff ha now k).mp hover)
            have hodd := commits_odd_iff hb ha hg hb'
            simp [hover, hb', hodd]

/-! ## §2. Views. -/

/-- The open calendar shows the days of the first or of the last month. -/
def ShowsEnd (b : Builder) : Prop :=
  b.active = true ∧
    ((b.stage = .calendar ∧ b.calendar.ShowsEnd) ∨
      (b.stage = .rangePicker ∧ b.rangePicker.ShowsEnd))

/-- The condition that waits is on a field whose name is no text. -/
def ShowsOdd (b : Builder) : Prop :=
  b.active = true ∧ b.stage = .link ∧ ∃ c, b.pending = some c ∧ OnOddName c

theorem fails_stageView_iff {b : Builder} (ha : b.active = true) (now : Instant) :
    Fails (b.stageView now) ↔ b.ShowsEnd ∨ b.ShowsOdd := by
  unfold stageView ShowsEnd ShowsOdd
  cases hs : b.stage with
  | calendar => simp [ha, Calendar.fails_view_iff]
  | rangePicker => simp [ha, RangePicker.fails_view_iff]
  | link =>
      simp only [ha, reduceCtorEq, false_and, or_self, and_false, true_and, false_or]
      cases hp : b.pending with
      | none => simp
      | some c => cases ho : c.field.oddName <;> simp [OnOddName, ho]
  | _ => simp

/-- **When a builder cannot be shown.** -/
theorem fails_view_iff (b : Builder) (now : Instant) :
    Fails (b.view now) ↔ b.ShowsEnd ∨ b.ShowsOdd := by
  unfold view
  dsimp only
  by_cases hs : b.stage = .finished
  · rw [if_pos hs, fails_bind_pure_iff]
    simp [ShowsEnd, ShowsOdd, hs]
  · rw [if_neg hs]
    cases ha : b.active with
    | false =>
        rw [Bool.not_false, if_pos rfl, fails_bind_pure_iff]
        simp [ShowsEnd, ShowsOdd, ha]
    | true =>
        rw [Bool.not_true, if_neg Bool.false_ne_true, fails_bind_pure_iff]
        exact fails_stageView_iff ha now

/-! ## §3. Every reachable state. -/

/-- **When a builder fails.**  In every state that a new builder gets to, a key fails exactly when
it moves the cursor of an open calendar out of the years 1 to 9999, asks for the named ranges in
January of year 1, or commits a condition on a field whose name is no text; and the builder cannot
be shown exactly when it shows the days of January of year 1 or of December of year 9999, or a
waiting condition on such a field. -/
theorem Reachable.fails_iff {table : Table} {settings : Settings} {resolver : Resolver}
    {b : Builder} (h : Reachable table settings resolver b) (now : Instant) (k : Key) :
    (Fails (b.update now k) ↔
      b.Overruns now k ∨ ∃ c, b.committed? now k = some c ∧ OnOddName c) ∧
    (Fails (b.view now) ↔ b.ShowsEnd ∨ b.ShowsOdd) :=
  ⟨fails_update_iff h.inOrder now k, fails_view_iff b now⟩

/-- The last day of the calendar. -/
def doomsday : Instant := Instant.startOf ⟨9999, 12, 31, by decide⟩

/-- On the last day of the calendar a key to the right fails, and the page cannot be shown. -/
theorem fails_on_last_day :
    ∃ b, Reachable oneDay {} noSearches b ∧ Fails (b.update doomsday .right) ∧
      Fails (b.view doomsday) := by
  obtain ⟨b, hb, hfails⟩ := exists_reachable oneDay {} noSearches doomsday [.enter, .enter]
    (fun b => !(b.update doomsday .right).isOk && !(b.view doomsday).isOk) (by decide +kernel)
  simp only [Bool.and_eq_true, Bool.not_eq_true'] at hfails
  refine ⟨b, hb, ?_, ?_⟩
  · cases hu : b.update doomsday .right with
    | error f => exact fails_error f
    | ok _ => rw [hu] at hfails; cases hfails.1
  · cases hv : b.view doomsday with
    | error f => exact fails_error f
    | ok _ => rw [hv] at hfails; cases hfails.2

/-- In March 2024 neither does: the cursor has somewhere to go. -/
theorem fails_iff_in_march :
    ∃ b, Reachable oneDay {} noSearches b ∧ b.stage = .calendar ∧
      (Fails (b.update ides .right) ↔
        b.Overruns ides .right ∨ ∃ c, b.committed? ides .right = some c ∧ OnOddName c) ∧
      ¬ Fails (b.update ides .right) := by
  obtain ⟨b, hb, hok⟩ := exists_reachable oneDay {} noSearches ides [.enter, .enter]
    (fun b => decide (b.stage = .calendar) && (b.update ides .right).isOk) (by decide +kernel)
  simp only [Bool.and_eq_true, decide_eq_true_eq] at hok
  refine ⟨b, hb, hok.1, (hb.fails_iff ides .right).1, ?_⟩
  rintro ⟨f, hf⟩
  rw [hf] at hok
  cases hok.2

end EncodedQuery.Builder

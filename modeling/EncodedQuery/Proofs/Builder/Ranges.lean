/-
  EncodedQuery.Proofs.Builder.Ranges
  ──────────────────────────────────
  **WHAT A BUILDER COMMITS CAN BE WRITTEN DOWN.**

  A range of days is the only condition with instants beside its value.  It comes
  out of a picker or out of two lines of text, both of which give whole seconds,
  and its value is the literal of the same two instants.  The check reads this
  literal back before it accepts the condition, so years of fewer than four
  digits, which are written but not read, are never committed.

  Main results:
    • `IsRangeOf.of_check` — what the check says about the two ends,
    • `completed?_cases`, `composed_of_completed?` — where a completed condition
      comes from, and how it is made up,
    • `Reachable.composed`, `Reachable.onNamed` — and so are the committed ones,
      on fields that have a name,
    • `Reachable.ofItems_toJson` — their descriptions are read back.
-/
import EncodedQuery.Proofs.Builder.Failure
import EncodedQuery.Proofs.Builder.Fresh
import EncodedQuery.Proofs.Condition.Described
import EncodedQuery.Proofs.Picker.Order

namespace EncodedQuery

/-! ## §1. Ranges of days. -/

/-- A range of days is the operator that needs a value and makes sense for days alone. -/
theorem OperatorEntry.isRange_iff {ft : FieldType} {e : OperatorEntry}
    (he : e ∈ offered (some ft)) :
    (e.requiresValue = true ∧ e.dateOnly = true) ↔
      (ft.isDate = true ∧ e.token = Operator.between.token) := by
  have hall : ∀ e ∈ offered (some ft), (e.requiresValue = true ∧ e.dateOnly = true) ↔
      (ft.isDate = true ∧ e.token = Operator.between.token) := by
    cases ft <;> decide +kernel
  exact hall e he

namespace Condition

/-- The condition is a range of days: between two whole seconds, which stand beside their
literal. -/
structure IsRangeOf (c : Condition) (a z : Instant) : Prop where
  /-- The field holds days. -/
  isDate : c.field.type.isDate = true
  /-- The operator is the one for ranges. -/
  operator : c.operator = Operator.between.token
  /-- The value is the literal. -/
  value : c.value = Instant.rangeLiteral a z
  /-- The start stands beside it. -/
  start : c.start = some a
  /-- So does the end. -/
  stop : c.stop = some z
  /-- The start is a whole second. -/
  wholeStart : a.micro = 0
  /-- So is the end. -/
  wholeStop : z.micro = 0

/-- The condition has a value and nothing beside it, and it is no range of days. -/
structure IsSingle (c : Condition) : Prop where
  /-- There is no start. -/
  start : c.start = none
  /-- There is no end. -/
  stop : c.stop = none
  /-- On days the operator is not the one for ranges. -/
  operator : c.field.type.isDate = true → c.operator ≠ Operator.between.token

/-- How a builder makes up conditions. -/
def IsComposed (c : Condition) : Prop := c.IsSingle ∨ ∃ a z, c.IsRangeOf a z

theorem IsComposed.relink {c : Condition} (h : c.IsComposed) (link : Option Link) :
    ({ c with link } : Condition).IsComposed := by
  rcases h with h | ⟨a, z, h⟩
  · exact .inl ⟨h.start, h.stop, h.operator⟩
  · exact .inr ⟨a, z, h.isDate, h.operator, h.value, h.start, h.stop, h.wholeStart, h.wholeStop⟩

section
variable {table : Option Table} {c : Condition} {a z : Instant}

/-- What is wrong with a range is wrong with its condition. -/
theorem IsRangeOf.rangeIssues_subset (h : c.IsRangeOf a z)
    (hname : c.field.isNameless = false) :
    Check.rangeIssues c ⊆ Check.condition table c := by
  have hvalueless : Text.isOperatorIn Operator.isValueless c.operator = false := by
    rw [h.operator]
    rfl
  have hoperator : c.operator.isEmpty = false := by
    rw [h.operator]
    rfl
  have hrange : Check.isRange c = true := by
    simp [Check.isRange, h.operator, h.value, Instant.looksLikeRange_rangeLiteral]
  have hvalue : Check.valueIssues c = Check.rangeIssues c := by
    rw [Check.valueIssues, hvalueless, hrange, h.start]
    simp
  intro i hi
  rw [← hvalue] at hi
  unfold Check.condition
  simp only [hname, hoperator, Bool.false_eq_true, if_false]
  exact List.mem_append_right _ hi

/-- **A range without errors lies in the years that a literal can be read from**, and its ends are
in order. -/
theorem IsRangeOf.of_check (h : c.IsRangeOf a z)
    (hc : ∀ i ∈ Check.condition table c, i.isError = false) :
    1000 ≤ a.date.year ∧ 1000 ≤ z.date.year ∧ a ≤ z := by
  have hname : c.field.isNameless = false := by
    by_contra hne
    have hnameless : c.field.isNameless = true := by simpa using hne
    have herror := hc { severity := .error, message := "Field is required" }
      (by simp [Check.condition, hnameless])
    cases herror
  have hrange : ∀ i ∈ Check.rangeIssues c, i.isError = false :=
    fun i hi => hc i (h.rangeIssues_subset hname hi)
  have hvalue : (Instant.rangeLiteral a z).isEmpty = false := rfl
  simp only [Check.rangeIssues, h.value, hvalue, Bool.false_eq_true, if_false] at hrange
  have hread := Instant.readRange_rangeLiteral a z
  -- a literal that is not read is an error
  have hyears : 1000 ≤ a.date.year ∧ 1000 ≤ z.date.year := by
    by_contra hne
    obtain ⟨f, hf⟩ := hread.2 (by omega)
    rw [hf] at hrange
    have herror := hrange _ (List.mem_singleton.mpr rfl)
    cases herror
  refine ⟨hyears.1, hyears.2, ?_⟩
  rw [hread.1 hyears, Instant.wholeSecond_eq_self h.wholeStart,
    Instant.wholeSecond_eq_self h.wholeStop] at hrange
  -- neither is one that is read whose ends are the wrong way round
  by_contra hne
  have hlt : z < a := Nat.lt_of_not_le hne
  simp only [Except.toOption, Option.join_some, Option.map_some, if_pos hlt] at hrange
  have herror := hrange _ (List.mem_singleton.mpr rfl)
  cases herror

end

/-- **A condition that is made up by a builder and accepted can be written down and read back.** -/
theorem IsComposed.instants {table : Option Table} {c : Condition} (h : c.IsComposed)
    (hc : ∀ i ∈ Check.condition table c, i.isError = false) :
    ∀ t ∈ c.instants, t.micro = 0 ∧ 1000 ≤ t.date.year := by
  intro t ht
  rcases h with h | ⟨a, z, h⟩
  · simp [Condition.instants, h.start, h.stop] at ht
  · obtain ⟨ha, hz, _⟩ := h.of_check hc
    have hends : t = a ∨ t = z := by simpa [Condition.instants, h.start, h.stop] using ht
    rcases hends with rfl | rfl
    · exact ⟨h.wholeStart, ha⟩
    · exact ⟨h.wholeStop, hz⟩

end Condition

namespace Builder

/-! ## §2. Stage and operator. -/

/-- While a value is asked for, it is a range exactly when the operator is one for days alone. -/
def Core.AsksRightly (c : Core) : Prop :=
  c.stage.takesValue = true → ∀ e ∈ c.operator, c.stage.takesRange = e.dateOnly

/-- **A key keeps the stage in accord with the operator.** -/
theorem Core.AsksRightly.step {c c' : Core} {k : Key} {d : Option Condition} (h : c.AsksRightly)
    (hs : Core.Step c k d c') : c'.AsksRightly := by
  have hno : ∀ {s : Stage} {p : Prop}, s.takesValue = false → s.takesValue = true → p := by
    intro s p hf ht
    rw [hf] at ht
    cases ht
  cases hs with
  | keep | removeLast => exact h
  | openValue _ _ _ _ _ hr =>
      rintro _ e ⟨⟩
      exact hr
  | @reject _ e d hd _ =>
      rintro hs _ ⟨⟩
      -- in a stage for a value the operator was chosen before
      rcases hd.chooses with ⟨hop, _⟩ | ⟨_, heq⟩
      · rw [show c.stage = .operator from hop] at hs
        cases hs
      · exact h hs e heq
  | cancel hs => exact fun ht => hno (s := c.stage) (by rw [hs]; rfl) ht
  | chooseField | leaveOperators | back | first | later | commit | restart | finish =>
      exact fun ht => hno rfl ht

/-! ## §3. Completed conditions. -/

/-- A typed range has whole seconds. -/
theorem micro_of_typedRange? {b : Builder} {a z : Instant} (h : b.typedRange? = some (a, z)) :
    a.micro = 0 ∧ z.micro = 0 := by
  unfold typedRange? at h
  dsimp only at h
  split at h
  next start read hstart hread =>
    have hstop :
        (if .char ':' ∈ Text.strip b.stopInput.value then read else read.endOfDay).micro = 0 := by
      split
      · exact Instant.micro_of_read hread
      · rfl
    generalize (if .char ':' ∈ Text.strip b.stopInput.value then read else read.endOfDay) = stop
      at h hstop
    split at h <;> cases h
    exact ⟨Instant.micro_of_read hstart, hstop⟩
  next => cases h

/-- A key gives a range: it is the one that the picker closes with, or the one that was typed. -/
def Gives (b : Builder) (now : Instant) (k : Key) (a z : Instant) : Prop :=
  (b.stage = .rangePicker ∧ ∃ p, b.rangePicker.update now k = .ok p ∧ p.Closed a z) ∨
  (b.stage = .rangeText ∧ b.typedRange? = some (a, z))

/-- **Where a completed condition comes from**: an operator that stands without a value, a value, or
a range. -/
theorem completed?_cases {b : Builder} {now : Instant} {k : Key} {c : Condition}
    (h : b.completed? now k = some c) :
    (∃ item, b.operatorList.selected = some item ∧ b.plainCondition? item.value = some c) ∨
    (b.stage.takesValue = true ∧ b.stage.takesRange = false ∧
      ∃ value, b.valueCondition? value = some c) ∨
    (b.stage.takesValue = true ∧ b.stage.takesRange = true ∧
      ∃ a z, b.Gives now k a z ∧ b.rangeCondition? a z = some c) := by
  have hstage : b.stageCondition? now k = some c := by
    unfold completed? at h
    split at h
    · exact h
    · cases h
  unfold stageCondition? at hstage
  split at hstage
  next =>
    split at hstage
    · exact .inl (Option.bind_eq_some_iff.mp hstage)
    · cases hstage
  next hs =>
    split at hstage
    · exact .inr (.inl ⟨by rw [hs]; rfl, by rw [hs]; rfl, _, hstage⟩)
    · cases hstage
  next hs =>
    split at hstage
    · exact .inr (.inl ⟨by rw [hs]; rfl, by rw [hs]; rfl, _, hstage⟩)
    · cases hstage
  next hs =>
    dsimp only at hstage
    split at hstage
    · exact .inr (.inl ⟨by rw [hs]; rfl, by rw [hs]; rfl, _, hstage⟩)
    · cases hstage
  next hs =>
    split at hstage
    · split at hstage
      · exact .inr (.inl ⟨by rw [hs]; rfl, by rw [hs]; rfl, _, hstage⟩)
      · cases hstage
    · cases hstage
  next hs =>
    split at hstage
    next p hp =>
      split at hstage
      next hdone =>
        obtain ⟨⟨a, z⟩, hends, hc⟩ := Option.bind_eq_some_iff.mp hstage
        exact .inr (.inr ⟨by rw [hs]; rfl, by rw [hs]; rfl, a, z,
          .inl ⟨hs, p, hp, by simpa using hdone.1, hdone.2, hends⟩, hc⟩)
      next => cases hstage
    next => cases hstage
  next hs =>
    split at hstage
    · obtain ⟨⟨a, z⟩, htyped, hc⟩ := Option.bind_eq_some_iff.mp hstage
      exact .inr (.inr ⟨by rw [hs]; rfl, by rw [hs]; rfl, a, z, .inr ⟨hs, htyped⟩, hc⟩)
    · cases hstage
  all_goals cases hstage

section
variable {table : Table} {b : Builder} (hb : b.InOrder table)
include hb

/-- The chosen operator is on offer for the chosen field. -/
theorem InOrder.offered {f : Field} {e : OperatorEntry} (hf : b.field = some f)
    (he : b.operator = some e) : e ∈ OperatorEntry.offered (some f.type) :=
  hb.sound.operator f e hf he

variable (hr : b.core.AsksRightly) {c : Condition}
include hr

/-- A value that is given in a stage for values makes a single condition. -/
theorem isSingle_of_valueCondition? {value : Text} (hs : b.stage.takesValue = true)
    (hrange : b.stage.takesRange = false) (h : b.valueCondition? value = some c) :
    c.IsSingle := by
  obtain ⟨f, e, hf, he, rfl⟩ := valueCondition?_eq_some h
  refine ⟨rfl, rfl, fun hdate hop => ?_⟩
  have hboth := (OperatorEntry.isRange_iff (hb.offered hf he)).mpr ⟨hdate, hop⟩
  have hasks := hr hs e he
  rw [show b.core.stage = b.stage from rfl, hrange, hboth.2] at hasks
  cases hasks

/-- A range that is given in a stage for ranges makes a range of days. -/
theorem isRangeOf_of_rangeCondition? {a z : Instant} (hs : b.stage.takesValue = true)
    (hrange : b.stage.takesRange = true) (hwhole : a.micro = 0 ∧ z.micro = 0)
    (h : b.rangeCondition? a z = some c) : c.IsRangeOf a z := by
  obtain ⟨f, e, hf, he, rfl⟩ := rangeCondition?_eq_some h
  obtain ⟨_, e', he', hv⟩ := hb.coherent.value hs
  cases he.symm.trans he'
  have hd : e.dateOnly = true := (hr hs e he).symm.trans hrange
  obtain ⟨hdate, hop⟩ := (OperatorEntry.isRange_iff (hb.offered hf he)).mp ⟨hv, hd⟩
  exact ⟨hdate, hop, rfl, rfl, rfl, hwhole.1, hwhole.2⟩

omit hr in
/-- An operator that stands without a value makes a single condition. -/
theorem isSingle_of_plainCondition? {item : PickItem OperatorEntry}
    (hitem : b.operatorList.selected = some item) (h : b.plainCondition? item.value = some c) :
    c.IsSingle := by
  unfold plainCondition? at h
  split at h
  next => cases h
  next hv =>
    obtain ⟨f, e, hf, he, rfl⟩ := valueCondition?_eq_some h
    cases he
    refine ⟨rfl, rfl, fun hdate hop => hv ?_⟩
    have hmem : item.value ∈ b.core.operators :=
      List.mem_map_of_mem (hb.lists.2.1.mem_of_selected hitem)
    rw [(hb.sound.field f hf).2] at hmem
    exact ((OperatorEntry.isRange_iff hmem).mpr ⟨hdate, hop⟩).1

omit hr in
/-- A range that a key gives has whole seconds. -/
theorem micro_of_gives {now : Instant} {k : Key} {a z : Instant} (h : b.Gives now k a z) :
    a.micro = 0 ∧ z.micro = 0 := by
  rcases h with ⟨_, p, hp, _, _, hends⟩ | ⟨_, htyped⟩
  · exact (hb.lists.2.2.update hp).ends hends
  · exact micro_of_typedRange? htyped

/-- **How a completed condition is made up.** -/
theorem composed_of_completed? {now : Instant} {k : Key} (h : b.completed? now k = some c) :
    c.IsComposed := by
  rcases completed?_cases h with ⟨item, hitem, hc⟩ | ⟨hs, hrange, value, hc⟩ |
    ⟨hs, hrange, a, z, hgives, hc⟩
  · exact .inl (isSingle_of_plainCondition? hb hitem hc)
  · exact .inl (isSingle_of_valueCondition? hb hr hs hrange hc)
  · exact .inr ⟨a, z, isRangeOf_of_rangeCondition? hb hr hs hrange (micro_of_gives hb hgives) hc⟩

end

/-! ## §4. Every reachable state. -/

/-- Every condition that the builder holds is one that it made up. -/
structure Composes (b : Builder) : Prop where
  /-- Stage and operator are in accord. -/
  asks : b.core.AsksRightly
  /-- The waiting condition. -/
  pending : ∀ c ∈ b.pending, c.IsComposed
  /-- The committed ones. -/
  committed : ∀ c ∈ b.conditions.conditions, c.IsComposed

theorem composes_create {table : Table} {settings : Settings} {resolver : Resolver} {now : Instant}
    {b : Builder} (h : create table settings resolver now = .ok b) : b.Composes := by
  unfold create at h
  split at h <;> cases h
  exact ⟨by simp [Core.AsksRightly, core, new, Stage.takesValue], by simp [new],
    by simp [new, Chain.empty]⟩

/-- **An event keeps every condition one that the builder made up.** -/
theorem Composes.after {table : Table} {b b' : Builder} (h : b.Composes) (hb : b.InOrder table)
    {e : Event} (he : b.after e = .ok b') : b'.Composes := by
  rcases core_after he with hcore | ⟨now, k, rfl, hkey⟩
  · have hpending : b'.pending = b.pending := congrArg Core.pending hcore
    have hconditions : b'.conditions = b.conditions := congrArg Core.conditions hcore
    exact ⟨hcore ▸ h.asks, hpending ▸ h.pending, hconditions ▸ h.committed⟩
  · have hs := hb.step hkey
    obtain ⟨hp, hc⟩ := hs.forall_conditions (fun _ link hc => hc.relink link)
      (fun c hc => composed_of_completed? hb h.asks hc) h.pending h.committed
    exact ⟨h.asks.step hs, hp, hc⟩

section
variable {table : Table} {settings : Settings} {resolver : Resolver} {b : Builder}

theorem Reachable.composed (h : Reachable table settings resolver b) : b.Composes := by
  induction h with
  | created h => exact composes_create h
  | event hb h ih => exact ih.after hb.inOrder h

/-- A key that works in every stage adds no condition. -/
theorem length_le_of_globalKey {b' : Builder} (hc : b.core.Coherent) {now : Instant} {k : Key}
    (h : b.globalKey? now k = some b') :
    b'.conditions.conditions.length ≤ b.conditions.conditions.length := by
  by_cases hs : b.stage = .link
  · -- no day is asked for while a link is
    have htoggle : (b.toggleDateMode now).conditions = b.conditions := by
      simp only [toggleDateMode, asksForDate, hs]
      cases b.operator <;> rfl
    unfold globalKey? at h
    split at h <;> cases h
    · exact Nat.le_refl _
    · rw [conditions_refreshValidation]
    · exact Nat.le_refl _
    · unfold removeLast
      rw [conditions_refreshValidation]
      split
      · exact Nat.le_refl _
      next hp => exact Chain.length_le_of_pop? hp
    · exact Nat.zero_le _
    · rw [htoggle]
  · have hp : b.core.pending = none := by
      have := mt hc.pending.mp hs
      simpa using this
    exact ((step_globalKey hc h).stays_unlinked (by simp) hs hp).2.2

/-- The field of the condition has a name. -/
def OnNamed (c : Condition) : Prop := c.field.oddName = none

theorem onNamed_of_not_onOddName {c : Condition} (h : ¬ OnOddName c) : OnNamed c := by
  simpa [OnOddName, OnNamed] using h

/-- A key commits no condition on a field without a name. -/
theorem onNamed_update {b' : Builder} (hb : b.InOrder table) {now : Instant} {k : Key}
    (h : b.update now k = .ok b') (hn : ∀ c ∈ b.conditions.conditions, OnNamed c) :
    ∀ c ∈ b'.conditions.conditions, OnNamed c := by
  cases ha : b.active with
  | false =>
      rw [update_of_inactive ha] at h
      cases h
      exact hn
  | true =>
      -- a condition that was added could be described
      have hlast : b.conditions.conditions.length < b'.conditions.conditions.length →
          ¬ ∃ c ∈ b'.conditions.conditions.getLast?, OnOddName c := by
        rcases update_cases ha h with hg | ⟨_, _, hd⟩
        · exact fun hlt => absurd (length_le_of_globalKey hb.coherent hg) (Nat.not_le.mpr hlt)
        · have hok : ¬ Fails (b.described b') := by
            rw [hd]
            exact not_fails_ok b'
          rw [fails_described_iff] at hok
          exact fun hlt hodd => hok ⟨hlt, hodd⟩
      have hlink : ∀ c link, OnNamed c → OnNamed { c with link } := fun _ _ hc => hc
      rcases (hb.step h).conditions_cases with heq | ⟨c, link, _, heq⟩ | ⟨_, c, hp⟩ | ⟨_, heq⟩
      · rwa [show b'.conditions = b.conditions from heq]
      · replace heq : b'.conditions = b.conditions.append c link := heq
        have hnew : OnNamed c := by
          have hnot := hlast (by rw [heq, Chain.length_append]; exact Nat.lt_succ_self _)
          rw [heq, onOddName_append_iff] at hnot
          exact onNamed_of_not_onOddName hnot
        rw [heq]
        exact Chain.forall_mem_append hlink hn hnew link
      · exact Chain.forall_mem_of_pop? hlink hn hp
      · rw [show b'.conditions = .empty from heq]
        simp [Chain.empty]

/-- **Every committed condition is on a field that has a name.** -/
theorem Reachable.onNamed (h : Reachable table settings resolver b) :
    ∀ c ∈ b.conditions.conditions, OnNamed c := by
  induction h with
  | created h =>
      unfold create at h
      split at h <;> cases h
      simp [new, Chain.empty]
  | @event b b' e hb h ih =>
      rcases core_after h with hcore | ⟨now, k, rfl, hkey⟩
      · rwa [show b'.conditions = b.conditions from congrArg Core.conditions hcore]
      · exact onNamed_update hb.inOrder hkey ih

/-- **What is committed can be written down and read back.** -/
theorem Reachable.ofItems_toJson (h : Reachable table settings resolver b) :
    Chain.ofItems b.conditions.toJson = .ok b.conditions := by
  have hsound := h.inOrder.sound
  have hinstants : ∀ c ∈ b.conditions.conditions, ∀ t ∈ c.instants,
      t.micro = 0 ∧ 1000 ≤ t.date.year :=
    fun c hc => (h.composed.committed c hc).instants (hsound.committed c hc).check
  have hplain : ∀ c ∈ b.conditions.conditions, c.IsPlain :=
    fun c hc => ⟨h.onNamed c hc, fun t ht => (hinstants c hc t ht).1⟩
  exact (Chain.ofItems_toJson hsound.linked hplain).1 fun c hc t ht => (hinstants c hc t ht).2

end

end Builder

end EncodedQuery

/-
  EncodedQuery.Proofs.Builder.Step
  ────────────────────────────────
  **KEYS ARE STEPS OF THE CORE.**

  `completed?` names the condition that a key completes: the widget of the stage
  gives a value, and field and operator are there.  Every key that the builder
  takes is then one of the steps that its core can make, with that condition.
  A picker closes before its value is checked, so the steps start from a core
  whose pickers are closed, and a rejected value opens its picker again.

  Main results:
    • `step_update` — a key is a step of the core,
    • `core_receive_answer`, `core_poll` — answers to searches leave it as it is.
-/
import EncodedQuery.Proofs.Builder.Core
import EncodedQuery.Proofs.Builder.Session
import EncodedQuery.Proofs.Reference.Picker

namespace EncodedQuery.Builder

/-! ## §1. The condition that a key completes. -/

/-- The condition with a value for the chosen field and operator. -/
def valueCondition? (b : Builder) (value : Text) : Option Condition :=
  match b.field, b.operator with
  | some f, some e => some { field := f, operator := e.token, value }
  | _, _ => none

/-- The condition with a range for the chosen field and operator. -/
def rangeCondition? (b : Builder) (start stop : Instant) : Option Condition :=
  match b.field, b.operator with
  | some f, some e =>
      some { field := f, operator := e.token, value := Instant.rangeLiteral start stop,
             start := some start, stop := some stop }
  | _, _ => none

/-- The condition of an operator that stands without a value. -/
def plainCondition? (b : Builder) (e : OperatorEntry) : Option Condition :=
  if e.requiresValue then none
  else valueCondition? { b with operator := some e }
    (if b.field.any (fun f => f.type = .boolean) then "true" else [])

/-- The typed range, if both ends are instants in order. -/
def typedRange? (b : Builder) : Option (Instant × Instant) :=
  let stopText := Text.strip b.stopInput.value
  match Instant.read Pattern.rangeInput (Text.strip b.startInput.value),
      Instant.read Pattern.rangeInput stopText with
  | .ok start, .ok read =>
      let stop := if .char ':' ∈ stopText then read else read.endOfDay
      if (RangePicker.problem b.rangePicker.allowSameDay start stop).isEmpty then
        some (start, stop)
      else none
  | _, _ => none

/-- The day that a calendar gives: with its time if the field has one. -/
def calendarText (b : Builder) (c : Calendar) : Text :=
  if b.field.any (fun f => f.type = .dateTime) then c.backendText else c.instant.date.shown

/-- The condition that a key of the stage completes. -/
def stageCondition? (b : Builder) (now : Instant) (k : Key) : Option Condition :=
  match b.stage with
  | .operator =>
      if k = .enter then b.operatorList.selected.bind (fun item => b.plainCondition? item.value)
      else none
  | .value => if k = .enter then b.valueCondition? (Text.strip b.valueInput.value) else none
  | .choice =>
      if k = .enter then b.valueCondition? (Text.join "," (chosenValues b.choiceList)) else none
  | .reference =>
      let p := b.reference.update k
      if !p.active ∧ p.completed then b.valueCondition? p.value else none
  | .calendar =>
      match b.calendar.update now k with
      | .ok c => if !c.active ∧ c.completed then b.valueCondition? (b.calendarText c) else none
      | .error _ => none
  | .rangePicker =>
      match b.rangePicker.update now k with
      | .ok p =>
          if !p.active ∧ p.completed then p.ends?.bind (fun (a, z) => b.rangeCondition? a z)
          else none
      | .error _ => none
  | .rangeText =>
      if k = .enter ∧ b.focusStop then b.typedRange?.bind (fun (a, z) => b.rangeCondition? a z)
      else none
  | .field | .link | .finished => none

/-- The condition that a key completes. -/
def completed? (b : Builder) (now : Instant) (k : Key) : Option Condition :=
  if b.active && (b.globalKey? now k).isNone then b.stageCondition? now k else none

theorem valueCondition?_eq_some {b : Builder} {value : Text} {c : Condition}
    (h : b.valueCondition? value = some c) :
    ∃ f e, b.field = some f ∧ b.operator = some e ∧
      c = { field := f, operator := e.token, value } := by
  unfold valueCondition? at h
  split at h <;> cases h
  next hf he => exact ⟨_, _, hf, he, rfl⟩

theorem rangeCondition?_eq_some {b : Builder} {a z : Instant} {c : Condition}
    (h : b.rangeCondition? a z = some c) :
    ∃ f e, b.field = some f ∧ b.operator = some e ∧
      c = { field := f, operator := e.token, value := Instant.rangeLiteral a z,
            start := some a, stop := some z } := by
  unfold rangeCondition? at h
  split at h <;> cases h
  next hf he => exact ⟨_, _, hf, he, rfl⟩

/-! ## §2. Cores of the builder's functions. -/

@[simp] theorem core_refreshValidation (b : Builder) : b.refreshValidation.core = b.core := by
  unfold refreshValidation
  split <;> rfl

@[simp] theorem core_clearScratch (b : Builder) : b.clearScratch.core = b.core.cleared := by
  cases h : b.reference.active <;>
    simp [clearScratch, core, Core.cleared, Core.closed, h, Calendar.deactivate,
      RangePicker.deactivate, ReferencePicker.deactivate]

theorem core_commit {b : Builder} {c : Condition} (h : b.pending = some c) (link : Option Link) :
    (b.commit link).core =
      { b.core.cleared with conditions := b.conditions.append c link, stage := .field } := by
  unfold commit
  rw [h]
  dsimp only
  rw [core_refreshValidation]
  -- the last fields are set on a builder whose core is the cleared one
  show { (clearScratch { b with conditions := b.conditions.append c link }).core with
    stage := .field } = _
  rw [core_clearScratch]
  rfl

/-- The picker of the stage opens again, the others stay as they are. -/
theorem core_reopenPicker (b : Builder) :
    b.reopenPicker.core =
      { b.core with
        calendarOpen := b.core.calendarOpen || decide (b.core.stage = .calendar)
        rangeOpen := b.core.rangeOpen || decide (b.core.stage = .rangePicker)
        referenceOpen := b.core.referenceOpen || decide (b.core.stage = .reference) } := by
  unfold reopenPicker
  split <;> simp_all [core, Calendar.activate, RangePicker.reopen, ReferencePicker.activate]

theorem core_removeLast (b : Builder) :
    b.removeLast.core =
      match b.conditions.pop? with
      | none => b.core
      | some (_, rest) => { b.core with conditions := rest } := by
  unfold removeLast
  rw [core_refreshValidation]
  cases b.conditions.pop? <;> rfl

theorem core_reset (b : Builder) :
    b.reset.core = { b.core.cleared with conditions := .empty, stage := .field } := by
  show { (clearScratch { b with conditions := Chain.empty }).core with stage := .field } = _
  rw [core_clearScratch]
  rfl

theorem core_cancel (b : Builder) :
    b.cancel.core = { b.core.cleared with conditions := .empty, active := false } := by
  show { (clearScratch { b with conditions := Chain.empty }).core with active := false } = _
  rw [core_clearScratch]
  rfl

@[simp] theorem core_chooseField (b : Builder) (f : Field) :
    (b.chooseField f).core =
      { b.core with field := some f, operator := none,
                    operators := OperatorEntry.offered (some f.type), stage := .operator } := by
  simp only [chooseField, core, PickList.items_setItems, List.map_map]
  congr 1
  exact List.map_id _

/-- The answer to a search changes no core. -/
@[simp] theorem core_deliver (b : Builder) (r : SearchResult) : (b.deliver r).core = b.core := by
  unfold deliver
  split
  · simp [core]
  · rfl

theorem core_receive_answer {b b' : Builder} {r : SearchResult}
    (h : b.receive (.answer r) = .ok b') : b'.core = b.core := by
  cases h
  exact core_deliver b r

theorem core_foldl_deliver (answers : List SearchResult) :
    ∀ b : Builder, (answers.foldl deliver b).core = b.core := by
  induction answers with
  | nil => exact fun _ => rfl
  | cons r rest ih => exact fun b => (ih (b.deliver r)).trans (core_deliver b r)

@[simp] theorem core_poll (b : Builder) : b.poll.2.core = b.core :=
  core_foldl_deliver _ _

/-! ## §3. Values. -/

section
variable {c : Core} (h : c.Coherent)
include h

theorem Core.Coherent.calendarOpen_eq_false (hs : c.stage ≠ .calendar) : c.calendarOpen = false :=
  Bool.eq_false_iff.mpr (mt h.calendar.mp hs)

theorem Core.Coherent.rangeOpen_eq_false (hs : c.stage ≠ .rangePicker) : c.rangeOpen = false :=
  Bool.eq_false_iff.mpr (mt h.rangePicker.mp hs)

theorem Core.Coherent.referenceOpen_eq_false (hs : c.stage ≠ .reference) :
    c.referenceOpen = false :=
  Bool.eq_false_iff.mpr (mt h.reference.mp hs)

/-- In a stage without a picker all pickers are closed. -/
theorem Core.Coherent.closed_eq (hc : c.stage ≠ .calendar) (hr : c.stage ≠ .rangePicker)
    (href : c.stage ≠ .reference) : c.closed = c := by
  ext1 <;> simp [closed, h.calendarOpen_eq_false hc, h.rangeOpen_eq_false hr,
    h.referenceOpen_eq_false href]

end

/-- The picker of the stage, and no other, is open in a coherent core. -/
theorem Core.Coherent.open_eq {c : Core} (h : c.Coherent) :
    decide (c.stage = .calendar) = c.calendarOpen ∧
    decide (c.stage = .rangePicker) = c.rangeOpen ∧
    decide (c.stage = .reference) = c.referenceOpen :=
  ⟨Bool.eq_iff_iff.mpr (decide_eq_true_iff.trans h.calendar.symm),
   Bool.eq_iff_iff.mpr (decide_eq_true_iff.trans h.rangePicker.symm),
   Bool.eq_iff_iff.mpr (decide_eq_true_iff.trans h.reference.symm)⟩

/-- A rejected condition leaves its first error, and the picker opens again. -/
theorem submit_of_error {table : Table} {d : Condition}
    (h : (Check.condition (some table) d).any Issue.isError = true) :
    ∃ first : Issue, ∀ b : Builder, b.table = table →
      b.submit d = reopenPicker { b with error := first.format } := by
  obtain ⟨i, hi, herror⟩ := List.any_eq_true.mp h
  have hmem : i ∈ (Check.condition (some table) d).filter Issue.isError :=
    List.mem_filter.mpr ⟨hi, herror⟩
  obtain ⟨first, rest, heq⟩ := List.exists_cons_of_ne_nil (List.ne_nil_of_mem hmem)
  refine ⟨first, fun b hb => ?_⟩
  subst hb
  simp only [submit, heq]

theorem core_submit_of_no_error {b : Builder} {d : Condition}
    (h : ¬ (Check.condition (some b.table) d).any Issue.isError = true) :
    (b.submit d).core =
      if b.conditions.conditions = [] then
        { b.core.cleared with conditions := b.conditions.append d none, stage := .field }
      else { b.core with pending := some d, stage := .link } := by
  have hnil : (Check.condition (some b.table) d).filter Issue.isError = [] :=
    List.filter_eq_nil_iff.mpr fun i hi herror => h (List.any_eq_true.mpr ⟨i, hi, herror⟩)
  unfold submit
  dsimp only
  rw [hnil]
  dsimp only
  by_cases hc : b.conditions.conditions = []
  · rw [if_pos (List.isEmpty_iff.mpr hc), if_pos hc, core_commit rfl]
    rfl
  · rw [if_neg (mt List.isEmpty_iff.mp hc), if_neg hc]
    rfl

/-- **A completed condition is a step**, taken from a builder whose pickers are closed. -/
theorem step_submit {b b₀ : Builder} {k : Key} {e : OperatorEntry} {d : Condition}
    (hc : b.core.Coherent) (h₀ : b₀.core = { b.core.closed with operator := some e })
    (hd : b.core.Completes e d) : Core.Step b.core k (some d) (b₀.submit d).core := by
  have htable : b₀.table = b.table := congrArg Core.table h₀
  have hconditions : b₀.conditions = b.conditions := congrArg Core.conditions h₀
  by_cases hr : b.core.Rejects d
  · obtain ⟨first, hsubmit⟩ := submit_of_error hr
    have hreject : (b₀.submit d).core = { b.core with operator := some e } := by
      obtain ⟨hcalendar, hrange, hreference⟩ := hc.open_eq
      have herror : ({ b₀ with error := first.format } : Builder).core = b₀.core := rfl
      rw [hsubmit b₀ htable, core_reopenPicker, herror, h₀]
      show { b.core with
        operator := some e
        calendarOpen := decide (b.core.stage = Stage.calendar)
        rangeOpen := decide (b.core.stage = Stage.rangePicker)
        referenceOpen := decide (b.core.stage = Stage.reference) } = _
      rw [hcalendar, hrange, hreference]
    rw [hreject]
    exact .reject hd hr
  · have haccept := core_submit_of_no_error (b := b₀) (d := d) (by rw [htable]; exact hr)
    rw [hconditions, h₀] at haccept
    rw [haccept]
    split
    next hempty => exact .first hd hr hempty
    next hne => exact .later hd hr hne

theorem submitValue_eq (b : Builder) (value : Text) :
    b.submitValue value = (b.valueCondition? value).elim b b.submit := by
  unfold submitValue valueCondition?
  cases b.field <;> cases b.operator <;> rfl

theorem submitRange_eq (b : Builder) (start stop : Instant) :
    b.submitRange start stop = (b.rangeCondition? start stop).elim b b.submit := by
  unfold submitRange rangeCondition?
  cases b.field <;> cases b.operator <;> rfl

/-! ## §4. Stages that ask for a value. -/

section
variable {b : Builder} (hc : b.core.Coherent) (hs : b.stage.takesValue = true)
include hc hs

/-- Field and operator are there when a value is asked for. -/
theorem exists_chosen : ∃ f e, b.field = some f ∧ b.operator = some e ∧ e.requiresValue = true := by
  obtain ⟨hf, e, he, hv⟩ := hc.value hs
  obtain ⟨f, hf⟩ := Option.isSome_iff_exists.mp hf
  exact ⟨f, e, hf, he, hv⟩

/-- The condition with a value for the chosen field and operator is completed. -/
theorem step_submitValue {b₀ : Builder} {k : Key} (h₀ : b₀.core = b.core.closed) (value : Text) :
    Core.Step b.core k (b.valueCondition? value) (b₀.submitValue value).core := by
  obtain ⟨f, e, hf, he, _⟩ := exists_chosen hc hs
  have hf₀ : b₀.field = some f := (congrArg Core.field h₀).trans hf
  have he₀ : b₀.operator = some e := (congrArg Core.operator h₀).trans he
  rw [submitValue_eq]
  simp only [valueCondition?, hf, he, hf₀, he₀, Option.elim]
  refine step_submit (e := e) hc ?_ ⟨.inr ⟨hs, he⟩, hf, rfl, rfl⟩
  rw [h₀, ← he]
  rfl

/-- So is the one with a range. -/
theorem step_submitRange {b₀ : Builder} {k : Key} (h₀ : b₀.core = b.core.closed)
    (start stop : Instant) :
    Core.Step b.core k (b.rangeCondition? start stop) (b₀.submitRange start stop).core := by
  obtain ⟨f, e, hf, he, _⟩ := exists_chosen hc hs
  have hf₀ : b₀.field = some f := (congrArg Core.field h₀).trans hf
  have he₀ : b₀.operator = some e := (congrArg Core.operator h₀).trans he
  rw [submitRange_eq]
  simp only [rangeCondition?, hf, he, hf₀, he₀, Option.elim]
  refine step_submit (e := e) hc ?_ ⟨.inr ⟨hs, he⟩, hf, rfl, rfl⟩
  rw [h₀, ← he]
  rfl

omit hc in
theorem step_backToOperators {b₀ : Builder} {k : Key} (h₀ : b₀.core = b.core.closed) :
    Core.Step b.core k none b₀.backToOperators.core := by
  have heq : b₀.backToOperators.core =
      { b.core.closed with operator := none, stage := .operator } := by
    rw [← h₀]
    rfl
  rw [heq]
  exact .back hs

end

/-! ## §5. Operators. -/

/-- The widget for a value opens, and no other; it is one for a range exactly with an operator for
days alone. -/
theorem core_openValue (b : Builder) (now : Instant) (f : Field) (e : OperatorEntry)
    (h : b.core.closed = b.core) :
    ∃ s t, s.takesValue = true ∧ (s = .reference → t = f.reference) ∧
      s.takesRange = e.dateOnly ∧
      (b.openValue now f e).core = { b.core.opened s with referenceTable := t } := by
  have hcalendar : b.core.calendarOpen = false := by rw [← h]; rfl
  have hrange : b.core.rangeOpen = false := by rw [← h]; rfl
  have hreference : b.core.referenceOpen = false := by rw [← h]; rfl
  unfold openValue
  dsimp only
  split
  next hd =>
    split
    · refine ⟨.rangePicker, b.core.referenceTable, rfl, by simp, hd.symm, ?_⟩
      ext1 <;> first | rfl | assumption
    · refine ⟨.rangeText, b.core.referenceTable, rfl, by simp, hd.symm, ?_⟩
      ext1 <;> first | rfl | assumption
  next hd =>
    replace hd : false = e.dateOnly := (Bool.eq_false_iff.mpr hd).symm
    split
    · refine ⟨.choice, b.core.referenceTable, rfl, by simp, hd, ?_⟩
      ext1 <;> first | rfl | assumption
    · split
      · refine ⟨.reference, f.reference, rfl, fun _ => rfl, hd, ?_⟩
        ext1 <;> first | rfl | assumption
      · split
        · refine ⟨.calendar, b.core.referenceTable, rfl, by simp, hd, ?_⟩
          ext1 <;> first | rfl | assumption
        · refine ⟨.value, b.core.referenceTable, rfl, by simp, hd, ?_⟩
          ext1 <;> first | rfl | assumption

theorem chooseOperator_eq {b : Builder} {f : Field} (h : b.field = some f) (now : Instant)
    (e : OperatorEntry) :
    b.chooseOperator now e =
      if e.requiresValue then openValue { b with operator := some e, error := [] } now f e
      else submitValue { b with operator := some e, error := [] }
        (if f.type = .boolean then "true" else []) := by
  cases b
  cases h
  rfl

theorem chooseOperator_of_none {b : Builder} (h : b.field = none) (now : Instant)
    (e : OperatorEntry) : b.chooseOperator now e = { b with operator := some e, error := [] } := by
  cases b
  cases h
  rfl

/-- **The choice of an operator is a step**: it opens the widget for a value, or completes a
condition without one. -/
theorem step_chooseOperator {b b₀ : Builder} {e : OperatorEntry} {k : Key}
    (hc : b.core.Coherent) (he : b.core.Chooses e) (h₀ : b₀.core = b.core.closed) (now : Instant) :
    Core.Step b.core k (b.plainCondition? e) (b₀.chooseOperator now e).core := by
  have hf : b.field.isSome := by
    rcases he with ⟨hs, _⟩ | ⟨hs, _⟩
    · exact hc.operator hs
    · exact (hc.value hs).1
  obtain ⟨f, hf⟩ := Option.isSome_iff_exists.mp hf
  rw [chooseOperator_eq ((congrArg Core.field h₀).trans hf)]
  have hchosen : ({ b₀ with operator := some e, error := [] } : Builder).core =
      { b.core.closed with operator := some e } := by
    rw [← h₀]
    rfl
  have hchosenField : ({ b₀ with operator := some e, error := [] } : Builder).field = some f :=
    (congrArg Core.field hchosen).trans hf
  generalize ({ b₀ with operator := some e, error := [] } : Builder) = b₁ at hchosen hchosenField
  cases hv : e.requiresValue with
  | true =>
      obtain ⟨s, t, hs, ht, hd, heq⟩ := core_openValue b₁ now f e (by rw [hchosen]; rfl)
      have hnone : b.plainCondition? e = none := by simp [plainCondition?, hv]
      rw [hnone, if_pos rfl, heq, hchosen]
      exact .openValue he hf hv hs ht hd
  | false =>
      have hoperator : b₁.operator = some e := congrArg Core.operator hchosen
      have hcondition : b.plainCondition? e =
          b₁.valueCondition? (if f.type = .boolean then "true" else []) := by
        simp [plainCondition?, valueCondition?, hv, hf, hchosenField, hoperator]
      rw [if_neg (by simp), submitValue_eq, hcondition]
      simp only [valueCondition?, hchosenField, hoperator, Option.elim]
      have hd : b.core.Completes e (Condition.mk f e.token
          (if f.type = .boolean then "true" else []) none none none) := ⟨he, hf, rfl, rfl⟩
      exact step_submit hc hchosen hd

/-! ## §6. Stages one by one. -/

theorem step_fieldKey {b : Builder} (hs : b.stage = .field) (hl : b.fieldList.Valid) (k : Key) :
    Core.Step b.core k none (b.fieldKey k).core := by
  unfold fieldKey
  split
  · split
    · exact .keep
    next item hitem =>
      rw [core_chooseField]
      exact .chooseField hs (List.mem_map_of_mem (hl.mem_of_selected hitem))
  · rw [core_cancel]
    exact .cancel hs
  · unfold finish
    split
    · exact .keep
    next hne => exact .finish hs (mt List.isEmpty_iff.mpr hne)
  · have heq : ({ b with fieldList := (b.fieldList.handle k).1 } : Builder).core = b.core := by
      simp [core]
    rw [heq]
    exact .keep

section
variable {b : Builder} (hc : b.core.Coherent)
include hc

theorem step_operatorKey (hs : b.stage = .operator) (hl : b.operatorList.Valid) (now : Instant)
    (k : Key) : Core.Step b.core k (b.stageCondition? now k) (b.operatorKey now k).core := by
  have h₀ : b.core = b.core.closed :=
    (hc.closed_eq (by simp [core, hs]) (by simp [core, hs]) (by simp [core, hs])).symm
  have hkeep : ∀ k, Core.Step b.core k none
      ({ b with operatorList := (b.operatorList.handle k).1 } : Builder).core := by
    intro k
    have heq :
        ({ b with operatorList := (b.operatorList.handle k).1 } : Builder).core = b.core := by
      simp [core]
    rw [heq]
    exact .keep
  simp only [stageCondition?, hs]
  cases k with
  | enter =>
      simp only [operatorKey, if_true]
      cases hitem : b.operatorList.selected with
      | none => exact .keep
      | some item =>
          refine step_chooseOperator hc (.inl ⟨hs, ?_⟩) h₀ now
          exact List.mem_map_of_mem (hl.mem_of_selected hitem)
  | esc => exact .leaveOperators hs
  | _ => exact hkeep _

theorem step_valueKey (hs : b.stage = .value) (now : Instant) (k : Key) :
    Core.Step b.core k (b.stageCondition? now k) (b.valueKey k).core := by
  have hv : b.stage.takesValue = true := by rw [hs]; rfl
  have h₀ : b.core = b.core.closed :=
    (hc.closed_eq (by simp [core, hs]) (by simp [core, hs]) (by simp [core, hs])).symm
  simp only [stageCondition?, hs]
  cases k with
  | enter => exact step_submitValue hc hv h₀ _
  | esc => exact step_backToOperators hv h₀
  | _ => exact .keep

theorem step_choiceKey (hs : b.stage = .choice) (now : Instant) (k : Key) :
    Core.Step b.core k (b.stageCondition? now k) (b.choiceKey k).core := by
  have hv : b.stage.takesValue = true := by rw [hs]; rfl
  have h₀ : b.core = b.core.closed :=
    (hc.closed_eq (by simp [core, hs]) (by simp [core, hs]) (by simp [core, hs])).symm
  simp only [stageCondition?, hs]
  unfold choiceKey
  split
  · exact step_submitValue hc hv h₀ _
  · split
    · exact .keep
    · split
      · exact step_backToOperators hv h₀
      · exact .keep

theorem step_confirmRangeText (hs : b.stage = .rangeText) :
    Core.Step b.core .enter (b.typedRange?.bind (fun (a, z) => b.rangeCondition? a z))
      b.confirmRangeText.core := by
  have hv : b.stage.takesValue = true := by rw [hs]; rfl
  have h₀ : b.core = b.core.closed :=
    (hc.closed_eq (by simp [core, hs]) (by simp [core, hs]) (by simp [core, hs])).symm
  unfold confirmRangeText typedRange?
  dsimp only
  cases Instant.read Pattern.rangeInput (Text.strip b.startInput.value) with
  | error _ => exact .keep
  | ok start =>
      cases Instant.read Pattern.rangeInput (Text.strip b.stopInput.value) with
      | error _ => exact .keep
      | ok read =>
          dsimp only
          generalize
            (if .char ':' ∈ Text.strip b.stopInput.value then read else read.endOfDay) = stop
          split
          · exact step_submitRange hc hv h₀ _ _
          · exact .keep

theorem step_rangeTextKey (hs : b.stage = .rangeText) (now : Instant) (k : Key) :
    Core.Step b.core k (b.stageCondition? now k) (b.rangeTextKey k).core := by
  have hv : b.stage.takesValue = true := by rw [hs]; rfl
  have h₀ : b.core = b.core.closed :=
    (hc.closed_eq (by simp [core, hs]) (by simp [core, hs]) (by simp [core, hs])).symm
  have hkeep : ∀ k, Core.Step b.core k none
      (if b.focusStop then { b with stopInput := (b.stopInput.handle k).1 }
        else { b with startInput := (b.startInput.handle k).1 } : Builder).core := by
    intro k
    split <;> exact .keep
  simp only [stageCondition?, hs]
  cases k with
  | enter =>
      simp only [rangeTextKey, true_and]
      split
      · exact step_confirmRangeText hc hs
      · exact .keep
  | esc => exact step_backToOperators hv h₀
  | tab => exact .keep
  | _ => exact hkeep _

theorem step_referenceKey (hs : b.stage = .reference) (now : Instant) (k : Key) :
    Core.Step b.core k (b.stageCondition? now k) (b.referenceKey k).core := by
  have hv : b.stage.takesValue = true := by rw [hs]; rfl
  have hopen : b.reference.active = true := hc.reference.mpr hs
  have hcore : ({ b with reference := b.reference.update k } : Builder).core =
      { b.core with referenceOpen := (b.reference.update k).active } := by
    simp only [core, ReferencePicker.table_update]
  have hclosed : { b.core with referenceOpen := false } = b.core.closed := by
    ext1 <;> simp [Core.closed, hc.calendarOpen_eq_false (by simp [core, hs]),
      hc.rangeOpen_eq_false (by simp [core, hs])]
  simp only [stageCondition?, hs]
  unfold referenceKey
  dsimp only
  -- a picker that still takes keys is not done; one that is closed gives a value or was left
  cases ha : (b.reference.update k).active with
  | true =>
      rw [ha] at hcore
      have hsame : { b.core with referenceOpen := true } = b.core := by
        ext1 <;> first | rfl | exact hopen.symm
      simpa [hcore, hsame] using Core.Step.keep
  | false =>
      have h₀ := (ha ▸ hcore).trans hclosed
      simp only [Bool.not_false, true_and, Bool.false_eq_true, if_false]
      split
      · exact step_submitValue hc hv h₀ _
      · exact step_backToOperators hv h₀

theorem step_calendarKey (hs : b.stage = .calendar) {now : Instant} {k : Key} {b' : Builder}
    (h : b.calendarKey now k = .ok b') :
    Core.Step b.core k (b.stageCondition? now k) b'.core := by
  have hv : b.stage.takesValue = true := by rw [hs]; rfl
  have hopen : b.calendar.active = true := hc.calendar.mpr hs
  have hclosed : { b.core with calendarOpen := false } = b.core.closed := by
    ext1 <;> simp [Core.closed, hc.rangeOpen_eq_false (by simp [core, hs]),
      hc.referenceOpen_eq_false (by simp [core, hs])]
  simp only [stageCondition?, hs]
  unfold calendarKey at h
  cases hupdate : b.calendar.update now k with
  | error f =>
      rw [hupdate] at h
      cases h
  | ok c =>
      rw [hupdate] at h
      have hcore : ({ b with calendar := c } : Builder).core =
          { b.core with calendarOpen := c.active } := rfl
      cases h
      dsimp only
      cases ha : c.active with
      | true =>
          rw [ha] at hcore
          have hsame : { b.core with calendarOpen := true } = b.core := by
            ext1 <;> first | rfl | exact hopen.symm
          simpa [hcore, hsame] using Core.Step.keep
      | false =>
          have h₀ := (ha ▸ hcore).trans hclosed
          simp only [Bool.not_false, true_and, Bool.false_eq_true, if_false]
          split
          · exact step_submitValue hc hv h₀ _
          · exact step_backToOperators hv h₀

theorem step_rangePickerKey (hs : b.stage = .rangePicker) {now : Instant} {k : Key} {b' : Builder}
    (h : b.rangePickerKey now k = .ok b') :
    Core.Step b.core k (b.stageCondition? now k) b'.core := by
  have hv : b.stage.takesValue = true := by rw [hs]; rfl
  have hopen : b.rangePicker.active = true := hc.rangePicker.mpr hs
  have hclosed : { b.core with rangeOpen := false } = b.core.closed := by
    ext1 <;> simp [Core.closed, hc.calendarOpen_eq_false (by simp [core, hs]),
      hc.referenceOpen_eq_false (by simp [core, hs])]
  simp only [stageCondition?, hs]
  unfold rangePickerKey at h
  cases hupdate : b.rangePicker.update now k with
  | error f =>
      rw [hupdate] at h
      cases h
  | ok p =>
      rw [hupdate] at h
      have hcore : ({ b with rangePicker := p } : Builder).core =
          { b.core with rangeOpen := p.active } := rfl
      cases h
      dsimp only
      cases ha : p.active with
      | true =>
          rw [ha] at hcore
          have hsame : { b.core with rangeOpen := true } = b.core := by
            ext1 <;> first | rfl | exact hopen.symm
          simpa [hcore, hsame] using Core.Step.keep
      | false =>
          have h₀ := (ha ▸ hcore).trans hclosed
          simp only [Bool.not_false, true_and, Bool.false_eq_true, if_false]
          cases hcompleted : p.completed <;> cases hends : p.ends? with
          | none => exact step_backToOperators hv h₀
          | some r => first
            | exact step_backToOperators hv h₀
            | exact step_submitRange hc hv h₀ _ _

omit hc in
theorem step_commit (hs : b.stage = .link) (k : Key) (link : Option Link) :
    Core.Step b.core k none (b.commit link).core := by
  cases hp : b.pending with
  | none =>
      have heq : b.commit link = b := by
        unfold commit
        rw [hp]
      rw [heq]
      exact .keep
  | some d =>
      rw [core_commit hp]
      exact .commit link hs hp

omit hc in
theorem step_linkKey (hs : b.stage = .link) (now : Instant) (k : Key) :
    Core.Step b.core k (b.stageCondition? now k) (b.linkKey k).core := by
  simp only [stageCondition?, hs]
  unfold linkKey
  -- all keys but those for the list choose a link
  split
  case h_7 => exact .keep
  all_goals exact step_commit hs _ _

/-! ## §7. Keys that work in every stage. -/

omit hc in
theorem takesValue_of_asksForDate (h : b.asksForDate = true) :
    b.stage.takesValue = true ∧ b.stage ≠ .reference := by
  revert h
  simp only [asksForDate]
  cases b.stage <;> simp [Stage.isDate, Stage.takesValue]

/-- The operator for which a value is asked does not stand without one. -/
theorem plainCondition?_eq_none (hs : b.stage.takesValue = true) {e : OperatorEntry}
    (he : b.operator = some e) : b.plainCondition? e = none := by
  obtain ⟨_, e', he', hv⟩ := hc.value hs
  cases he.symm.trans he'
  simp [plainCondition?, hv]

/-- Changing the way days are given opens another widget for the value. -/
theorem step_toggleDateMode (now : Instant) (k : Key) :
    Core.Step b.core k none (b.toggleDateMode now).core := by
  unfold toggleDateMode
  dsimp only
  generalize (if (!b.useAdvancedDate) = true then ("Calendar picker" : Text)
    else "Text date entry") = message
  split
  next e he =>
    split
    next hasks =>
      have hs := takesValue_of_asksForDate hasks
      have hplain := plainCondition?_eq_none hc hs.1 he
      rw [← hplain]
      refine step_chooseOperator hc (.inr ⟨hs.1, he⟩) ?_ now
      ext1 <;> first | rfl | exact hc.referenceOpen_eq_false hs.2
    next => exact .keep
  next => exact .keep

theorem step_globalKey {now : Instant} {k : Key} {b' : Builder} (h : b.globalKey? now k = some b') :
    Core.Step b.core k none b'.core := by
  unfold globalKey? at h
  split at h <;> cases h
  · exact .keep
  · rw [core_refreshValidation]
    exact .keep
  · exact .keep
  · rw [core_removeLast]
    split
    next => exact .keep
    next hp => exact .removeLast hp
  · rw [core_reset]
    exact .restart
  · exact step_toggleDateMode hc now _

/-! ## §8. Every key. -/

theorem step_stageKey (hf : b.fieldList.Valid) (ho : b.operatorList.Valid) {now : Instant}
    {k : Key} {b' : Builder} (h : b.stageKey now k = .ok b') :
    Core.Step b.core k (b.stageCondition? now k) b'.core := by
  unfold stageKey at h
  split at h
  next hs =>
    cases h
    simp only [stageCondition?, hs]
    exact step_fieldKey hs hf k
  next hs => cases h; exact step_operatorKey hc hs ho now k
  next hs => cases h; exact step_valueKey hc hs now k
  next hs => cases h; exact step_choiceKey hc hs now k
  next hs => cases h; exact step_referenceKey hc hs now k
  next hs => exact step_calendarKey hc hs h
  next hs => exact step_rangePickerKey hc hs h
  next hs => cases h; exact step_rangeTextKey hc hs now k
  next hs => cases h; exact step_linkKey hs now k
  next hs =>
    cases h
    simp only [stageCondition?, hs]
    exact .keep

/-- **Every key that is taken is a step of the core**, with the condition that it completes. -/
theorem step_update (hf : b.fieldList.Valid) (ho : b.operatorList.Valid) (ha : b.active = true)
    {now : Instant} {k : Key} {b' : Builder} (h : b.update now k = .ok b') :
    Core.Step b.core k (b.completed? now k) b'.core := by
  rcases update_cases ha h with hg | ⟨hg, hstage, _⟩
  · simp only [completed?, hg, Option.isNone_some, Bool.and_false, Bool.false_eq_true, if_false]
    exact step_globalKey hc hg
  · simp only [completed?, ha, hg, Option.isNone_none, Bool.and_self, if_true]
    exact step_stageKey hc hf ho hstage

end

/-- No key completes anything in a builder that takes none. -/
theorem completed?_of_inactive {b : Builder} (h : b.active = false) (now : Instant) (k : Key) :
    b.completed? now k = none := by
  simp [completed?, h]

end EncodedQuery.Builder

/-
  EncodedQuery.Proofs.Builder.Alike
  ─────────────────────────────────
  **BUILDERS THAT GO ON ALIKE.**

  On the way to a condition a builder shows one widget at a time, and it knows
  the field, the operator and the error that goes with it: this is its draft.
  Two builders are alike when their drafts are the same and their widgets open
  alike.  Committed conditions, messages, verdicts, numbers of searches and all
  that is left in widgets that are not shown may differ.

  Main results:
    • `alike_of_blank` — builders in which nothing is chosen are alike,
    • `Alike.deliver`, `Alike.globalKey?`, `Alike.stageKey` — they stay alike
      under answers and keys, as long as no condition is accepted.
-/
import EncodedQuery.Proofs.Builder.Fresh
import EncodedQuery.Proofs.Builder.Invariant

namespace EncodedQuery.Builder

/-! ## §1. Drafts. -/

/-- The widget of a stage, as far as it can be seen. -/
inductive Widget where
  /-- The fields. -/
  | fields (l : PickList Field)
  /-- The operators of the field. -/
  | operators (l : PickList OperatorEntry)
  /-- The value line. -/
  | value (i : TextInput)
  /-- The values of a choice field. -/
  | choices (l : PickList Choice)
  /-- The picker for a record, without the numbers of its searches. -/
  | record (p : ReferencePicker)
  /-- The calendar. -/
  | day (c : Calendar)
  /-- The picker for a range, without rows that it does not show. -/
  | range (p : RangePicker)
  /-- The lines for a range, and which of them has the focus. -/
  | rangeText (start stop : TextInput) (focusStop : Bool)
  /-- The links. -/
  | links (l : PickList Link)
  /-- None. -/
  | nothing

/-- The widget that a builder shows. -/
def widget (b : Builder) : Widget :=
  match b.stage with
  | .field => .fields b.fieldList
  | .operator => .operators b.operatorList
  | .value => .value b.valueInput
  | .choice => .choices b.choiceList
  | .reference => .record b.reference.stilled
  | .calendar => .day b.calendar
  | .rangePicker => .range b.rangePicker.veiled
  | .rangeText => .rangeText b.startInput b.stopInput b.focusStop
  | .link => .links b.linkList
  | .finished => .nothing

/-- What a builder knows on the way to a condition. -/
@[ext]
structure Draft where
  /-- The stage. -/
  stage : Stage
  /-- The chosen field. -/
  field : Option Field
  /-- The chosen operator. -/
  operator : Option OperatorEntry
  /-- What went wrong last. -/
  error : Text
  /-- Days are picked from a calendar. -/
  useAdvancedDate : Bool
  /-- Keys are taken. -/
  active : Bool
  /-- The fields, to which the way leads back. -/
  fieldList : PickList Field
  /-- The operators, once a field is chosen. -/
  operatorList : Option (PickList OperatorEntry)
  /-- What is shown. -/
  widget : Widget

/-- The draft of a builder. -/
def draft (b : Builder) : Draft where
  stage := b.stage
  field := b.field
  operator := b.operator
  error := b.error
  useAdvancedDate := b.useAdvancedDate
  active := b.active
  fieldList := b.fieldList
  operatorList := if b.stage = .field then none else some b.operatorList
  widget := b.widget

section
variable {b : Builder}

/-! The widget that is shown is the one of the stage. -/

theorem draft_setFieldList (hs : b.stage = .field) (l : PickList Field) :
    ({ b with fieldList := l } : Builder).draft =
      { b.draft with fieldList := l, widget := .fields l } := by
  simp [draft, widget, hs]

theorem draft_setOperatorList (hs : b.stage = .operator) (l : PickList OperatorEntry) :
    ({ b with operatorList := l } : Builder).draft =
      { b.draft with operatorList := some l, widget := .operators l } := by
  simp [draft, widget, hs]

theorem draft_setValueInput (hs : b.stage = .value) (i : TextInput) :
    ({ b with valueInput := i } : Builder).draft = { b.draft with widget := .value i } := by
  simp [draft, widget, hs]

theorem draft_setChoiceList (hs : b.stage = .choice) (l : PickList Choice) :
    ({ b with choiceList := l } : Builder).draft = { b.draft with widget := .choices l } := by
  simp [draft, widget, hs]

theorem draft_setReference (hs : b.stage = .reference) (p : ReferencePicker) :
    ({ b with reference := p } : Builder).draft =
      { b.draft with widget := .record p.stilled } := by
  simp [draft, widget, hs]

theorem draft_setCalendar (hs : b.stage = .calendar) (c : Calendar) :
    ({ b with calendar := c } : Builder).draft = { b.draft with widget := .day c } := by
  simp [draft, widget, hs]

theorem draft_setRangePicker (hs : b.stage = .rangePicker) (p : RangePicker) :
    ({ b with rangePicker := p } : Builder).draft =
      { b.draft with widget := .range p.veiled } := by
  simp [draft, widget, hs]

theorem draft_setRangeText (hs : b.stage = .rangeText) (start stop : TextInput)
    (focusStop : Bool) :
    ({ b with startInput := start, stopInput := stop, focusStop } : Builder).draft =
      { b.draft with widget := .rangeText start stop focusStop } := by
  simp [draft, widget, hs]

end

/-- The builders have the same draft, and their widgets open alike. -/
structure Alike (a b : Builder) : Prop where
  /-- The frames are the same. -/
  frame : a.frame = b.frame
  /-- So are the drafts. -/
  draft : a.draft = b.draft

/-- Builders in which nothing is chosen are alike, if they ask for days in the same way. -/
theorem alike_of_blank {a b : Builder} (ha : a.Blank) (hb : b.Blank) (hf : a.frame = b.frame)
    (hmode : a.useAdvancedDate = b.useAdvancedDate) (hactive : a.active = b.active) :
    a.Alike b := by
  have hlist : a.fieldList = b.fieldList := by
    rw [ha.fieldList, hb.fieldList]
    exact congrArg Frame.fieldList hf
  refine ⟨hf, ?_⟩
  simp [Builder.draft, widget, ha.stage, hb.stage, ha.field, hb.field, ha.operator, hb.operator,
    ha.error, hb.error, hmode, hactive, hlist]

/-! ## §2. What alike builders share. -/

section
variable {a b : Builder} (h : a.Alike b)
include h

theorem Alike.table : a.table = b.table := congrArg Frame.table h.frame

theorem Alike.stage : a.stage = b.stage := congrArg Draft.stage h.draft

theorem Alike.field : a.field = b.field := congrArg Draft.field h.draft

theorem Alike.operator : a.operator = b.operator := congrArg Draft.operator h.draft

theorem Alike.error : a.error = b.error := congrArg Draft.error h.draft

theorem Alike.useAdvancedDate : a.useAdvancedDate = b.useAdvancedDate :=
  congrArg Draft.useAdvancedDate h.draft

theorem Alike.active : a.active = b.active := congrArg Draft.active h.draft

theorem Alike.fieldList : a.fieldList = b.fieldList := congrArg Draft.fieldList h.draft

theorem Alike.widget : a.widget = b.widget := congrArg Draft.widget h.draft

theorem Alike.operatorList (hs : a.stage ≠ .field) : a.operatorList = b.operatorList := by
  have heq := congrArg Draft.operatorList h.draft
  have hs' : b.stage ≠ .field := h.stage ▸ hs
  simpa [Builder.draft, hs, hs'] using heq

theorem Alike.valueInput (hs : a.stage = .value) : a.valueInput = b.valueInput := by
  have hs' := h.stage.symm.trans hs
  simpa [Builder.widget, hs, hs'] using h.widget

theorem Alike.choiceList (hs : a.stage = .choice) : a.choiceList = b.choiceList := by
  have hs' := h.stage.symm.trans hs
  simpa [Builder.widget, hs, hs'] using h.widget

theorem Alike.reference (hs : a.stage = .reference) :
    a.reference.stilled = b.reference.stilled := by
  have hs' := h.stage.symm.trans hs
  simpa [Builder.widget, hs, hs'] using h.widget

theorem Alike.calendar (hs : a.stage = .calendar) : a.calendar = b.calendar := by
  have hs' := h.stage.symm.trans hs
  simpa [Builder.widget, hs, hs'] using h.widget

theorem Alike.rangePicker (hs : a.stage = .rangePicker) :
    a.rangePicker.veiled = b.rangePicker.veiled := by
  have hs' := h.stage.symm.trans hs
  simpa [Builder.widget, hs, hs'] using h.widget

theorem Alike.rangeText (hs : a.stage = .rangeText) :
    a.startInput = b.startInput ∧ a.stopInput = b.stopInput ∧ a.focusStop = b.focusStop := by
  have hs' := h.stage.symm.trans hs
  simpa [Builder.widget, hs, hs'] using h.widget

/-- What a picker for a range keeps while it is used. -/
theorem Alike.presets :
    a.rangePicker.presets.setItems = b.rangePicker.presets.setItems ∧
      a.rangePicker.allowSameDay = b.rangePicker.allowSameDay :=
  RangePicker.make_of_renewed_eq (congrArg Frame.rangePicker h.frame)

/-- The conditions that a value completes are the same. -/
theorem Alike.valueCondition? (value : Text) :
    a.valueCondition? value = b.valueCondition? value := by
  unfold Builder.valueCondition?
  rw [h.field, h.operator]

theorem Alike.rangeCondition? (start stop : Instant) :
    a.rangeCondition? start stop = b.rangeCondition? start stop := by
  unfold Builder.rangeCondition?
  rw [h.field, h.operator]

/-! ## §3. Drafts with another widget. -/

theorem Alike.of_keeps {a' b' : Builder} (ha : Keeps a a') (hb : Keeps b b')
    (hd : a'.draft = b'.draft) : a'.Alike b' :=
  ⟨ha.frame.trans (h.frame.trans hb.frame.symm), hd⟩

/-- The widget of another stage opens. -/
theorem Alike.draft_opened {a' b' : Builder} {s : Stage} (hs : a.stage ≠ .field)
    (ha : a'.draft =
      { a.draft with stage := s, operatorList := some a.operatorList, widget := a'.widget })
    (hb : b'.draft =
      { b.draft with stage := s, operatorList := some b.operatorList, widget := b'.widget })
    (hw : a'.widget = b'.widget) : a'.draft = b'.draft := by
  rw [ha, hb, h.draft, h.operatorList hs, hw]

theorem Alike.setError (t : Text) : Alike { a with error := t } { b with error := t } :=
  ⟨h.frame, congrArg (fun d : Draft => { d with error := t }) h.draft⟩

theorem Alike.setOperator (e : Option OperatorEntry) :
    Alike { a with operator := e, error := [] } { b with operator := e, error := [] } :=
  ⟨h.frame, congrArg (fun d : Draft => { d with operator := e, error := [] }) h.draft⟩

theorem Alike.backToOperators (hs : a.stage ≠ .field) : a.backToOperators.Alike b.backToOperators :=
  ⟨h.frame, (h.setOperator none).draft_opened (s := .operator) hs rfl rfl
    (congrArg Widget.operators (h.operatorList hs))⟩

/-! ## §4. Rejected conditions. -/

omit h in
theorem reopenPicker_calendar (hs : a.stage = .calendar) :
    a.reopenPicker = { a with calendar := a.calendar.activate } := by
  simp [Builder.reopenPicker, hs]

omit h in
theorem reopenPicker_rangePicker (hs : a.stage = .rangePicker) :
    a.reopenPicker = { a with rangePicker := a.rangePicker.reopen } := by
  simp [Builder.reopenPicker, hs]

omit h in
theorem reopenPicker_reference (hs : a.stage = .reference) :
    a.reopenPicker = { a with reference := a.reference.activate a.reference.table } := by
  simp [Builder.reopenPicker, hs]

theorem Alike.reopenPicker : a.reopenPicker.Alike b.reopenPicker := by
  refine h.of_keeps (keeps_reopenPicker a) (keeps_reopenPicker b) ?_
  cases hs : a.stage with
  | calendar =>
      have hs' := h.stage.symm.trans hs
      rw [reopenPicker_calendar hs, reopenPicker_calendar hs', draft_setCalendar hs,
        draft_setCalendar hs', h.draft, h.calendar hs]
  | rangePicker =>
      have hs' := h.stage.symm.trans hs
      rw [reopenPicker_rangePicker hs, reopenPicker_rangePicker hs', draft_setRangePicker hs,
        draft_setRangePicker hs', h.draft, RangePicker.veiled_reopen (h.rangePicker hs)]
  | reference =>
      have hs' := h.stage.symm.trans hs
      have hreopened : (a.reference.activate a.reference.table).stilled =
          (b.reference.activate b.reference.table).stilled :=
        congrArg (fun p : ReferencePicker => p.activate p.table) (h.reference hs)
      rw [reopenPicker_reference hs, reopenPicker_reference hs', draft_setReference hs,
        draft_setReference hs', h.draft, hreopened]
  | _ =>
      have hs' := h.stage.symm.trans hs
      simpa [Builder.reopenPicker, hs, hs'] using h.draft

/-- A rejected condition leaves builders alike. -/
theorem Alike.submit {c : Condition} (hr : a.core.Rejects c) : (a.submit c).Alike (b.submit c) := by
  obtain ⟨first, hsubmit⟩ := submit_of_error hr
  rw [hsubmit a rfl, hsubmit b h.table.symm]
  exact (h.setError first.format).reopenPicker

theorem Alike.submitValue {value : Text}
    (hr : ∀ c, a.valueCondition? value = some c → a.core.Rejects c) :
    (a.submitValue value).Alike (b.submitValue value) := by
  rw [submitValue_eq, submitValue_eq, ← h.valueCondition?]
  cases hc : a.valueCondition? value with
  | none => exact h
  | some c => exact h.submit (hr c hc)

theorem Alike.submitRange {start stop : Instant}
    (hr : ∀ c, a.rangeCondition? start stop = some c → a.core.Rejects c) :
    (a.submitRange start stop).Alike (b.submitRange start stop) := by
  rw [submitRange_eq, submitRange_eq, ← h.rangeCondition?]
  cases hc : a.rangeCondition? start stop with
  | none => exact h
  | some c => exact h.submit (hr c hc)

/-! ## §5. Choosing field and operator. -/

theorem Alike.chooseField (f : Field) : (a.chooseField f).Alike (b.chooseField f) := by
  refine h.of_keeps (keeps_chooseField a f) (keeps_chooseField b f) ?_
  let list (F : Frame) : PickList OperatorEntry :=
    F.operatorList ("Operator for " ++ f.displayLabel)
      ((OperatorEntry.offered (some f.type)).map operatorItem)
  have hd : ∀ c : Builder, (c.chooseField f).draft = { c.draft with
      stage := .operator, field := some f, operator := none, error := []
      operatorList := some (list c.frame), widget := .operators (list c.frame) } := fun _ => rfl
  rw [hd, hd, h.draft, h.frame]

/-- The widget for a value opens as the frame has it. -/
theorem Alike.openValue (hs : a.stage ≠ .field) (now : Instant) (f : Field) (e : OperatorEntry) :
    (a.openValue now f e).Alike (b.openValue now f e) := by
  refine h.of_keeps (keeps_openValue a now f e) (keeps_openValue b now f e) ?_
  unfold Builder.openValue
  dsimp only
  split
  · split
    next ha =>
      rw [if_pos (h.useAdvancedDate ▸ ha)]
      have hw := congrArg (fun F : Frame => Widget.range (F.rangePicker now).veiled) h.frame
      simp only [Builder.frame, RangePicker.veiled_renewed] at hw
      exact h.draft_opened (s := .rangePicker) hs rfl rfl hw
    next ha =>
      rw [if_neg (h.useAdvancedDate ▸ ha)]
      exact h.draft_opened (s := .rangeText) hs rfl rfl
        (congrArg (fun F : Frame => Widget.rangeText F.startInput F.stopInput false) h.frame)
  · split
    next =>
      generalize Text.isOperatorIn Operator.isListed e.token = multi
      generalize (if multi = true then _ else _) = title
      exact h.draft_opened (s := .choice) hs rfl rfl
        (congrArg (fun F : Frame => Widget.choices
          (F.choiceList title multi (f.choices.map choiceItem))) h.frame)
    next =>
      split
      next =>
        exact h.draft_opened (s := .reference) hs rfl rfl
          (congrArg (fun F : Frame => Widget.record (F.reference f.reference)) h.frame)
      next =>
        split
        next ha =>
          rw [if_pos (h.useAdvancedDate ▸ ha)]
          exact h.draft_opened (s := .calendar) hs rfl rfl
            (congrArg (fun F : Frame => Widget.day
              (F.calendar now ("📅 " ++ f.displayLabel) (decide (f.type = .dateTime)))) h.frame)
        next ha =>
          rw [if_neg (h.useAdvancedDate ▸ ha)]
          exact h.draft_opened (s := .value) hs rfl rfl
            (congrArg (fun F : Frame => Widget.value
              (F.valueInput (valueHint f.type e.token))) h.frame)

theorem Alike.plainCondition? (e : OperatorEntry) : a.plainCondition? e = b.plainCondition? e := by
  unfold Builder.plainCondition? Builder.valueCondition?
  rw [h.field]

theorem Alike.chooseOperator (hs : a.stage ≠ .field) (now : Instant) {e : OperatorEntry}
    (hr : ∀ c, a.plainCondition? e = some c → a.core.Rejects c) :
    (a.chooseOperator now e).Alike (b.chooseOperator now e) := by
  have hchosen := h.setOperator (some e)
  cases hf : a.field with
  | none =>
      rw [chooseOperator_of_none hf, chooseOperator_of_none (h.field.symm.trans hf)]
      exact hchosen
  | some f =>
      rw [chooseOperator_eq hf, chooseOperator_eq (h.field.symm.trans hf)]
      split
      next => exact hchosen.openValue hs now f e
      next hv =>
        refine hchosen.submitValue fun c hc => hr c ?_
        rw [← hc]
        simp [Builder.plainCondition?, Builder.valueCondition?, hv, hf]

/-! ## §6. Keys of the stages. -/

/-- Both keys fail in the same way, or both lead to builders that are alike. -/
inductive Together : Except Fault Builder → Except Fault Builder → Prop
  /-- Both fail. -/
  | error (f : Fault) : Together (.error f) (.error f)
  /-- Both succeed. -/
  | ok {a b : Builder} (h : a.Alike b) : Together (.ok a) (.ok b)

theorem Alike.fieldKey (hs : a.stage = .field) {k : Key} (hk : k ≠ .ctrl 'f') :
    (a.fieldKey k).Alike (b.fieldKey k) := by
  have hs' := h.stage.symm.trans hs
  have hlist := h.fieldList
  refine h.of_keeps (keeps_fieldKey a k) (keeps_fieldKey b k) ?_
  unfold Builder.fieldKey
  split
  · rw [← congrArg PickList.selected hlist]
    split
    · exact (h.setError _).draft
    · exact (h.chooseField _).draft
  · have hframe : a.cancel.frame = b.cancel.frame :=
      (keeps_cancel a).frame.trans (h.frame.trans (keeps_cancel b).frame.symm)
    exact (alike_of_blank (blank_cancel hs) (blank_cancel hs') hframe h.useAdvancedDate rfl).draft
  · exact absurd rfl hk
  · rw [draft_setFieldList hs, draft_setFieldList hs', h.draft, hlist]

theorem Alike.operatorKey (hs : a.stage = .operator) (now : Instant) {k : Key}
    (hr : ∀ c, a.stageCondition? now k = some c → a.core.Rejects c) :
    (a.operatorKey now k).Alike (b.operatorKey now k) := by
  have hs' := h.stage.symm.trans hs
  have hlist := h.operatorList (by simp [hs])
  refine h.of_keeps (keeps_operatorKey a now k) (keeps_operatorKey b now k) ?_
  unfold Builder.operatorKey
  split
  · rw [← congrArg PickList.selected hlist]
    split
    · exact h.draft
    next item hitem =>
      refine (h.chooseOperator (by simp [hs]) now fun c hc => hr c ?_).draft
      simp [stageCondition?, hs, hitem, hc]
  · simp [Builder.draft, Builder.widget, h.operator, h.useAdvancedDate, h.active, h.fieldList]
  · rw [draft_setOperatorList hs, draft_setOperatorList hs', h.draft, hlist]

theorem Alike.valueKey (hs : a.stage = .value) (now : Instant) {k : Key}
    (hr : ∀ c, a.stageCondition? now k = some c → a.core.Rejects c) :
    (a.valueKey k).Alike (b.valueKey k) := by
  have hs' := h.stage.symm.trans hs
  have hinput := h.valueInput hs
  refine h.of_keeps (keeps_valueKey a k) (keeps_valueKey b k) ?_
  unfold Builder.valueKey
  split
  · rw [← hinput]
    refine (h.submitValue fun c hc => hr c ?_).draft
    simp [stageCondition?, hs, hc]
  · exact (h.backToOperators (by simp [hs])).draft
  · rw [draft_setValueInput hs, draft_setValueInput hs', h.draft, hinput]

theorem Alike.choiceKey (hs : a.stage = .choice) (now : Instant) {k : Key}
    (hr : ∀ c, a.stageCondition? now k = some c → a.core.Rejects c) :
    (a.choiceKey k).Alike (b.choiceKey k) := by
  have hs' := h.stage.symm.trans hs
  have hlist := h.choiceList hs
  refine h.of_keeps (keeps_choiceKey a k) (keeps_choiceKey b k) ?_
  unfold Builder.choiceKey
  rw [← congrArg chosenValues hlist, ← congrArg PickList.multi hlist]
  split
  next hk =>
    refine (h.submitValue fun c hc => hr c ?_).draft
    simp only [stageCondition?, hs, hk, if_true]
    exact hc
  · split
    · rw [draft_setChoiceList hs, draft_setChoiceList hs', h.draft, hlist]
    · split
      · exact (h.backToOperators (by simp [hs])).draft
      · rw [draft_setChoiceList hs, draft_setChoiceList hs', h.draft, hlist]

theorem Alike.referenceKey (hs : a.stage = .reference) (now : Instant) {k : Key}
    (hr : ∀ c, a.stageCondition? now k = some c → a.core.Rejects c) :
    (a.referenceKey k).Alike (b.referenceKey k) := by
  have hs' := h.stage.symm.trans hs
  have hp : (a.reference.update k).stilled = (b.reference.update k).stilled := by
    rw [ReferencePicker.stilled_update, h.reference hs, ← ReferencePicker.stilled_update]
  have hset : Alike { a with reference := a.reference.update k }
      { b with reference := b.reference.update k } := by
    refine h.of_keeps (keeps_reference a (ReferencePicker.sameMake_update _ k))
      (keeps_reference b (ReferencePicker.sameMake_update _ k)) ?_
    rw [draft_setReference hs, draft_setReference hs', h.draft, hp]
  obtain ⟨hactive, hcompleted, hvalue, _⟩ := ReferencePicker.eq_of_stilled_eq hp
  unfold Builder.referenceKey
  dsimp only
  rw [← hactive, ← hcompleted, ← hvalue]
  split
  · exact hset
  next ha =>
    split
    next hd =>
      refine hset.submitValue fun c hc => hr c ?_
      replace hc : a.valueCondition? (a.reference.update k).value = some c := hc
      simp [stageCondition?, hs, ha, hd, hc]
    next => exact hset.backToOperators (by simp [hs])

theorem Alike.calendarText (c : Calendar) : a.calendarText c = b.calendarText c := by
  unfold Builder.calendarText
  rw [h.field]

theorem Alike.calendarKey (hs : a.stage = .calendar) {now : Instant} {k : Key}
    (hr : ∀ c, a.stageCondition? now k = some c → a.core.Rejects c) :
    Together (a.calendarKey now k) (b.calendarKey now k) := by
  have hs' := h.stage.symm.trans hs
  unfold Builder.calendarKey
  rw [← h.calendar hs]
  cases hu : a.calendar.update now k with
  | error f => exact .error f
  | ok c =>
      have hset : Alike { a with calendar := c } { b with calendar := c } := by
        have hmake := (Calendar.sameMake_update hu).renewed_eq
        refine h.of_keeps (keeps_calendar a hmake)
          (keeps_calendar b (h.calendar hs ▸ hmake)) ?_
        rw [draft_setCalendar hs, draft_setCalendar hs', h.draft]
      refine .ok ?_
      dsimp only
      split
      · exact hset
      next ha =>
        split
        next hd =>
          show Alike (Builder.submitValue _ (a.calendarText c))
            (Builder.submitValue _ (b.calendarText c))
          rw [← h.calendarText]
          refine hset.submitValue fun d hc => hr d ?_
          replace hc : a.valueCondition? (a.calendarText c) = some d := hc
          simp [stageCondition?, hs, hu, ha, hd, hc]
        next => exact hset.backToOperators (by simp [hs])

theorem Alike.rangePickerKey (hs : a.stage = .rangePicker) {now : Instant} {k : Key}
    (hr : ∀ c, a.stageCondition? now k = some c → a.core.Rejects c) :
    Together (a.rangePickerKey now k) (b.rangePickerKey now k) := by
  have hs' := h.stage.symm.trans hs
  have hupdate := RangePicker.veiled_update (h.rangePicker hs) h.presets.1 now k
  unfold Builder.rangePickerKey
  -- the pickers may still differ in rows that they do not show
  rcases cases_of_map_eq hupdate with ⟨f, hu, hu'⟩ | ⟨p, q, hu, hu', hpq⟩
  · rw [hu, hu']
    exact .error f
  · obtain ⟨hactive, hcompleted, hends⟩ := RangePicker.eq_of_veiled_eq hpq
    have hset : Alike { a with rangePicker := p } { b with rangePicker := q } := by
      refine h.of_keeps
        (keeps_rangePicker a (RangePicker.sameMake_update hu) (fun hw => hw.update hu))
        (keeps_rangePicker b (RangePicker.sameMake_update hu') (fun hw => hw.update hu')) ?_
      rw [draft_setRangePicker hs, draft_setRangePicker hs', h.draft, hpq]
    rw [hu, hu']
    refine .ok ?_
    dsimp only
    rw [← hactive, ← hcompleted, ← hends]
    split
    · exact hset
    next ha =>
      split
      next start stop hd he =>
        refine hset.submitRange fun c hc => hr c ?_
        replace hc : a.rangeCondition? start stop = some c := hc
        simp [stageCondition?, hs, hu, ha, hd, he, hc]
      next => exact hset.backToOperators (by simp [hs])

/-- The lines for a range show the same. -/
theorem Alike.draft_rangeText (hs : a.stage = .rangeText) {t t' : Text} {i i' j j' : TextInput}
    {f f' : Bool} (ht : t = t') (hi : i = i') (hj : j = j') (hf : f = f') :
    ({ a with error := t, startInput := i, stopInput := j, focusStop := f } : Builder).draft =
      ({ b with error := t', startInput := i', stopInput := j', focusStop := f' } :
        Builder).draft := by
  have hs' := h.stage.symm.trans hs
  subst ht hi hj hf
  rw [draft_setRangeText (b := { a with error := t }) hs,
    draft_setRangeText (b := { b with error := t }) hs', (h.setError t).draft]

/-- Both ends are read from the same lines, and the same order is asked of them. -/
theorem Alike.typedRange? (hs : a.stage = .rangeText) : a.typedRange? = b.typedRange? := by
  obtain ⟨hstart, hstop, _⟩ := h.rangeText hs
  unfold Builder.typedRange?
  rw [hstart, hstop, h.presets.2]

theorem Alike.confirmRangeText (hs : a.stage = .rangeText)
    (hr : ∀ c, (a.typedRange?.bind fun (x, z) => a.rangeCondition? x z) = some c →
      a.core.Rejects c) : a.confirmRangeText.Alike b.confirmRangeText := by
  obtain ⟨hstart, hstop, _⟩ := h.rangeText hs
  refine h.of_keeps (keeps_confirmRangeText a) (keeps_confirmRangeText b) ?_
  unfold Builder.typedRange? at hr
  unfold Builder.confirmRangeText
  dsimp only at hr ⊢
  rw [← congrArg TextInput.value hstart, ← congrArg TextInput.value hstop, ← h.presets.2]
  cases hx : Instant.read Pattern.rangeInput (Text.strip a.startInput.value) with
  | error _ => exact h.draft_rangeText hs rfl hstart hstop rfl
  | ok start =>
      cases hz : Instant.read Pattern.rangeInput (Text.strip a.stopInput.value) with
      | error _ => exact h.draft_rangeText hs rfl hstart hstop rfl
      | ok read =>
          simp only [hx, hz] at hr ⊢
          generalize
            (if .char ':' ∈ Text.strip a.stopInput.value then read else read.endOfDay) = stop
            at hr ⊢
          split
          next hok =>
            refine (h.submitRange fun c hc => hr c ?_).draft
            rw [if_pos hok]
            exact hc
          next => exact h.draft_rangeText hs rfl hstart hstop rfl

theorem Alike.rangeTextKey (hs : a.stage = .rangeText) (now : Instant) {k : Key}
    (hr : ∀ c, a.stageCondition? now k = some c → a.core.Rejects c) :
    (a.rangeTextKey k).Alike (b.rangeTextKey k) := by
  obtain ⟨hstart, hstop, hfocus⟩ := h.rangeText hs
  refine h.of_keeps (keeps_rangeTextKey a k) (keeps_rangeTextKey b k) ?_
  unfold Builder.rangeTextKey
  split
  · exact h.draft_rangeText hs h.error hstart hstop (congrArg (!·) hfocus)
  · rw [← hfocus]
    split
    next hf =>
      refine (h.confirmRangeText hs fun c hc => hr c ?_).draft
      simpa [stageCondition?, hs, hf] using hc
    next => exact h.draft_rangeText hs h.error hstart hstop rfl
  · exact (h.backToOperators (by simp [hs])).draft
  · rw [← hfocus]
    split
    · exact h.draft_rangeText hs h.error hstart (by rw [hstop]) rfl
    · exact h.draft_rangeText hs h.error (by rw [hstart]) hstop rfl

theorem Alike.stageKey (hlink : a.stage ≠ .link) {now : Instant} {k : Key} (hk : k ≠ .ctrl 'f')
    (hr : ∀ c, a.stageCondition? now k = some c → a.core.Rejects c) :
    Together (a.stageKey now k) (b.stageKey now k) := by
  unfold Builder.stageKey
  rw [← h.stage]
  cases hs : a.stage with
  | field => exact .ok (h.fieldKey hs hk)
  | operator => exact .ok (h.operatorKey hs now hr)
  | value => exact .ok (h.valueKey hs now hr)
  | choice => exact .ok (h.choiceKey hs now hr)
  | reference => exact .ok (h.referenceKey hs now hr)
  | calendar => exact h.calendarKey hs hr
  | rangePicker => exact h.rangePickerKey hs hr
  | rangeText => exact .ok (h.rangeTextKey hs now hr)
  | link => exact absurd hs hlink
  | finished => exact .ok h

/-- The conditions that a key completes are the same. -/
theorem Alike.stageCondition? (now : Instant) (k : Key) :
    a.stageCondition? now k = b.stageCondition? now k := by
  unfold Builder.stageCondition?
  rw [← h.stage]
  cases hs : a.stage with
  | field | link | finished => rfl
  | operator => simp only [h.operatorList (by simp [hs]), h.plainCondition?]
  | value => simp only [h.valueInput hs, h.valueCondition?]
  | choice => simp only [h.choiceList hs, h.valueCondition?]
  | reference =>
      have hp : (a.reference.update k).stilled = (b.reference.update k).stilled := by
        rw [ReferencePicker.stilled_update, h.reference hs, ← ReferencePicker.stilled_update]
      obtain ⟨hactive, hcompleted, hvalue, _⟩ := ReferencePicker.eq_of_stilled_eq hp
      simp only [hactive, hcompleted, hvalue, h.valueCondition?]
  | calendar => simp only [h.calendar hs, h.calendarText, h.valueCondition?]
  | rangePicker =>
      have hupdate := RangePicker.veiled_update (h.rangePicker hs) h.presets.1 now k
      rcases cases_of_map_eq hupdate with ⟨f, hu, hu'⟩ | ⟨p, q, hu, hu', hpq⟩
      · simp only [hu, hu']
      · obtain ⟨hactive, hcompleted, hends⟩ := RangePicker.eq_of_veiled_eq hpq
        simp only [hu, hu', hactive, hcompleted, hends, h.rangeCondition?]
  | rangeText =>
      simp only [h.typedRange? hs, (h.rangeText hs).2.2, h.rangeCondition?]

/-! ## §7. Keys that work in every stage. -/

omit h in
theorem draft_refreshValidation (b : Builder) : b.refreshValidation.draft = b.draft := by
  unfold Builder.refreshValidation
  split <;> rfl

theorem Alike.reset : a.reset.Alike b.reset := by
  have hframe : a.reset.frame = b.reset.frame :=
    (keeps_reset a).frame.trans (h.frame.trans (keeps_reset b).frame.symm)
  exact alike_of_blank (blank_reset a) (blank_reset b) hframe h.useAdvancedDate h.active

/-- The builder with the pickers for days closed. -/
def closePickers (b : Builder) : Builder :=
  { b with calendar := b.calendar.deactivate, rangePicker := b.rangePicker.deactivate }

omit h in
theorem keeps_closePickers (b : Builder) : Keeps b b.closePickers :=
  .trans (keeps_rangePicker_deactivate b) ⟨rfl, id⟩

theorem Alike.closePickers : a.closePickers.Alike b.closePickers := by
  have hw : a.closePickers.widget = b.closePickers.widget := by
    have hw := h.widget
    unfold Builder.closePickers
    cases hs : a.stage with
    | calendar => simp [Builder.widget, ← h.stage, hs, h.calendar hs]
    | rangePicker =>
        simp [Builder.widget, ← h.stage, hs, RangePicker.veiled_deactivate (h.rangePicker hs)]
    | finished => simp [Builder.widget, ← h.stage, hs]
    | _ => simpa [Builder.widget, ← h.stage, hs] using hw
  have hd : ∀ c : Builder,
      c.closePickers.draft = { c.draft with widget := c.closePickers.widget } :=
    fun _ => rfl
  refine h.of_keeps (keeps_closePickers a) (keeps_closePickers b) ?_
  rw [hd, hd, h.draft, hw]

/-- The builder with the other way to give days, and a message about it. -/
def turned (b : Builder) (message : Text) : Builder :=
  { b with useAdvancedDate := !b.useAdvancedDate, message }

omit h in
/-- Changing the way days are given chooses the operator again, if a day is asked for. -/
theorem exists_toggleDateMode_eq (b : Builder) (now : Instant) :
    ∃ message, b.toggleDateMode now =
      match b.operator with
      | some e => if b.asksForDate then (b.turned message).closePickers.chooseOperator now e
          else b.turned message
      | none => b.turned message :=
  ⟨_, rfl⟩

theorem Alike.turned (message message' : Text) : (a.turned message).Alike (b.turned message') :=
  ⟨h.frame, congrArg (fun d : Draft => { d with useAdvancedDate := !d.useAdvancedDate }) h.draft⟩

theorem Alike.asksForDate : a.asksForDate = b.asksForDate := by
  unfold Builder.asksForDate
  rw [h.stage, h.field]

theorem Alike.toggleDateMode (hc : a.core.Coherent) (now : Instant) :
    (a.toggleDateMode now).Alike (b.toggleDateMode now) := by
  obtain ⟨message, hm⟩ := exists_toggleDateMode_eq a now
  obtain ⟨message', hm'⟩ := exists_toggleDateMode_eq b now
  rw [hm, hm', ← h.operator, ← h.asksForDate]
  have hturned := h.turned message message'
  split
  next e he =>
    split
    next hasks =>
      have hs := takesValue_of_asksForDate hasks
      have hfield : a.stage ≠ .field := by
        intro heq
        rw [heq] at hs
        exact absurd hs.1 (by decide)
      -- a value is asked for, so the operator takes one and completes nothing by itself
      refine hturned.closePickers.chooseOperator hfield now fun c hcond => ?_
      have hplain : a.plainCondition? e = some c := hcond
      rw [plainCondition?_eq_none hc hs.1 he] at hplain
      cases hplain
    next => exact hturned
  next => exact hturned

theorem Alike.globalKey? (hc : a.core.Coherent) (now : Instant) {k : Key} (hk : k ≠ .ctrl 'd') :
    Option.Rel Alike (a.globalKey? now k) (b.globalKey? now k) := by
  unfold Builder.globalKey?
  split
  · exact .some ⟨h.frame, h.draft⟩
  · refine .some (h.of_keeps (.trans ?_ (keeps_refreshValidation _))
      (.trans ?_ (keeps_refreshValidation _)) ?_)
    · exact ⟨rfl, id⟩
    · exact ⟨rfl, id⟩
    · rw [draft_refreshValidation, draft_refreshValidation]
      exact h.draft
  · exact .some ⟨h.frame, h.draft⟩
  · exact absurd rfl hk
  · exact .some h.reset
  · exact .some (h.toggleDateMode hc now)
  · exact .none

/-! ## §8. Answers. -/

/-- The answer to a search leaves builders alike, whatever its number. -/
theorem Alike.deliver {r r' : SearchResult} (htable : r.table = r'.table)
    (houtcome : r.outcome = r'.outcome) : (a.deliver r).Alike (b.deliver r') := by
  have hawaited : (a.stage = .reference ∧ a.reference.active ∧ r.table = a.reference.table) ↔
      (b.stage = .reference ∧ b.reference.active ∧ r'.table = b.reference.table) := by
    rw [← h.stage, htable]
    refine and_congr_right fun hs => ?_
    obtain ⟨hactive, _, _, ht⟩ := ReferencePicker.eq_of_stilled_eq (h.reference hs)
    rw [hactive, ht]
  refine h.of_keeps (keeps_deliver a r) (keeps_deliver b r') ?_
  unfold Builder.deliver
  by_cases hr : a.stage = .reference ∧ a.reference.active ∧ r.table = a.reference.table
  · have hr' := hawaited.mp hr
    have hresult : b.reference.handleResult r' = b.reference.handleResult r := by
      unfold ReferencePicker.handleResult
      rw [houtcome]
    rw [if_pos hr, if_pos hr', draft_setReference hr.1, draft_setReference hr'.1, h.draft, hresult,
      ReferencePicker.stilled_handleResult, h.reference hr.1, ReferencePicker.stilled_handleResult]
  · rw [if_neg hr, if_neg (mt hawaited.mpr hr)]
    exact h.draft

end

end EncodedQuery.Builder

/-
  EncodedQuery.Builder.Update
  ───────────────────────────
  **KEYS FOR THE BUILDER.**

  Every stage has its own keys; six keys with control work in all of them.  A
  value is checked before its condition is committed: with an error the stage
  stays, and its picker opens again.  The first condition is committed at once,
  a later one after its link is chosen.

  Main functions: `update` applies a key, `poll` delivers the answers to
  searches, `setConditions` loads a filter.
-/
import EncodedQuery.Builder.State

namespace EncodedQuery.Builder

/-! ## §1. Checking. -/

/-- A new verdict on the committed conditions. -/
def revalidate (b : Builder) : Builder :=
  { b with validation := some (Check.conditions (some b.table) b.conditions.conditions) }

/-- A new verdict, if verdicts are shown. -/
def refreshValidation (b : Builder) : Builder := if b.showValidation then b.revalidate else b

/-! ## §2. Committing. -/

/-- Forgets the condition that is being put together and closes its pickers. -/
def clearScratch (b : Builder) : Builder :=
  { b with
    field := none
    operator := none
    pending := none
    error := []
    warnings := []
    valueInput := b.valueInput.reset
    calendar := b.calendar.deactivate
    rangePicker := b.rangePicker.deactivate
    reference := if b.reference.active then b.reference.deactivate else b.reference
    fieldList := b.fieldList.setItems b.fieldList.items }

/-- Commits the waiting condition with a link to the one before it. -/
def commit (b : Builder) (link : Option Link) : Builder :=
  match b.pending with
  | none => b
  | some c =>
      let committed := clearScratch { b with conditions := b.conditions.append c link }
      refreshValidation { committed with
        warnings := b.warnings
        message := "Added: " ++ c.describe
        stage := .field }

/-- Opens the picker of the stage again, after its value was rejected. -/
def reopenPicker (b : Builder) : Builder :=
  match b.stage with
  | .calendar => { b with calendar := b.calendar.activate }
  | .rangePicker => { b with rangePicker := b.rangePicker.reopen }
  | .reference => { b with reference := b.reference.activate b.reference.table }
  | _ => b

/-- Checks a condition: one with errors is rejected, the first one is committed, a later one
waits for its link. -/
def submit (b : Builder) (c : Condition) : Builder :=
  let issues := Check.condition (some b.table) c
  match issues.filter Issue.isError with
  | first :: _ => reopenPicker { b with error := first.format }
  | [] =>
      let accepted : Builder := { b with
        error := []
        warnings := issues.filter (fun i => decide (i.severity = .warning))
        pending := some c }
      if b.conditions.conditions.isEmpty then accepted.commit none
      else { accepted with linkList := b.linkList.setItems b.linkList.items, stage := .link }

/-- Checks the condition with a value for the chosen field and operator. -/
def submitValue (b : Builder) (value : Text) : Builder :=
  match b.field, b.operator with
  | some f, some e => b.submit { field := f, operator := e.token, value }
  | _, _ => b

/-- Checks the condition with a range for the chosen field and operator. -/
def submitRange (b : Builder) (start stop : Instant) : Builder :=
  match b.field, b.operator with
  | some f, some e =>
      b.submit { field := f, operator := e.token, value := Instant.rangeLiteral start stop,
                 start := some start, stop := some stop }
  | _, _ => b

/-! ## §3. Choosing field and operator. -/

/-- Chooses a field; its operators come next. -/
def chooseField (b : Builder) (f : Field) : Builder :=
  let list := { b.operatorList with title := "Operator for " ++ f.displayLabel }
  { b with
    field := some f
    operator := none
    error := []
    message := []
    operatorList := list.setItems ((OperatorEntry.offered (some f.type)).map operatorItem)
    stage := .operator }

/-- Opens the widget in which a value for the field and the operator is given. -/
def openValue (b : Builder) (now : Instant) (f : Field) (e : OperatorEntry) : Builder :=
  if e.dateOnly then
    if b.useAdvancedDate then
      { b with rangePicker := b.rangePicker.activate now, stage := .rangePicker }
    else
      { b with startInput := b.startInput.reset, stopInput := b.stopInput.reset,
               focusStop := false, stage := .rangeText }
  else if f.type = .choice ∧ !f.choices.isEmpty then
    let multi := Text.isOperatorIn Operator.isListed e.token
    let list := { b.choiceList with
      multi, title := if multi then f.displayLabel ++ " (space marks)" else f.displayLabel }
    { b with choiceList := list.setItems (f.choices.map choiceItem), stage := .choice }
  else if f.type = .reference ∧ !f.reference.isEmpty then
    { b with reference := b.reference.activate f.reference, stage := .reference }
  else if f.type.isDate && b.useAdvancedDate then
    let calendar : Calendar := { b.calendar with
      title := "📅 " ++ f.displayLabel, showTime := decide (f.type = .dateTime) }
    { b with calendar := (calendar.reset now).activate, stage := .calendar }
  else
    let input := { b.valueInput with placeholder := valueHint f.type e.token }
    { b with valueInput := input.reset, stage := .value }

/-- Chooses an operator: one that stands without a value makes the condition complete. -/
def chooseOperator (b : Builder) (now : Instant) (e : OperatorEntry) : Builder :=
  let b := { b with operator := some e, error := [] }
  match b.field with
  | none => b
  | some f =>
      if e.requiresValue then b.openValue now f e
      else b.submitValue (if f.type = .boolean then "true" else [])

/-- Back to the operators of the field. -/
def backToOperators (b : Builder) : Builder :=
  { b with error := [], operator := none, stage := .operator }

/-! ## §4. Leaving. -/

/-- Takes keys again, or takes no more keys. -/
def setActive (b : Builder) (active : Bool) : Builder :=
  if active then
    { b with
      active
      finished := false
      cancelled := false
      stage := if b.stage = .finished then .field else b.stage }
  else
    { b with active, reference := { b.reference with resolver := b.reference.resolver.cancel } }

/-- Leaves the builder and drops everything. -/
def cancel (b : Builder) : Builder :=
  let cleared := clearScratch { b with conditions := Chain.empty }
  setActive { cleared with validation := none, cancelled := true } false

/-- Completes the filter, which needs a condition. -/
def finish (b : Builder) : Builder :=
  if b.conditions.conditions.isEmpty then { b with error := "Add at least one condition first" }
  else setActive { b with stage := .finished, finished := true } false

/-! ## §5. Keys that work in every stage. -/

/-- Removes the last condition. -/
def removeLast (b : Builder) : Builder :=
  refreshValidation
    (match b.conditions.pop? with
      | none => { b with message := "No conditions to remove" }
      | some (c, rest) => { b with conditions := rest, message := "Removed: " ++ c.describe })

/-- Starts over without conditions. -/
def reset (b : Builder) : Builder :=
  let cleared := clearScratch { b with conditions := Chain.empty }
  { cleared with stage := .field, validation := none, message := "Query builder reset" }

/-- A day or a range is being asked for. -/
def asksForDate (b : Builder) : Bool :=
  b.stage.isDate || (b.stage = .value && b.field.any (fun f => f.type.isDate))

/-- Changes between picking days and typing them. -/
def toggleDateMode (b : Builder) (now : Instant) : Builder :=
  let advanced := !b.useAdvancedDate
  let b := { b with
    useAdvancedDate := advanced
    message := if advanced then "Calendar picker" else "Text date entry" }
  match b.operator with
  | some e =>
      if b.asksForDate then
        chooseOperator
          { b with calendar := b.calendar.deactivate, rangePicker := b.rangePicker.deactivate }
          now e
      else b
  | none => b

/-- Applies a key that works in every stage. -/
def globalKey? (b : Builder) (now : Instant) : Key → Option Builder
  | .ctrl 'p' => some { b with showPreview := !b.showPreview }
  | .ctrl 'v' => some (refreshValidation { b with showValidation := !b.showValidation })
  | .ctrl 'r' => some b.revalidate
  | .ctrl 'd' => some b.removeLast
  | .ctrl 'x' => some b.reset
  | .ctrl 't' => some (b.toggleDateMode now)
  | _ => none

/-! ## §6. Keys of the stages. -/

/-- A key while a field is asked for. -/
def fieldKey (b : Builder) : Key → Builder
  | .enter =>
      match b.fieldList.selected with
      | none => { b with error := "No field matches the filter" }
      | some item => b.chooseField item.value
  | .esc => b.cancel
  | .ctrl 'f' => b.finish
  | k => { b with fieldList := (b.fieldList.handle k).1 }

/-- A key while an operator is asked for. -/
def operatorKey (b : Builder) (now : Instant) : Key → Builder
  | .enter =>
      match b.operatorList.selected with
      | none => b
      | some item => b.chooseOperator now item.value
  | .esc => { b with field := none, error := [], stage := .field }
  | k => { b with operatorList := (b.operatorList.handle k).1 }

/-- A key while a value is typed. -/
def valueKey (b : Builder) : Key → Builder
  | .enter => b.submitValue (Text.strip b.valueInput.value)
  | .esc => b.backToOperators
  | k => { b with valueInput := (b.valueInput.handle k).1 }

/-- The chosen values: the marked ones, or else the one under the cursor. -/
def chosenValues (l : PickList Choice) : List Text :=
  if l.marked.isEmpty then (l.selected.map (fun item => item.value.value)).toList
  else l.marked.map (fun item => item.value.value)

/-- A key while a value of a list is asked for. -/
def choiceKey (b : Builder) (k : Key) : Builder :=
  if k = .enter then b.submitValue (Text.join "," (chosenValues b.choiceList))
  else if k = .char ' ' ∧ b.choiceList.multi then
    { b with choiceList := b.choiceList.toggleMark }
  else if k = .esc then b.backToOperators
  else { b with choiceList := (b.choiceList.handle k).1 }

/-- A key while a record is asked for. -/
def referenceKey (b : Builder) (k : Key) : Builder :=
  let b := { b with reference := b.reference.update k }
  if b.reference.active then b
  else if b.reference.completed then b.submitValue b.reference.value
  else b.backToOperators

/-- A key while a day is asked for. -/
def calendarKey (b : Builder) (now : Instant) (k : Key) : Except Fault Builder := do
  let b := { b with calendar := ← b.calendar.update now k }
  return if b.calendar.active then b
    else if b.calendar.completed then
      b.submitValue (if b.field.any (fun f => f.type = .dateTime) then b.calendar.backendText
        else b.calendar.instant.date.shown)
    else b.backToOperators

/-- A key while a range is picked. -/
def rangePickerKey (b : Builder) (now : Instant) (k : Key) : Except Fault Builder := do
  let b := { b with rangePicker := ← b.rangePicker.update now k }
  return if b.rangePicker.active then b
    else match b.rangePicker.completed, b.rangePicker.ends? with
      | true, some (start, stop) => b.submitRange start stop
      | _, _ => b.backToOperators

/-- Takes the typed range: a day alone stands for its start and its last second. -/
def confirmRangeText (b : Builder) : Builder :=
  let startText := Text.strip b.startInput.value
  let stopText := Text.strip b.stopInput.value
  match Instant.read Pattern.rangeInput startText, Instant.read Pattern.rangeInput stopText with
  | .error _, _ =>
      { b with error := "Invalid start date (use YYYY-MM-DD or YYYY-MM-DD HH:MM:SS)",
               focusStop := false }
  | .ok _, .error _ =>
      { b with error := "Invalid end date (use YYYY-MM-DD or YYYY-MM-DD HH:MM:SS)",
               focusStop := true }
  | .ok start, .ok read =>
      let stop := if .char ':' ∈ stopText then read else read.endOfDay
      let wrong := RangePicker.problem b.rangePicker.allowSameDay start stop
      if wrong.isEmpty then b.submitRange start stop
      else { b with error := wrong, focusStop := true }

/-- A key while a range is typed. -/
def rangeTextKey (b : Builder) : Key → Builder
  | .tab => { b with focusStop := !b.focusStop }
  | .enter => if b.focusStop then b.confirmRangeText else { b with focusStop := true }
  | .esc => b.backToOperators
  | k =>
      if b.focusStop then { b with stopInput := (b.stopInput.handle k).1 }
      else { b with startInput := (b.startInput.handle k).1 }

/-- A key while a link is asked for. -/
def linkKey (b : Builder) : Key → Builder
  | .enter => b.commit (some ((b.linkList.selected.map PickItem.value).getD .and))
  | .char 'a' | .char 'A' => b.commit (some .and)
  | .char 'o' | .char 'O' => b.commit (some .or)
  | .esc => b.commit (some .and)
  | k => { b with linkList := (b.linkList.handle k).1 }

/-- A key of the stage. -/
def stageKey (b : Builder) (now : Instant) (k : Key) : Except Fault Builder :=
  match b.stage with
  | .field => .ok (b.fieldKey k)
  | .operator => .ok (b.operatorKey now k)
  | .value => .ok (b.valueKey k)
  | .choice => .ok (b.choiceKey k)
  | .reference => .ok (b.referenceKey k)
  | .calendar => b.calendarKey now k
  | .rangePicker => b.rangePickerKey now k
  | .rangeText => .ok (b.rangeTextKey k)
  | .link => .ok (b.linkKey k)
  | .finished => .ok b

/-! ## §7. The builder from outside. -/

/-- The builder after a key, unless the key committed a condition that cannot be described. -/
def described (before after : Builder) : Except Fault Builder :=
  if before.conditions.conditions.length < after.conditions.conditions.length ∧
      after.conditions.conditions.getLast?.any (fun c => c.field.oddName.isSome) then
    .error .wrongKind
  else .ok after

/-- A key; a builder that was left takes none. -/
def update (b : Builder) (now : Instant) (k : Key) : Except Fault Builder :=
  if !b.active then .ok b
  else match b.globalKey? now k with
    | some b' => .ok b'
    | none => b.stageKey now k >>= described b

/-- The answer to a search, which counts only while a record of its table is asked for. -/
def deliver (b : Builder) (r : SearchResult) : Builder :=
  if b.stage = .reference ∧ b.reference.active ∧ r.table = b.reference.table then
    { b with reference := b.reference.handleResult r }
  else b

/-- Delivers the answers that are there, and says how many there were. -/
def poll (b : Builder) : Nat × Builder :=
  let (answers, resolver) := b.reference.resolver.poll
  (answers.length,
   answers.foldl deliver { b with reference := { b.reference with resolver } })

/-- Loads a filter in place of the current one. -/
def setConditions (b : Builder) (s : Chain) : Builder :=
  let cleared := clearScratch { b with conditions := Chain.ofList s.conditions }
  refreshValidation { cleared with stage := .field, validation := none }

/-- A row of keys, as long as keys are taken. -/
def typeKeys (b : Builder) (now : Instant) : List Key → Except Fault Builder
  | [] => .ok b
  | k :: rest => do
      let b ← b.update now k
      if b.active then b.typeKeys now rest else return b

end EncodedQuery.Builder

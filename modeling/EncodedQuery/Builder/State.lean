/-
  EncodedQuery.Builder.State
  ──────────────────────────
  **THE STATE OF THE BUILDER.**

  The builder leads from a field to an operator to a value, and from there to a
  condition of the filter.  Its state holds the conditions that are committed,
  the condition that is being put together, and the widgets on the way.
-/
import EncodedQuery.Check.Query
import EncodedQuery.Picker.Range
import EncodedQuery.Reference.Picker
import EncodedQuery.Settings.Basic
import EncodedQuery.Builder.Hint

namespace EncodedQuery

/-! ## §1. Stages. -/

/-- What the builder asks for. -/
inductive Stage where
  /-- A field. -/
  | field
  /-- An operator. -/
  | operator
  /-- A value, typed. -/
  | value
  /-- A value of a list. -/
  | choice
  /-- A record. -/
  | reference
  /-- A day. -/
  | calendar
  /-- A range, picked. -/
  | rangePicker
  /-- A range, typed. -/
  | rangeText
  /-- How the condition is linked to the one before. -/
  | link
  /-- Nothing more. -/
  | finished
  deriving DecidableEq, Repr

namespace Stage

/-- The name of a stage. -/
def name : Stage → Text
  | field => "field_selection"
  | operator => "operator_selection"
  | value => "value_input"
  | choice => "choice_selection"
  | reference => "reference_search"
  | calendar => "calendar"
  | rangePicker => "date_range_picker"
  | rangeText => "date_range_text"
  | link => "logical_operator_selection"
  | finished => "finished"

/-- A stage that asks for a day or a range of days. -/
def isDate : Stage → Bool
  | calendar | rangePicker | rangeText => true
  | _ => false

end Stage

/-! ## §2. The builder. -/

/-- The builder. -/
structure Builder where
  /-- The table whose records are filtered. -/
  table : Table
  /-- The committed conditions. -/
  conditions : Chain := Chain.empty
  /-- What is asked for. -/
  stage : Stage := .field
  /-- Days are picked from a calendar, not typed. -/
  useAdvancedDate : Bool
  /-- The query is shown. -/
  showPreview : Bool
  /-- The findings are shown. -/
  showValidation : Bool
  /-- The fields. -/
  fieldList : PickList Field
  /-- The operators of the field. -/
  operatorList : PickList OperatorEntry
  /-- The values of a choice field. -/
  choiceList : PickList Choice
  /-- The links. -/
  linkList : PickList Link
  /-- The value line. -/
  valueInput : TextInput
  /-- The line of the start of a range. -/
  startInput : TextInput
  /-- The line of the end of a range. -/
  stopInput : TextInput
  /-- The end of a range has the focus. -/
  focusStop : Bool := false
  /-- The calendar. -/
  calendar : Calendar
  /-- The picker for a range. -/
  rangePicker : RangePicker
  /-- The picker for a record. -/
  reference : ReferencePicker
  /-- The field of the condition that is being put together. -/
  field : Option Field := none
  /-- Its operator. -/
  operator : Option OperatorEntry := none
  /-- The condition that waits for its link. -/
  pending : Option Condition := none
  /-- What went wrong last. -/
  error : Text := []
  /-- What was done last. -/
  message : Text := []
  /-- The warnings about the last condition. -/
  warnings : List Issue := []
  /-- The last verdict on the conditions. -/
  validation : Option Verdict := none
  /-- The filter is complete. -/
  finished : Bool := false
  /-- The filter was given up. -/
  cancelled : Bool := false
  /-- Keys are taken. -/
  active : Bool := true

namespace Builder

/-- The row of a field. -/
def fieldItem (f : Field) : PickItem Field :=
  { title := f.type.sign ++ " " ++ f.displayLabel
    description := f.name ++ " · " ++ f.type.name
    value := f }

/-- The row of an operator. -/
def operatorItem (e : OperatorEntry) : PickItem OperatorEntry :=
  { title := e.label, description := e.token ++ " · " ++ e.description, value := e }

/-- The row of a choice. -/
def choiceItem (c : Choice) : PickItem Choice :=
  { title := c.label, description := c.value, value := c }

/-- The rows of the links. -/
def linkItems : List (PickItem Link) :=
  [{ title := "AND", description := "both conditions must match", value := .and },
   { title := "OR", description := "either condition may match", value := .or }]

/-- The searches of a builder with these settings. -/
def resolverOf (settings : Settings) (source : Option Source) (deferred : Bool) : Resolver :=
  { source, minLength := settings.minSearchLength.toNat, limit := settings.searchLimit, deferred }

/-- A new builder. -/
def new (table : Table) (settings : Settings) (resolver : Resolver) (now : Instant) : Builder :=
  let window := settings.maxVisibleItems
  { table
    useAdvancedDate := settings.useAdvancedDate
    showPreview := settings.showPreview
    showValidation := settings.showValidation
    fieldList :=
      PickList.new "Select a field" ((Field.sorted table.fields).map fieldItem) window true
    operatorList := PickList.new "Select an operator" [] window
    choiceList := PickList.new "Select a value" [] window
    linkList := PickList.new "Combine with the previous condition" linkItems
    valueInput := TextInput.new []
    startInput := TextInput.new "Start: YYYY-MM-DD [HH:MM:SS]"
    stopInput := TextInput.new "End: YYYY-MM-DD [HH:MM:SS]"
    calendar := Calendar.new "Select date" true settings.showSeconds now
    rangePicker := RangePicker.new true settings.showSeconds settings.allowSameDay now
    reference := ReferencePicker.new resolver (min window 10) }

/-- A new builder, if the fields of its table can be put in order. -/
def create (table : Table) (settings : Settings) (resolver : Resolver) (now : Instant) :
    Except Fault Builder :=
  if Field.areSortable table.fields then .ok (new table settings resolver now)
  else .error .wrongKind

/-- The query of the committed conditions. -/
def query (b : Builder) : Text := b.conditions.encode

end Builder

end EncodedQuery

/-
  EncodedQuery.Picker.Range
  ─────────────────────────
  **PICKING A RANGE.**

  Two calendars, one for each end, and a list of ranges with a name.  Confirming
  the start moves on to the end; confirming the end checks the order of the two
  and, if it is wrong, stays on the end with an error.  A named range is taken
  as it is.
-/
import EncodedQuery.Instant.Range
import EncodedQuery.Picker.Calendar
import EncodedQuery.Picker.Preset
import EncodedQuery.Widget.PickList

namespace EncodedQuery

/-! ## §1. State. -/

/-- What is being picked. -/
inductive RangeMode where
  /-- The start. -/
  | start
  /-- The end. -/
  | stop
  /-- A range with a name. -/
  | presets
  deriving DecidableEq, Repr

/-- The name of a mode. -/
def RangeMode.name : RangeMode → Text
  | .start => "start"
  | .stop => "end"
  | .presets => "presets"

/-- The other end. -/
def RangeMode.opposite : RangeMode → RangeMode
  | .start => .stop
  | _ => .start

/-- A picker for a range. -/
structure RangePicker where
  /-- Both ends may lie on one day. -/
  allowSameDay : Bool
  /-- The calendar of the start. -/
  startCalendar : Calendar
  /-- The calendar of the end. -/
  stopCalendar : Calendar
  /-- The ranges with a name. -/
  presets : PickList Preset := PickList.new "Presets" []
  /-- What is being picked. -/
  mode : RangeMode := .start
  /-- The start, once it is picked. -/
  start : Option Instant := none
  /-- The end, once it is picked. -/
  stop : Option Instant := none
  /-- What went wrong last. -/
  error : Text := []
  /-- The last choice was confirmed. -/
  completed : Bool := false
  /-- Keys are taken. -/
  active : Bool := false
  /-- Where leaving the named ranges leads back to. -/
  returnMode : RangeMode := .start

namespace RangePicker

/-- A new picker. -/
def new (showTime showSeconds allowSameDay : Bool) (now : Instant) : RangePicker :=
  { allowSameDay
    startCalendar := Calendar.new "Start date" showTime showSeconds now
    stopCalendar := Calendar.new "End date" showTime showSeconds now }

/-- Times are picked too. -/
def showTime (p : RangePicker) : Bool := p.startCalendar.showTime

/-! ## §2. Opening and closing. -/

/-- Opens the picker on the start, with the ends as they are. -/
def reopen (p : RangePicker) : RangePicker :=
  { p with
    active := true
    completed := false
    error := []
    mode := .start
    stopCalendar := p.stopCalendar.deactivate
    startCalendar := p.startCalendar.activate }

/-- Opens the picker afresh. -/
def activate (p : RangePicker) (now : Instant) : RangePicker :=
  reopen { p with
    start := none
    stop := none
    returnMode := .start
    startCalendar := p.startCalendar.reset now
    stopCalendar := p.stopCalendar.reset now }

/-- Closes the picker. -/
def deactivate (p : RangePicker) : RangePicker :=
  { p with
    active := false
    startCalendar := p.startCalendar.deactivate
    stopCalendar := p.stopCalendar.deactivate }

/-- Sets both ends; the calendars show those that are given. -/
def setRange (p : RangePicker) (start stop : Option Instant) : RangePicker :=
  { p with
    start
    stop
    startCalendar := (start.map p.startCalendar.setInstant).getD p.startCalendar
    stopCalendar := (stop.map p.stopCalendar.setInstant).getD p.stopCalendar }

/-! ## §3. The choice. -/

/-- Both ends, once both are picked. -/
def ends? (p : RangePicker) : Option (Instant × Instant) :=
  match p.start, p.stop with
  | some a, some b => some (a, b)
  | _, _ => none

/-- Both ends as the backend expects them. -/
def backendTexts (p : RangePicker) : Text × Text :=
  match p.ends? with
  | some (a, b) => (a.shown, b.shown)
  | none => ([], [])

/-- The range literal. -/
def literal (p : RangePicker) : Text :=
  match p.ends? with
  | some (a, b) => Instant.rangeLiteral a b
  | none => []

/-- The range for people. -/
def shownText (p : RangePicker) : Text :=
  let one (t : Instant) : Text := if p.showTime then t.shown else t.date.shown
  match p.ends? with
  | some (a, b) => one a ++ " - " ++ one b
  | none => []

/-- What is wrong with the order of two ends; nothing when they are in order. -/
def problem (allowSameDay : Bool) (start stop : Instant) : Text :=
  if stop < start then "End date must be on or after start date"
  else if !allowSameDay && start.sameDay stop then "End date must be after start date"
  else []

/-! ## §4. Keys. -/

/-- The calendar of the end that is being picked. -/
def calendar (p : RangePicker) : Calendar :=
  if p.mode = .start then p.startCalendar else p.stopCalendar

/-- The picker with another calendar for that end. -/
def setCalendar (p : RangePicker) (c : Calendar) : RangePicker :=
  if p.mode = .start then { p with startCalendar := c } else { p with stopCalendar := c }

/-- The row of a named range. -/
def presetItem (preset : Preset) : PickItem Preset :=
  { title := preset.name
    description := preset.start.date.shown ++ " → " ++ preset.stop.date.shown
    value := preset }

/-- Opens the list of named ranges. -/
def openPresets (p : RangePicker) (now : Instant) : Except Fault RangePicker := do
  let presets ← Preset.all now
  let closed := p.setCalendar p.calendar.deactivate
  return { closed with
    returnMode := p.mode
    presets := p.presets.setItems (presets.map presetItem)
    mode := .presets }

/-- Takes a named range as it is. -/
def applyPreset (p : RangePicker) (preset : Preset) : RangePicker :=
  deactivate { p.setRange (some preset.start) (some preset.stop) with
    error := [], completed := true }

/-- A key in the list of named ranges. -/
def updatePresets (p : RangePicker) : Key → RangePicker
  | .enter =>
      match p.presets.selected with
      | some item => p.applyPreset item.value
      | none => p
  | .esc =>
      let back := { p with mode := p.returnMode }
      back.setCalendar back.calendar.activate
  | k => { p with presets := (p.presets.handle k).1 }

/-- Turns to the other end. -/
def switch (p : RangePicker) : RangePicker :=
  let closed := p.setCalendar p.calendar.deactivate
  let turned := { closed with mode := p.mode.opposite }
  turned.setCalendar turned.calendar.activate

/-- The start was confirmed: on to the end, which begins at the same day and at its last
second unless it was picked before. -/
def startConfirmed (p : RangePicker) : RangePicker :=
  let start := p.startCalendar.instant
  let stopCalendar :=
    if p.stopCalendar.selected.isNone then
      let c := { p.stopCalendar with cursor := start.date }
      if p.showTime then c.setTime 23 59 59 else c
    else p.stopCalendar
  { p with start := some start, mode := .stop, stopCalendar := stopCalendar.activate }

/-- The end was confirmed: the picker completes when the start is picked and comes before
it. -/
def stopConfirmed (p : RangePicker) : RangePicker :=
  let stop := p.stopCalendar.instant
  match p.start with
  | none =>
      { p with stop := some stop, mode := .start, startCalendar := p.startCalendar.activate }
  | some start =>
      let wrong := problem p.allowSameDay start stop
      if wrong.isEmpty then
        deactivate { p with stop := some stop, error := [], completed := true }
      else { p with error := wrong, stopCalendar := p.stopCalendar.activate }

/-- The choice in a calendar was given up: from the end back to the start, from the start out
of the picker. -/
def calendarCancelled (p : RangePicker) : RangePicker :=
  if p.mode = .stop then
    { p with mode := .start, error := [], startCalendar := p.startCalendar.activate }
  else deactivate { p with completed := false }

/-- A key for the calendar of the end that is being picked. -/
def updateCalendar (p : RangePicker) (now : Instant) (k : Key) : Except Fault RangePicker := do
  let before := p.calendar
  let after ← before.update now k
  let p := p.setCalendar after
  return if before.active && !after.active then
      if after.completed then (if p.mode = .start then p.startConfirmed else p.stopConfirmed)
      else p.calendarCancelled
    else p

/-- A key; a closed picker takes none. -/
def update (p : RangePicker) (now : Instant) (k : Key) : Except Fault RangePicker :=
  if !p.active then .ok p
  else if p.mode = .presets then .ok (p.updatePresets k)
  else if p.calendar.mode = .month ∧ k = .char 'p' then p.openPresets now
  else if p.calendar.mode = .month ∧ k = .tab then .ok p.switch
  else p.updateCalendar now k

/-! ## §5. View. -/

/-- Both ends as far as they are picked, the one being picked set off. -/
def summary (p : RangePicker) : Styled :=
  let one (s : Styled) (label : Text) (t : Option Instant) (mode : RangeMode) : Styled :=
    (s.add label "dim").add ((t.map Instant.shown).getD "not set")
      (if p.mode = mode then "bold green" else [])
  one (one {} "From: " p.start .start) "   To: " p.stop .stop

/-- The whole picker. -/
def view (p : RangePicker) (now : Instant) : Except Fault View := do
  let page ←
    if p.mode = .presets then
      pure [p.presets.view, .line "↑/↓ choose • enter apply • esc back" "dim"]
    else do
      let page ← p.calendar.view now
      pure [page, .line "p presets • tab switch start/end" "dim"]
  let error : List View := if p.error.isEmpty then [] else [.line p.error "bold red"]
  return .group
    ([.line "📅 Date range" "bold magenta", .styled p.summary] ++ page ++ error)

end RangePicker

end EncodedQuery

/-
  EncodedQuery.Picker.Calendar
  ────────────────────────────
  **PICKING A DAY AND A TIME.**

  A page of days, a page of years, and a time that is entered digit by digit.
  The picker is active until a day is confirmed or the choice is given up;
  `completed` tells the two apart.

  The clock is an argument of every function that looks at it.
-/
import EncodedQuery.Key
import EncodedQuery.Month
import EncodedQuery.Screen.View

namespace EncodedQuery

/-! ## §1. State. -/

/-- A time of day as it is entered. -/
structure DayTime where
  /-- The hour. -/
  hour : Fin 24 := 0
  /-- The minute. -/
  minute : Fin 60 := 0
  /-- The second. -/
  second : Fin 60 := 0
  deriving DecidableEq, Repr

/-- A part of the time. -/
inductive TimeSlot where
  /-- The hour. -/
  | hour
  /-- The minute. -/
  | minute
  /-- The second. -/
  | second
  deriving DecidableEq, Repr

/-- The page that is shown. -/
inductive CalendarMode where
  /-- The days of a month. -/
  | month
  /-- The years around a year. -/
  | year
  /-- The time. -/
  | time
  deriving DecidableEq, Repr

/-- The name of a page. -/
def CalendarMode.name : CalendarMode → Text
  | .month => "month"
  | .year => "year"
  | .time => "time"

/-- A picker for a day and a time. -/
structure Calendar where
  /-- The heading. -/
  title : Text
  /-- A time is picked too. -/
  showTime : Bool
  /-- The time has seconds. -/
  showSeconds : Bool
  /-- The first day that can be confirmed. -/
  first : Option Date := none
  /-- The last day that can be confirmed. -/
  last : Option Date := none
  /-- The day under the cursor. -/
  cursor : Date
  /-- The day that was picked. -/
  selected : Option Date := none
  /-- The time. -/
  time : DayTime := {}
  /-- The part of the time that keys change. -/
  focus : TimeSlot := .hour
  /-- The page. -/
  mode : CalendarMode := .month
  /-- What went wrong last. -/
  error : Text := []
  /-- The last choice was confirmed. -/
  completed : Bool := false
  /-- Keys are taken. -/
  active : Bool := false
  /-- The time page was reached by confirming a day, so that Enter completes the choice. -/
  confirming : Bool := false
  deriving DecidableEq, Repr

/-- The parts of the time that are shown. -/
def TimeSlot.shown (seconds : Bool) : List TimeSlot :=
  if seconds then [.hour, .minute, .second] else [.hour, .minute]

/-- The position of a part. -/
def TimeSlot.index : TimeSlot → Nat
  | .hour => 0
  | .minute => 1
  | .second => 2

/-- The part to the left. -/
def TimeSlot.before : TimeSlot → TimeSlot
  | .hour => .hour
  | .minute => .hour
  | .second => .minute

/-- The part to the right, as far as there is one. -/
def TimeSlot.after (seconds : Bool) : TimeSlot → TimeSlot
  | .hour => .minute
  | .minute => if seconds then .second else .minute
  | .second => if seconds then .second else .minute

/-- The next part in turn. -/
def TimeSlot.turn (seconds : Bool) : TimeSlot → TimeSlot
  | .hour => .minute
  | .minute => if seconds then .second else .hour
  | .second => if seconds then .hour else .minute

/-- The name of a part, capitalised. -/
def TimeSlot.label : TimeSlot → Text
  | .hour => "Hour"
  | .minute => "Minute"
  | .second => "Second"

/-- The number of values of a part. -/
def TimeSlot.limit : TimeSlot → Nat
  | .hour => 24
  | .minute => 60
  | .second => 60

namespace DayTime

/-- The value of a part. -/
def get (t : DayTime) : TimeSlot → Nat
  | .hour => t.hour
  | .minute => t.minute
  | .second => t.second

/-- The time with a part set, the value taken round the clock. -/
def set (t : DayTime) (slot : TimeSlot) (n : Int) : DayTime :=
  match slot with
  | .hour => { t with hour := Fin.ofNat 24 (n % 24).toNat }
  | .minute => { t with minute := Fin.ofNat 60 (n % 60).toNat }
  | .second => { t with second := Fin.ofNat 60 (n % 60).toNat }

/-- The time of an instant. -/
def ofInstant (t : Instant) : DayTime :=
  ⟨⟨t.hour, t.isTime.1⟩, ⟨t.minute, t.isTime.2.1⟩, ⟨t.second, t.isTime.2.2.1⟩⟩

end DayTime

/-- The instant at a time of a day. -/
def Instant.at (d : Date) (t : DayTime) : Instant :=
  { date := d, hour := t.hour, minute := t.minute, second := t.second,
    isTime := ⟨t.hour.isLt, t.minute.isLt, t.second.isLt, by decide⟩ }

namespace Calendar

/-- A new picker, the cursor on the current day. -/
def new (title : Text) (showTime showSeconds : Bool) (now : Instant) : Calendar :=
  { title, showTime, showSeconds, cursor := now.date }

/-! ## §2. Opening and closing. -/

/-- Opens the picker on its page of days; cursor, choice and time stay. -/
def activate (c : Calendar) : Calendar :=
  { c with active := true, completed := false, mode := .month, error := [], confirming := false }

/-- Closes the picker. -/
def deactivate (c : Calendar) : Calendar := { c with active := false }

/-- Forgets the choice; the cursor goes to the current day. -/
def reset (c : Calendar) (now : Instant) : Calendar :=
  { c with cursor := now.date, selected := none, time := {}, focus := .hour, mode := .month,
           error := [], completed := false, confirming := false }

/-- Makes an instant the choice. -/
def setInstant (c : Calendar) (t : Instant) : Calendar :=
  { c with cursor := t.date, selected := some t.date, time := DayTime.ofInstant t }

/-- Sets the time, each part taken round the clock. -/
def setTime (c : Calendar) (h m s : Int) : Calendar :=
  { c with time := ((({} : DayTime).set .hour h).set .minute m).set .second s }

/-- Sets the first and the last day that can be confirmed. -/
def setBounds (c : Calendar) (first last : Option Date) : Calendar := { c with first, last }

/-! ## §3. The choice. -/

/-- The time that counts: parts that are not shown are zero. -/
def effectiveTime (c : Calendar) : DayTime :=
  if !c.showTime then {}
  else if !c.showSeconds then { c.time with second := 0 }
  else c.time

/-- The chosen day, or the day under the cursor, at the entered time. -/
def instant (c : Calendar) : Instant := Instant.at (c.selected.getD c.cursor) c.effectiveTime

/-- The choice as the backend expects it. -/
def backendText (c : Calendar) : Text := c.instant.shown

/-- The choice for people: only the parts that were picked. -/
def shownText (c : Calendar) : Text :=
  let t := c.instant
  if !c.showTime then t.date.shown
  else if !c.showSeconds then
    t.date.shown ++ " " ++ Text.twoDigits t.hour ++ ":" ++ Text.twoDigits t.minute
  else t.shown

/-- The day can be confirmed. -/
def inRange (c : Calendar) (d : Date) : Bool :=
  c.first.all (fun f => decide (f ≤ d)) && c.last.all (fun l => decide (d ≤ l))

/-! ## §4. Keys on the page of days. -/

/-- The cursor `n` days further. -/
def move (c : Calendar) (n : Int) : Except Fault Calendar := do
  return { c with cursor := ← c.cursor.plusDays n, error := [] }

/-- The cursor `n` months further. -/
def moveMonths (c : Calendar) (n : Int) : Except Fault Calendar := do
  return { c with cursor := ← c.cursor.plusMonths n }

/-- The cursor `n` years further. -/
def moveYears (c : Calendar) (n : Int) : Except Fault Calendar := do
  return { c with cursor := ← c.cursor.plusYears n }

/-- Confirms the day under the cursor; without a time that completes the choice. -/
def confirmDay (c : Calendar) : Calendar :=
  if !c.inRange c.cursor then { c with error := "Date is outside the allowed range" }
  else
    let c := { c with selected := some c.cursor, error := [] }
    if c.showTime then { c with mode := .time, confirming := true }
    else { c with completed := true, active := false }

/-- Makes the current instant the choice. -/
def pickNow (c : Calendar) (now : Instant) : Calendar :=
  { c with cursor := now.date, selected := some now.date, time := DayTime.ofInstant now,
           error := [] }

/-- A key on the page of days. -/
def updateMonth (c : Calendar) (now : Instant) : Key → Except Fault Calendar
  | .left | .char 'h' => c.move (-1)
  | .right | .char 'l' => c.move 1
  | .up | .char 'k' => c.move (-7)
  | .down | .char 'j' => c.move 7
  | .char 'm' | .pageUp => c.moveMonths (-1)
  | .char 'M' | .pageDown => c.moveMonths 1
  | .char 'y' => .ok { c with mode := .year }
  | .char 't' => .ok (if c.showTime then { c with mode := .time, confirming := false } else c)
  | .char 'n' => .ok (c.pickNow now)
  | .enter | .char ' ' => .ok c.confirmDay
  | .esc => .ok { c with completed := false, active := false }
  | _ => .ok c

/-! ## §5. Keys on the other pages. -/

/-- The number of years in a row of the page of years. -/
def yearColumns : Nat := 5

/-- A key on the page of years. -/
def updateYear (c : Calendar) : Key → Except Fault Calendar
  | .left | .char 'h' => c.moveYears (-1)
  | .right | .char 'l' => c.moveYears 1
  | .up | .char 'k' => c.moveYears (-(yearColumns : Int))
  | .down | .char 'j' => c.moveYears yearColumns
  | .enter | .char ' ' | .esc | .char 'y' => .ok { c with mode := .month }
  | _ => .ok c

/-- The focused part of the time `n` further, round the clock. -/
def stepTime (c : Calendar) (n : Int) : Calendar :=
  { c with time := c.time.set c.focus (c.time.get c.focus + n) }

/-- A digit pushed into the focused part from the right. -/
def enterDigit (c : Calendar) (digit : Nat) : Calendar :=
  let shifted := c.time.get c.focus % 10 * 10 + digit
  if c.focus.limit ≤ shifted then
    { c with error := c.focus.label ++ " must be below " ++ Text.ofNat c.focus.limit }
  else { c with time := c.time.set c.focus shifted, error := [] }

/-- A key on the page of the time. -/
def updateTime (c : Calendar) : Key → Calendar
  | .left | .char 'h' => { c with focus := c.focus.before }
  | .right | .char 'l' => { c with focus := c.focus.after c.showSeconds }
  | .tab => { c with focus := c.focus.turn c.showSeconds }
  | .up | .char 'k' => c.stepTime 1
  | .down | .char 'j' => c.stepTime (-1)
  | .enter =>
      if c.confirming then { c with completed := true, active := false }
      else { c with mode := .month }
  | .esc => { c with mode := .month, confirming := false }
  | k =>
      match k.digit? with
      | some d => c.enterDigit d
      | none => c

/-- A key; a closed picker takes none. -/
def update (c : Calendar) (now : Instant) (k : Key) : Except Fault Calendar :=
  if !c.active then .ok c
  else match c.mode with
    | .month => c.updateMonth now k
    | .year => c.updateYear k
    | .time => .ok (c.updateTime k)

/-! ## §6. View. -/

/-- The style of a day on the page of days. -/
def dayStyle (c : Calendar) (today d : Date) : Text :=
  let place : Text :=
    if !c.inRange d then "dim strike" else if d.month ≠ c.cursor.month then "dim" else []
  let marks : List Text :=
    (if d = today then Styled.layer "underline" else [])
      ++ (if c.selected = some d then Styled.layer "bold green" else [])
      ++ (if d = c.cursor then Styled.layer "reverse" else [])
  Text.join " " (Styled.layer place ++ marks)

/-- The page of days. -/
def monthView (c : Calendar) (now : Instant) : Except Fault View := do
  let weeks ← c.cursor.monthGrid
  let columns := (["Su", "Mo", "Tu", "We", "Th", "Fr", "Sa"] : List Text).map
    (fun name => ({ header := name, side := .right } : Column))
  let cell (d : Date) : View := .line (Text.ofNat d.day) (c.dayStyle now.date d)
  return .table (some (Date.monthName c.cursor.month ++ " " ++ Text.ofNat c.cursor.year)) columns
    (weeks.map (fun week => week.map cell))

/-- The page of years. -/
def yearsView (c : Calendar) : View :=
  let start := c.cursor.year - c.cursor.year % 20
  let cell (y : Nat) : View := .line (Text.ofNat y) (if y = c.cursor.year then "reverse" else [])
  .table none (List.replicate yearColumns { side := .right })
    ((List.range 4).map (fun row => (List.range yearColumns).map (fun i =>
      cell (start + yearColumns * row + i))))

/-- The time. -/
def timeView (c : Calendar) : View :=
  let part (s : Styled) (slot : TimeSlot) : Styled :=
    let s := if slot = .hour then s else s.add ":"
    s.add (Text.twoDigits (c.time.get slot))
      (if c.mode = .time ∧ slot = c.focus then "reverse" else "bold")
  .styled ((TimeSlot.shown c.showSeconds).foldl part (Styled.of "Time: "))

/-- What the keys do. -/
def help (c : Calendar) : Text :=
  match c.mode with
  | .year => "←/→ year • ↑/↓ 5 years • enter back"
  | .time => "←/→ field • tab next • ↑/↓ change • 0-9 type • enter confirm • esc back"
  | .month =>
      let hint : Text := "arrows move • m/M month • y year • n today • enter select • esc cancel"
      if c.showTime then hint ++ " • t time" else hint

/-- The whole picker; a page of days at the ends of the calendar cannot be shown. -/
def view (c : Calendar) (now : Instant) : Except Fault View := do
  let page ← if c.mode = .year then pure c.yearsView else c.monthView now
  let time : List View := if c.showTime then [c.timeView] else []
  let error : List View := if c.error.isEmpty then [] else [.line c.error "bold red"]
  return .group ([.line c.title "bold cyan", page] ++ time ++ error ++ [.line c.help "dim"])

end Calendar

end EncodedQuery

/-
  EncodedQuery.Builder.View
  ─────────────────────────
  **WHAT THE BUILDER SHOWS.**

  The committed conditions, the widget of the stage, what went wrong or was done
  last, and, when they are wanted, the query and the findings about it.
-/
import EncodedQuery.Builder.Update

namespace EncodedQuery

/-- The colour of a severity. -/
def Severity.style : Severity → Text
  | .error => "red"
  | .warning => "yellow"
  | .info => "blue"

namespace Builder

/-! ## §1. Parts. -/

/-- One committed condition, with the link to the next one. -/
def conditionLine (s : Styled) (i : Nat) (c : Condition) : Styled :=
  let s := (s.add (Text.ofNat i ++ ". ") "bold").add c.describe
  let s := match c.link with
    | some l => s.add ("  " ++ l.name) "bold magenta"
    | none => s
  s.add "\n"

/-- The committed conditions, one a line. -/
def conditionsView (b : Builder) : View :=
  if b.conditions.conditions.isEmpty then .line "No conditions yet" "dim"
  else
    let lines := (b.conditions.conditions.zipIdx 1).foldl
      (fun s (c, i) => conditionLine s i c) ({} : Styled)
    .styled lines.stripRight

/-- The widget of the stage. -/
def stageView (b : Builder) (now : Instant) : Except Fault View :=
  match b.stage with
  | .field =>
      .ok (.group [b.fieldList.view,
        .line "type to filter • enter select • ctrl+f finish • esc quit" "dim"])
  | .operator => .ok b.operatorList.view
  | .value =>
      let subject := (b.field.map Field.displayLabel).getD []
      let token := (b.operator.map OperatorEntry.token).getD []
      .ok (.group [.line ("Value for " ++ subject ++ " " ++ token) "bold cyan",
        .styled (b.valueInput.view true)])
  | .choice => .ok b.choiceList.view
  | .reference => .ok b.reference.view
  | .calendar => b.calendar.view now
  | .rangePicker => b.rangePicker.view now
  | .rangeText =>
      .ok (.group [.line "Date range" "bold cyan",
        .styled ((Styled.of "From: ").beside (b.startInput.view (!b.focusStop))),
        .styled ((Styled.of "To:   ").beside (b.stopInput.view b.focusStop)),
        .line "tab switch • enter confirm • ctrl+t calendar" "dim"])
  | .link =>
      if b.pending.any (fun c => c.field.oddName.isSome) then .error .wrongKind
      else
        let subject := (b.pending.map Condition.describe).getD []
        .ok (.group [.line ("New: " ++ subject) "bold", b.linkList.view,
          .line "a AND • o OR • esc AND" "dim"])
  | .finished => .ok (.line [])

/-- The findings about the query. -/
def validationView (v : Verdict) : View :=
  let row (i : Issue) : List View :=
    [.line i.severity.name i.severity.style, .plain i.subject, .plain i.format]
  let rows := if v.issues.isEmpty then [[.line "ok" "green", .plain [], .plain "No issues"]]
    else v.issues.map row
  .table (some ("Validation " ++ (if v.isValid then "✅" else "❌")))
    [{ header := "Severity", style := "bold" }, { header := "Where" }, { header := "Message" }] rows

/-! ## §2. The whole. -/

/-- The whole builder. -/
def view (b : Builder) (now : Instant) : Except Fault View := do
  let step ←
    if b.stage = .finished then pure (.line "✅ Query complete" "bold green")
    else if !b.active then pure (.line "Builder closed" "dim")
    else b.stageView now
  let error : List View := if b.error.isEmpty then [] else [.line ("❌ " ++ b.error) "bold red"]
  let warnings : List View := b.warnings.map (fun w => .line ("⚠️  " ++ w.format) "yellow")
  let message : List View := if b.message.isEmpty then [] else [.line b.message "green"]
  let preview : List View :=
    if b.showPreview then
      [.panel (.line (if b.query.isEmpty then "(empty)" else b.query)) (some "Query preview")
        "blue"]
    else []
  let validation : List View := match b.showValidation, b.validation with
    | true, some v => [validationView v]
    | _, _ => []
  let help : View := .line
    ("ctrl+f finish • ctrl+p preview • ctrl+v validation • ctrl+r revalidate • "
      ++ "ctrl+d remove last • ctrl+x reset • ctrl+t date mode • esc back") "dim"
  return .panel
    (.group ([b.conditionsView, step] ++ error ++ warnings ++ message ++ preview ++ validation
      ++ [help]))
    (some ("🔍 Filter " ++ b.table.name)) "cyan"

end Builder

end EncodedQuery

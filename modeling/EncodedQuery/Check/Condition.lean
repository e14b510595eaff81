/-
  EncodedQuery.Check.Condition
  ────────────────────────────
  **CHECKING ONE CONDITION.**

  A condition needs a field and an operator; the operator should suit the type
  of the field, and a value has to be given in the form of that type.  Operators
  that stand without a value are not asked for one, and a range is judged by
  its two instants whatever the type of its field.
-/
import EncodedQuery.Condition.Basic
import EncodedQuery.Operator.Menu

namespace EncodedQuery.Check

/-! ## §1. Operators by type. -/

/-- The longest value that raises no concern. -/
def longestValue : Nat := 4000

/-- The operators that suit references. -/
def suitsReference (op : Operator) : Bool :=
  op = .equals || op = .notEquals || op = .contains || op = .startsWith || op.isEmptiness

/-- The operators that suit days. -/
def suitsDate (op : Operator) : Bool :=
  op.isComparison || op = .between || op.isValueless

/-- The operators that suit truth values. -/
def suitsBoolean (op : Operator) : Bool := op = .equals || op = .notEquals

/-- The warning about an operator that does not suit the type of the field. -/
def operatorIssues (c : Condition) : List Issue :=
  let warn (message suggestion : Text) : List Issue :=
    [{ severity := .warning, message, subject := c.field.name, suggestion, operator := c.operator }]
  let fits (p : Operator → Bool) : Bool := Text.isOperatorIn p c.operator
  let type := c.field.type
  if type = .reference ∧ !fits suitsReference then
    warn "Reference fields work best with =, !=, CONTAINS, or STARTSWITH operators"
      "Consider using = for sys_id or CONTAINS for display names"
  else if type.isDate ∧ !fits suitsDate then
    warn "Date fields should use comparison operators (=, !=, >, >=, <, <=) or date operators"
      "Use >= for 'on or after' or <= for 'on or before'"
  else if type.isNumeric ∧ fits Operator.isTextual then
    warn "Numeric fields should not use text operators (CONTAINS, STARTSWITH, ENDSWITH)"
      "Use comparison operators (=, !=, >, >=, <, <=) for numbers"
  else if type = .boolean ∧ !fits suitsBoolean then
    warn "Boolean fields should only use = or != operators" "Use = true/false or != true/false"
  else []

/-! ## §2. Forms of values. -/

/-- The text without one leading sign. -/
def unsigned : Text → Text
  | '+' :: rest => rest
  | '-' :: rest => rest
  | t => t

/-- A nonempty row of digits. -/
def isDigits (t : Text) : Bool := !t.isEmpty && t.all Text.isDigit

/-- A sign, perhaps, and digits. -/
def isIntegerText (t : Text) : Bool := isDigits (unsigned t)

/-- The exponent behind a decimal number, or nothing. -/
def isExponentText : Text → Bool
  | [] => true
  | c :: rest => (c = 'e' ∨ c = 'E') && isIntegerText rest

/-- A sign, perhaps, digits with at most one point among them, and an exponent, perhaps. -/
def isDecimalText (t : Text) : Bool :=
  let body := unsigned t
  let whole := body.takeWhile Text.isDigit
  match body.dropWhile Text.isDigit with
  | '.' :: rest =>
      let fraction := rest.takeWhile Text.isDigit
      !(whole.isEmpty && fraction.isEmpty) && isExponentText (rest.dropWhile Text.isDigit)
  | rest => !whole.isEmpty && isExponentText rest

/-- The texts that a truth value can be given by. -/
def booleanTexts : List Text := ["true", "false", "1", "0"]

/-- The single values in the value of a condition: a list of values stands between commas, the
ends of a range of numbers at either side of an at sign. -/
def splitValues (c : Condition) : List Text :=
  let value := Text.strip c.value
  if Text.isOperatorIn Operator.isListed c.operator then
    ((Text.cut ',' value).map Text.strip).filter (fun v => !v.isEmpty)
  else if c.operator = Operator.between.token ∧ .char '@' ∈ value then
    (Text.cut '@' value).map Text.strip
  else [value]

/-! ## §3. Values by type. -/

/-- A finding about the value of a condition. -/
def valueIssue (c : Condition) (severity : Severity) (message suggestion : Text) : Issue :=
  { severity, message, subject := c.field.name, suggestion, operator := c.operator,
    value := c.value }

/-- The error about a range without two ends in order. -/
def rangeIssues (c : Condition) : List Issue :=
  let bounds : Option (Option Instant × Option Instant) :=
    if c.value.isEmpty then some (c.start, c.stop)
    else (Instant.readRange c.value).toOption.join.map (fun (a, b) => (some a, some b))
  match bounds with
  | none =>
      [valueIssue c .error "Invalid date range" "Use javascript:gs.dateGenerate('start','end')"]
  | some (some start, some stop) =>
      if stop < start then [valueIssue c .error "End date must be after start date" []] else []
  | some _ => [valueIssue c .error "Both start and end dates are required" []]

/-- The warnings about a text. -/
def textIssues (c : Condition) : List Issue :=
  (if .char '^' ∈ c.value ∨ .char '=' ∈ c.value then
    [valueIssue c .warning "Value contains special characters that may cause issues"
      "Special characters (^ =) in values may need to be escaped"]
   else [])
  ++ (if longestValue < c.value.length then
    [{ valueIssue c .warning "Very long values may cause performance issues"
        "Consider using shorter, more specific search terms" with
        value := c.value.take 50 ++ "..." }]
   else [])

/-- The findings about a value, by the type of its field. -/
def typedIssues (c : Condition) : List Issue :=
  match c.field.type with
  | .integer =>
      if (splitValues c).all isIntegerText then []
      else [valueIssue c .error "Value must be a valid integer" "Enter a whole number (e.g., 123)"]
  | .decimal =>
      if (splitValues c).all isDecimalText then []
      else [valueIssue c .error "Value must be a valid decimal number"
        "Enter a decimal number (e.g., 123.45)"]
  | .boolean =>
      if Text.isOneOf (Text.lower (Text.strip c.value)) booleanTexts then []
      else [valueIssue c .error "Boolean value must be true, false, 1, or 0"
        "Use 'true', 'false', '1', or '0'"]
  | .date | .dateTime =>
      if Instant.isDateText c.value then []
      else [valueIssue c .error "Invalid date format"
        "Use format: YYYY-MM-DD or YYYY-MM-DD HH:MM:SS"]
  | .choice =>
      if c.field.choices.isEmpty || (splitValues c).all c.field.hasChoice then []
      else [valueIssue c .warning "Value may not be a valid choice for this field"
        "Use the choice dropdown to select valid values"]
  | .reference | .password => []
  | .string | .journal | .html | .url | .email | .translatedText => textIssues c

/-- The value is a range: a range literal, or nothing beside a start. -/
def isRange (c : Condition) : Bool :=
  c.operator = Operator.between.token
    && (Instant.looksLikeRange c.value || (c.value.isEmpty && c.start.isSome))

/-- The findings about the value of a condition. -/
def valueIssues (c : Condition) : List Issue :=
  if Text.isOperatorIn Operator.isValueless c.operator then []
  else if (Text.strip c.value).isEmpty && c.start.isNone then
    [valueIssue c .error "Value is required for this operator" []]
  else if isRange c then rangeIssues c
  else typedIssues c

/-! ## §4. Whole conditions. -/

/-- The findings about a condition; with a table given, its field should belong to it. -/
def condition (table : Option Table) (c : Condition) : List Issue :=
  let name := c.field.name
  if c.field.isNameless then [{ severity := .error, message := "Field is required" }]
  else
    let unknown : List Issue :=
      if table.any (fun t => (t.fieldNamed? c.field.nameValue).isNone) then
        [{ severity := .warning, message := "Field '" ++ name ++ "' does not exist in table",
           subject := name, suggestion := "Use field search to find valid fields" }]
      else []
    if c.operator.isEmpty then
      unknown ++ [{ severity := .error, message := "Operator is required", subject := name }]
    else unknown ++ operatorIssues c ++ valueIssues c

end EncodedQuery.Check

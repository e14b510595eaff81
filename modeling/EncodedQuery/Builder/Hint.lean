/-
  EncodedQuery.Builder.Hint
  ─────────────────────────
  **HINTS FOR VALUES.**

  What the empty value line says, and the sign before a field in the list.
-/
import EncodedQuery.Operator.Menu

namespace EncodedQuery

/-- The sign of a type. -/
def FieldType.sign : FieldType → Text
  | .string => "📝"
  | .integer => "🔢"
  | .decimal => "🔢"
  | .boolean => "☑️"
  | .date => "📅"
  | .dateTime => "🕐"
  | .reference => "🔗"
  | .choice => "📋"
  | .journal => "📓"
  | .html => "🌐"
  | .url => "🌐"
  | .email => "📧"
  | .password => "🔒"
  | .translatedText => "🈂️"

/-- The form of a value of a type. -/
def FieldType.hint : FieldType → Text
  | .integer => "Enter a whole number (e.g., 123)"
  | .decimal => "Enter a number (e.g., 123.45)"
  | .boolean => "true or false"
  | .date => "YYYY-MM-DD"
  | .dateTime => "YYYY-MM-DD HH:MM:SS"
  | .reference => "sys_id of the referenced record"
  | .choice => "Choice value"
  | .email => "name@example.com"
  | .url => "https://..."
  | _ => "Enter value"

/-- The form of a value behind an operator on a field of a type. -/
def valueHint (type : FieldType) (token : Text) : Text :=
  if Text.isOperatorIn Operator.isListed token then "Comma separated values"
  else if token = Operator.between.token ∧ type.isNumeric then "low@high (e.g., 1@10)"
  else if token = Operator.like.token then "Pattern (use % wildcards)"
  else type.hint

end EncodedQuery

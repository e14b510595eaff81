/-
  EncodedQuery.Field.Type
  ───────────────────────
  **TYPES OF FIELDS.**

  The fourteen types that a table's dictionary knows.  The dictionary also
  uses older and more special names; `ofInternal` takes them all, and a name that
  is not known means plain text.
-/
import EncodedQuery.Json.Shown
import EncodedQuery.Text.Blank
import EncodedQuery.Text.Case

namespace EncodedQuery

/-- The type of a field. -/
inductive FieldType where
  /-- Plain text. -/
  | string
  /-- A whole number. -/
  | integer
  /-- A decimal number. -/
  | decimal
  /-- True or false. -/
  | boolean
  /-- A day. -/
  | date
  /-- A day with a time. -/
  | dateTime
  /-- A record of another table. -/
  | reference
  /-- One of a list of values. -/
  | choice
  /-- A list of dated notes. -/
  | journal
  /-- Marked-up text. -/
  | html
  /-- An address on the web. -/
  | url
  /-- A mail address. -/
  | email
  /-- A secret. -/
  | password
  /-- Text with a version per language. -/
  | translatedText
  deriving DecidableEq, Repr

namespace FieldType

/-! ## §1. Names. -/

/-- All types, in their standard order. -/
def all : List FieldType :=
  [string, integer, decimal, boolean, date, dateTime, reference, choice, journal, html, url, email,
   password, translatedText]

/-- The name of a type. -/
def name : FieldType → Text
  | string => "string"
  | integer => "integer"
  | decimal => "decimal"
  | boolean => "boolean"
  | date => "glide_date"
  | dateTime => "glide_date_time"
  | reference => "reference"
  | choice => "choice"
  | journal => "journal"
  | html => "html"
  | url => "url"
  | email => "email"
  | password => "password"
  | translatedText => "translated_text"

/-- The type with this name. -/
def ofName? (t : Text) : Option FieldType := all.find? (fun ft => ft.name = t)

/-- Further names that dictionaries use. -/
def otherNames : List (Text × FieldType) :=
  [("float", decimal), ("numeric", decimal), ("journal_input", journal), ("password2", password),
   ("syslog", string)]

/-- The type that a dictionary means by a name, in any case and with blanks around it. -/
def ofInternalName (t : Text) : FieldType :=
  let key := Text.lower (Text.strip t)
  ((ofName? key).or ((otherNames.find? (fun e => e.1 = key)).map (·.2))).getD string

/-- The type that a dictionary entry means; an empty entry means plain text. -/
def ofInternal (v : Json) : FieldType :=
  if v.isEmptyValue then string else ofInternalName v.shown

/-- The type that a field description gives: its name, or else a dictionary entry. -/
def ofDescription (v : Json) : FieldType :=
  match v with
  | .text t => (ofName? t).getD (ofInternal v)
  | _ => ofInternal v

/-! ## §2. Classes. -/

/-- A day, with or without a time. -/
def isDate : FieldType → Bool
  | date | dateTime => true
  | _ => false

/-- A number. -/
def isNumeric : FieldType → Bool
  | integer | decimal => true
  | _ => false

/-- Text, whatever it stands for. -/
def isText : FieldType → Bool
  | string | journal | html | url | email | translatedText => true
  | _ => false

/-- Text that is worth searching. -/
def isSearchable : FieldType → Bool
  | string | journal | html | translatedText => true
  | _ => false

end FieldType

end EncodedQuery

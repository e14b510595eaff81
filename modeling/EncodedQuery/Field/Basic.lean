/-
  EncodedQuery.Field.Basic
  ────────────────────────
  **FIELDS AND TABLES.**

  A field is known by its name and described by what the dictionary says about
  it.  `Field.ofJson` reads a description, `toJson` writes one.  A `Table`
  is a name with its fields; `Field.sorted` puts the fields first that people
  use most.

  Where only names are known, a name can be a value that is no text.  Such a
  field is shown like any other, but it is found by no text, and no condition
  on it can be described.
-/
import EncodedQuery.Field.Type
import EncodedQuery.Json.Order
import EncodedQuery.Json.Take

namespace EncodedQuery

/-! ## §1. Choices. -/

/-- One value of a choice field. -/
structure Choice where
  /-- The stored value. -/
  value : Text
  /-- The text shown for it. -/
  label : Text
  /-- Only the empty value has nothing that is shown for it. -/
  labelled : label = [] → value = []
  deriving DecidableEq, Repr

/-- A choice; without a label it is shown by its value. -/
def Choice.of (value label : Text) : Choice where
  value
  label := if label.isEmpty then value else label
  labelled := by cases label <;> simp

/-- A choice is known by its value and its label. -/
theorem Choice.of_self (c : Choice) : Choice.of c.value c.label = c := by
  obtain ⟨value, label, labelled⟩ := c
  cases label with
  | nil => simp [of, labelled rfl]
  | cons => rfl

/-! ## §2. Fields. -/

/-- A value that stands in the place of a name though it is no text. -/
inductive OddName where
  /-- The absent value. -/
  | null
  /-- A truth value. -/
  | flag (b : Bool)
  /-- A whole number. -/
  | whole (n : Int)
  /-- A double, by its bits. -/
  | real (bits : UInt64)
  /-- A list or an object, by the text that shows it. -/
  | composite (shown : Text)
  deriving DecidableEq, Repr

namespace OddName

/-- The name is a list or an object; nothing can be looked up by such a name. -/
def isComposite : OddName → Bool
  | composite _ => true
  | _ => false

/-- The name as a value; of a list or an object only what it looks like is known. -/
def toJson : OddName → Json
  | null => .null
  | flag b => .bool b
  | whole n => .int n
  | real bits => .real (Float.ofBits bits)
  | composite shown => .list [.text shown]

/-- The odd name that a value is; texts are none. -/
def ofJson? : Json → Option OddName
  | .null => some null
  | .bool b => some (flag b)
  | .int n => some (whole n)
  | .real x => some (real x.toBits)
  | .text _ => none
  | v => some (composite v.shown)

end OddName

/-- What is known about a field. -/
structure Field where
  /-- The name by which queries know the field. -/
  name : Text
  /-- The text shown for it. -/
  label : Text := []
  /-- Its type. -/
  type : FieldType := .string
  /-- The greatest length of a value; zero when unknown. -/
  maxLength : Int := 0
  /-- A record has to have a value for it. -/
  mandatory : Bool := false
  /-- The field cannot be written. -/
  readOnly : Bool := false
  /-- The table that a reference field points to. -/
  reference : Text := []
  /-- The values of a choice field. -/
  choices : List Choice := []
  /-- The value of new records. -/
  defaultValue : Text := []
  /-- What the field is for. -/
  description : Text := []
  /-- What stands in the place of a name that is no text; `name` and `label` then show it. -/
  oddName : Option OddName := none
  deriving DecidableEq, Repr

namespace Field

/-- The label, or the name of a field without one. -/
def displayLabel (f : Field) : Text := if f.label.isEmpty then f.name else f.label

/-- The name as a value. -/
def nameValue (f : Field) : Json := (f.oddName.map OddName.toJson).getD (.text f.name)

/-- The label as a value. -/
def labelValue (f : Field) : Json := (f.oddName.map OddName.toJson).getD (.text f.label)

/-- The label, or the name of a field without one, as a value. -/
def displayValue (f : Field) : Json := (f.oddName.map OddName.toJson).getD (.text f.displayLabel)

/-- The field has no name, or one that counts as empty. -/
def isNameless (f : Field) : Bool := f.nameValue.isEmptyValue

/-- The plain field of a name, which is shown by its name. -/
def named (v : Json) : Field := { name := v.shown, label := v.shown, oddName := OddName.ofJson? v }

/-- `v` is the value or the label of one of the choices. -/
def hasChoice (f : Field) (v : Text) : Bool :=
  f.choices.any (fun c => c.value = v ∨ c.label = v)

/-- A description that `ofJson` reads back. -/
def toJson (f : Field) : Json :=
  .object
    [("name", f.nameValue), ("label", f.labelValue), ("type", .text f.type.name),
     ("max_length", .int f.maxLength), ("mandatory", .bool f.mandatory),
     ("read_only", .bool f.readOnly), ("reference", .text f.reference),
     ("choices", .list (f.choices.map (fun c =>
        .object [("value", .text c.value), ("label", .text c.label)]))),
     ("default_value", .text f.defaultValue), ("description", .text f.description)]

/-- One choice of a description. -/
def choiceOfJson (v : Json) : Except Fault Choice := do
  let ms ← v.members
  return Choice.of (Json.shownMember "value" ms) (Json.shownMember "label" ms)

/-- The field that a description gives. -/
def ofMembers (ms : List (Text × Json)) : Except Fault Field := do
  let choices ← match Json.nonempty? (Json.lookup? "choices" ms) with
    | none => pure []
    | some v => (← v.walked).mapM choiceOfJson
  let maxLength ← ((Json.nonempty? (Json.lookup? "max_length" ms)).getD (.int 0)).toInt
  return {
    name := Json.shownMember "name" ms
    label := Json.shownMember "label" ms
    type := FieldType.ofDescription ((Json.lookup? "type" ms).getD (.text FieldType.string.name))
    maxLength := maxLength
    mandatory := Json.flag "mandatory" ms
    readOnly := Json.flag "read_only" ms
    reference := Json.shownUnlessEmpty "reference" ms
    choices := choices
    defaultValue := Json.shownUnlessEmpty "default_value" ms
    description := Json.shownUnlessEmpty "description" ms }

/-- The field that a description gives; only an object describes a field. -/
def ofJson (v : Json) : Except Fault Field := v.members >>= ofMembers

/-- The names of the most used fields, most used first. -/
def mostUsed : List Text :=
  ["state", "priority", "assigned_to", "assignment_group", "caller_id",
   "number", "short_description", "description", "category", "subcategory",
   "active", "name", "title", "subject", "urgency", "impact",
   "due_date", "work_start", "work_end", "opened_at", "closed_at",
   "sys_created_on", "sys_updated_on", "sys_created_by", "sys_updated_by",
   "comments", "work_notes", "close_notes", "approval"]

/-- The place of a field among the most used ones. -/
def useRank? (f : Field) : Option Nat :=
  if f.oddName.isSome then none else mostUsed.findIdx? (· = f.name)

/-- `f` stands before or beside `g`: most used fields first, the others by label. -/
def precedes (f g : Field) : Bool :=
  match f.useRank?, g.useRank? with
  | some i, some j => i ≤ j
  | some _, none => true
  | none, some _ => false
  | none, none => !Json.isBefore g.displayValue f.displayValue

/-- The fields in their order for people; equals keep their places. -/
def sorted (fields : List Field) : List Field := fields.mergeSort precedes

/-- The fields have an order for people: every name can be looked up among the most used ones, and
the labels of those that are not among them have an order. -/
def areSortable (fields : List Field) : Bool :=
  fields.all (fun f => !f.oddName.any OddName.isComposite) &&
    Json.areOrdered ((fields.filter (fun f => f.useRank?.isNone)).map displayValue)

end Field

/-! ## §3. Tables. -/

/-- A table and its fields. -/
structure Table where
  /-- The name of the table. -/
  name : Text
  /-- Its fields, in the order of the dictionary. -/
  fields : List Field
  deriving DecidableEq, Repr

namespace Table

/-- The first field of that name; a field whose name is no text has none. -/
def field? (t : Table) (name : Text) : Option Field :=
  t.fields.find? (fun f => f.oddName.isNone && f.name = name)

/-- The first field whose name equals a value. -/
def fieldNamed? (t : Table) : Json → Option Field
  | .text name => t.field? name
  | v => t.fields.find? (fun f => f.oddName.isSome && Json.same f.nameValue v)

/-- The fields of one type. -/
def ofType (t : Table) (ft : FieldType) : List Field := t.fields.filter (fun f => f.type = ft)

/-- The fields that hold a day. -/
def dateFields (t : Table) : List Field := t.fields.filter (fun f => f.type.isDate)

/-- Writable text fields that are long enough to be worth searching. -/
def searchableFields (t : Table) : List Field :=
  t.fields.filter (fun f => f.type.isSearchable && !f.readOnly && decide (10 < f.maxLength))

/-- A table of which only the names of the fields are known: every field is plain text. -/
def textOnly (name : Text) (names : List Json) : Table := ⟨name, names.map Field.named⟩

end Table

end EncodedQuery

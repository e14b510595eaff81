/-
  EncodedQuery.Source.Dictionary
  ──────────────────────────────
  **THE FIELDS OF A TABLE, FROM ITS DICTIONARY.**

  The dictionary is itself a table.  Three queries are tried for the rows of a
  table; the first that finds any decides.  Each field is described by the first
  row that names it, and the values of a choice field are fetched from a table
  of their own.

  `loadTable` falls back on the names in the first record of the table when
  the dictionary gives nothing; then every field is plain text.
-/
import EncodedQuery.Field.Basic
import EncodedQuery.Source.Basic

namespace EncodedQuery

namespace Dictionary

/-! ## §1. Values of dictionary rows. -/

/-- The table of the dictionary. -/
def tableName : Text := "sys_dictionary"

/-- The table of the values of choice fields. -/
def choiceTableName : Text := "sys_choice"

/-- A row says yes. -/
def readFlag (t : Text) : Bool :=
  Text.isOneOf (Text.lower (Text.strip t)) ["true", "1", "yes"]

/-- A length; what is no number counts as zero, and an infinite number is out of range. -/
def readLength (t : Text) : Except Fault Int :=
  match Number.readReal? t with
  | none => .ok 0
  | some x => if x.isNaN then .ok 0 else (Json.real x).toInt

/-! ## §2. Requests. -/

/-- The columns of a row. -/
def columns : Text :=
  "element,column_label,internal_type,max_length,mandatory,read_only,reference,default_value," ++
    "comments"

/-- The columns asked for together with those of extension tables. -/
def extensionColumns : Text :=
  "element,column_label,internal_type,max_length,mandatory,read_only,reference,name"

/-- The requests for the rows of a table, in the order in which they are tried. -/
def requests (table : Text) : List Request :=
  let ask (query fields : Text) : Request :=
    { table := tableName, query := some query, limit := some "1000", fields := some fields }
  [ask ("name=" ++ table) columns,
   ask ("name.name=" ++ table) columns,
   ask ("name=" ++ table ++ "^ORnameSTARTSWITH" ++ table) extensionColumns]

/-- The request that shows whether the dictionary can be read at all. -/
def probe : Request :=
  { table := tableName, limit := some "5", fields := some "element,internal_type,name" }

/-- The request for the values of a choice field. -/
def choiceRequest (table field : Text) : Request :=
  { table := choiceTableName, query := some ("name=" ++ table ++ "^element=" ++ field),
    limit := some "100", fields := some "value,label" }

/-! ## §3. Rows. -/

/-- The first nonempty answer, or the last failure that did not end the search. -/
def firstAnswer (s : Source) : List Request → Option Fault → Calling (List Record × Option Fault)
  | [], failure => return ([], failure)
  | r :: rest, failure => do
      let answer ← try
          let records ← s.list r
          pure (Except.ok records)
        catch f =>
          match f with
          | .source .denied .. => throw f
          | .source .. => pure (Except.error f)
          | _ => throw f
      match answer with
      | .ok [] => firstAnswer s rest failure
      | .ok records => return (records, failure)
      | .error f => firstAnswer s rest (some f)

/-- The dictionary rows of a table. -/
def rows (s : Source) (table : Text) : Calling (List Record) := do
  match ← firstAnswer s (requests table) none with
  | ([], some failure) =>
      try
        let _ ← s.list probe
      catch f =>
        match f with
        | .source .notFound _ reason =>
            throw (.source .denied table ("sys_dictionary is not accessible: " ++ reason))
        | _ => throw f
      throw failure
  | (records, _) => return records

/-- The values of a choice field; none when they cannot be read. -/
def choices (s : Source) (table field : Text) : Calling (List Choice) := do
  let records ← try s.list (choiceRequest table field)
    catch f => if f.isSource then pure [] else throw f
  return records.map (fun r => Choice.of (r.shown "value") (r.shown "label"))

/-- The field that a row describes. -/
def fieldOfRow (s : Source) (table name : Text) (row : Record) : Calling Field := do
  let type := FieldType.ofInternalName (row.shown "internal_type")
  let choices ← if type = .choice then choices s table name else pure []
  let maxLength ← ExceptT.mk (pure (readLength (row.shown "max_length")))
  return {
    name
    label := row.shown "column_label"
    type
    maxLength
    mandatory := readFlag (row.shown "mandatory")
    readOnly := readFlag (row.shown "read_only")
    reference := row.shown "reference"
    choices
    defaultValue := row.shown "default_value"
    description := row.shown "comments" }

/-- The fields of the rows; a row without a name, or with a name in `seen`, is passed over. -/
def fieldsOfRows (s : Source) (table : Text) : List Text → List Record → Calling (List Field)
  | _, [] => return []
  | seen, row :: rest => do
      let name := row.shown "element"
      if name.isEmpty || Text.isOneOf name seen then fieldsOfRows s table seen rest
      else
        let field ← fieldOfRow s table name row
        return field :: (← fieldsOfRows s table (name :: seen) rest)

/-! ## §4. Tables. -/

/-- The table as the dictionary describes it; a table without fields is not there. -/
def load (s : Source) (table : Text) : Calling Table := do
  let fields ← fieldsOfRows s table [] (← rows s table)
  if fields.isEmpty then
    throw (.source .notFound table
      "no field metadata found; the table may not exist or sys_dictionary is not readable")
  return ⟨table, fields⟩

/-- The names in the first row of a table, in order; names without an order fail. -/
def sampledNames (s : Source) (table : Text) : Calling (List Json) := do
  let rows ← try s.listRows { table, limit := some "1" }
    catch f => if f.isSource then pure [] else throw f
  match rows with
  | [] => return []
  | r :: _ => ExceptT.mk (pure (Json.inOrder r.names))

end Dictionary

/-- The table as the dictionary describes it, or else with the fields of its first record. -/
def Source.loadTable (s : Source) (table : Text) : Calling Table := do
  try Dictionary.load s table
  catch f =>
    if f.isSource then return Table.textOnly table (← Dictionary.sampledNames s table)
    else throw f

end EncodedQuery

/-
  EncodedQuery.Shell.Program
  ──────────────────────────
  **THE PROGRAM.**

  `Program.run` is the whole program as an action: it reads the options that
  hold for every command, loads the settings, and carries out the command.

  Exit codes: 0 when a command did what it was asked for, 1 when the answer is
  no, and 2 when it was asked in a way that has no answer.
-/
import EncodedQuery.Reference.Picker
import EncodedQuery.Shell.Action
import EncodedQuery.Shell.Command
import EncodedQuery.Shell.Listing
import EncodedQuery.Shell.Store
import EncodedQuery.Source.Dictionary

namespace EncodedQuery

/-- What the program knows of the system that it runs on. -/
structure Host where
  /-- The home directory. -/
  home : Text
  /-- The path of a settings document that the environment names. -/
  named : Option Text := none
  /-- The most containers that may be open at one place of a document that is read, and the most
  directories that are made for one path. -/
  deepest : Nat

namespace Program

variable (host : Host)

/-! ## §1. Saying things. -/

/-- Says that something is wrong. -/
def complain (t : Text) : Action Unit := .display (.markedAs "red" ("❌ " ++ t))

/-- Says that something is wrong, and leaves. -/
def refuse {α : Type} (exit : Nat) (t : Text) : Action α := do
  complain t
  .leave exit

/-- Says that something went well. -/
def confirm (t : Text) : Action Unit := .display (.markedAs "green" t)

/-- Says something in passing. -/
def remark (t : Text) : Action Unit := .display (.markedAs "yellow" t)

/-- Shows a query, in which brackets are no marks. -/
def showQuery (query : Text) : Action Unit := .display (.plain query)

/-- Shows findings. -/
def showIssues (found : List Issue) : Action Unit :=
  if found.isEmpty then confirm "✅ No issues found" else .display (Listing.issues found)

/-- The text of an option, unless it is empty. -/
def filled (t : Option Text) : Option Text := t.filter (fun t => !t.isEmpty)

/-! ## §2. Records and conditions. -/

/-- The records of a file. -/
def openSource (path : Text) : Action Source := do
  let path ← .ofExcept (Settings.expandPath host.home path)
  match ← Action.tryFile path with
  | .error _ => refuse 2 "Cannot read data file"
  | .ok t => match Json.ofDocument t host.deepest with
    | .ok (.object tables) => return Source.ofTables tables
    | .error .tooDeep => .fail .tooDeep
    | _ => refuse 2 "Cannot read data file"

/-- The fields of a table of a source. -/
def tableOf (source : Source) (table : Text) : Action Table :=
  .ofExcept ((source.loadTable table).run.run []).1

/-- The failure lies in what was asked for, not in the form of a document. -/
def isComplaint : Fault → Bool
  | .badLiteral .. | .badQuery _ | .rejected .. | .source .. | .badValue _ | .missingMember
  | .malformedJson | .malformedSettings => true
  | _ => false

/-- The conditions of a document: a list, or the member of that name. -/
def conditionsOf : Json → Json
  | .object ms => (Json.lookup? "conditions" ms).getD (.list [])
  | v => v

/-- Shows the query of a document of conditions. -/
def compileDocument (table : Option Table) (strict : Bool) (document : Json) : Action Unit :=
  match Chain.ofJson (conditionsOf document) >>= Check.encode table strict with
  | .ok query => showQuery query
  | .error (.rejected message found) => do
      complain message
      showIssues found
      .leave 1
  | .error f =>
      if isComplaint f then refuse 2 ("Invalid condition list: " ++ f.message) else .fail f

/-- The text of a file of conditions. -/
def conditionsText (file : Text) : Action Text := do
  if file = "-" then Action.input
  else match ← Action.tryFile (← .ofExcept (Settings.expandPath host.home file)) with
    | .ok t => return t
    | .error .badCharacter => .fail (.file .badCharacter)
    | .error .unencodable => .fail (.file .unencodable)
    | .error _ => refuse 2 "Cannot read conditions"

/-- Carries out `compile`. -/
def compile (r : CompileRequest) : Action Unit := do
  match Json.ofDocument (← conditionsText host r.file) host.deepest with
  | .error .malformedJson => refuse 2 "Cannot read conditions"
  | .error f => .fail f
  | .ok document =>
      let table ← match r.data, filled r.table with
        | some path, some name => pure (some (← tableOf (← openSource host path) name))
        | _, _ => pure none
      compileDocument table r.strict document

/-! ## §3. Queries. -/

/-- Findings as JSON. -/
def verdictJson (v : Verdict) : Json :=
  let issue (i : Issue) : Json := .object
    [("severity", .text i.severity.name), ("message", .text i.message),
     ("suggestion", .text i.suggestion)]
  .object [("valid", .bool v.isValid), ("query", .text v.query),
    ("issues", .list (v.issues.map issue))]

/-- Carries out `validate`. -/
def validate (query : Text) (json : Bool) : Action Unit := do
  let v := Check.rawQuery query
  if json then showQuery (verdictJson v).compact
  else
    showIssues v.issues
    if v.isValid then confirm "✅ Query is valid" else complain "Query is invalid"
  if !v.isValid then .leave 1

/-- A result; a query that is malformed is refused. -/
def orRefused {α : Type} : Except Fault α → Action α
  | .error (.badQuery message) => refuse 1 message
  | x => .ofExcept x

/-- Carries out `parse`. -/
def parse (query : Text) : Action Unit := do
  .display (Listing.terms (← orRefused (Term.parse query)))

/-- Carries out `operators`. -/
def operators (type : Option Text) : Action Unit :=
  let types := match filled type with
    | some t => [FieldType.ofDescription (.text t)]
    | none => FieldType.all
  types.forM (fun t => .display (Listing.operators t))

/-- Carries out `presets`. -/
def presets : Action Unit := do
  .display (Listing.presets (← .ofExcept (Preset.all (← Action.now))))

/-! ## §4. Saved filters. -/

/-- The store at a path. -/
def storeAt (path : Text) : Store := ⟨path, host.deepest⟩

/-- Carries out `saved`. -/
def saved (settings : Settings) (search table delete : Option Text) : Action Unit := do
  let store := storeAt host (← .ofExcept (settings.savedFiltersFile host.home))
  match filled delete, filled search with
  | some id, _ =>
      if ← store.delete id then confirm ("Deleted " ++ id)
      else refuse 1 ("Saved filter not found: " ++ id)
  | none, search =>
      let found ← match search with
        | some t => store.search t table
        | none => store.list table
      if found.isEmpty then remark "No saved filters"
      else .display (← .ofExcept (Listing.savedFilters found))

/-! ## §5. Building. -/

/-- The fields to build from, and the records behind them. -/
def buildBasis (r : BuildRequest) : Action (Option Source × Table) := do
  match r.data, filled r.fields with
  | some path, _ =>
      let source ← openSource host path
      return (some source, ← tableOf source r.table)
  | none, some names => return (none, Table.textOnly r.table ((Source.fieldNames names).map .text))
  | none, none => refuse 2 "Provide --data or --fields"

/-- The conditions to start from. -/
def startingChain (r : BuildRequest) (table : Table) (store : Store) :
    Action (Option Chain) := do
  match filled r.load, filled r.saved with
  | some query, _ => return some (← orRefused (Chain.ofQuery (some table) query))
  | none, some id =>
      match ← store.markUsed id with
      | none => refuse 1 ("Saved filter not found: " ++ id)
      | some found => return some (← orRefused found.chain)
  | none, none => return none

/-- Shows the query of a builder that was left, and perhaps saves it. -/
def finishBuild (r : BuildRequest) (store : Store) (b : Builder) : Action Unit := do
  if b.cancelled then
    remark "Cancelled"
    .leave 1
  else if b.query.isEmpty then
    remark "No conditions"
    .leave 1
  else
    .display (.panel (.markedAs "bold" "Encoded query") none "green")
    showQuery b.query
    match filled r.save with
    | none => pure ()
    | some name =>
        let f ← store.save name r.table b.query [] b.conditions.toJson
        confirm ("💾 Saved as '" ++ name ++ "' (" ++ f.id ++ ")")

/-- Carries out `build`. -/
def build (settings : Settings) (r : BuildRequest) : Action Unit := do
  let (source, table) ← buildBasis host r
  if table.fields.isEmpty then refuse 1 ("No fields found for " ++ r.table)
  else
    let empty ← .ofExcept (Builder.create table settings (Builder.resolverOf settings source false)
      (← Action.now))
    let store := storeAt host (← .ofExcept (settings.savedFiltersFile host.home))
    let start := (← startingChain r table store).elim empty empty.setConditions
    let b ← orRefused (← Action.dialogue (Dialogue.new start settings))
    finishBuild r store b

/-! ## §6. Settings. -/

/-- The first of some files that is there. -/
def firstFile : List Text → Action (Option Text)
  | [] => pure none
  | path :: rest => do
      match ← Action.entry? path with
      | some .file => return some (← Action.file path)
      | _ => firstFile rest

/-- The settings, from a path that is asked for or that the environment names. -/
def loadSettings (asked : Option Text) : Action Settings := do
  let paths ← .ofExcept (Settings.searchPaths host.home asked host.named)
  .ofExcept (Settings.ofText ((← firstFile paths).getD Settings.defaultText) host.deepest)

/-- Carries out `init-config`. -/
def initConfig (path : Option Text) (force : Bool) : Action Unit := do
  let path ← .ofExcept (Settings.expandPath host.home (path.getD (Settings.homePath host.home)))
  if (← Action.entry? path).isSome && !force then
    remark ("Config already exists: " ++ path ++ " (use --force)")
    .leave 1
  else
    Action.makeDirectoryOf host.deepest path
    Action.change (.write path Settings.defaultText)
    confirm ("✅ Wrote " ++ (← .resolve path Action.ofDisk))

/-! ## §7. The whole. -/

/-- Carries out a command. -/
def carryOut (settings : Settings) : Command → Action Unit
  | .help => .usage true
  | .build r => build host settings r
  | .compile r => compile host r
  | .validate query json => validate query json
  | .parse query => parse query
  | .operators type => operators type
  | .presets => presets
  | .saved search table delete => saved host settings search table delete
  | .initConfig path force => initConfig host path force

/-- What follows when no command has that name: `word` and the arguments behind it may still be
options that hold for every command, with the question how the program is used among them. -/
def unknownCommand (word : Text) (rest : List Text) : Action Unit :=
  .usage ((Arguments.read Command.commonOptions false (word :: rest)).any (fun a => a.has "help"))

/-- The program with its arguments. -/
def run (args : List Text) : Action Unit := do
  match Arguments.read Command.commonOptions false args with
  | none => .usage false
  | some common =>
      if common.has "help" then .usage true
      else if !common.hasPaths Command.commonOptions then .usage false
      else match common.rest with
        | [] => .usage false
        | word :: rest =>
            match CommandName.ofText? word with
            | none => unknownCommand word rest
            | some name =>
                let settings ← loadSettings host (common.value? "config")
                match Command.read? name rest with
                | none => .usage false
                | some command => carryOut host settings command

end Program

end EncodedQuery

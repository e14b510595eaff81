/-
  EncodedQuery.Shell.Command
  ──────────────────────────
  **THE COMMANDS.**

  What can be asked of the program, and how it is written: options that hold for
  every command, the name of a command, and its own options and arguments.
  `Command.read?` gives the command that the arguments behind a name ask for.
-/
import EncodedQuery.Shell.Options

namespace EncodedQuery

/-! ## §1. Names. -/

/-- The name of a command. -/
inductive CommandName where
  /-- Builds a filter in a dialogue. -/
  | build
  /-- Writes the query of conditions. -/
  | compile
  /-- Checks a query. -/
  | validate
  /-- Shows the terms of a query. -/
  | parse
  /-- Shows the operators. -/
  | operators
  /-- Shows the ranges with a name. -/
  | presets
  /-- Shows or deletes saved filters. -/
  | saved
  /-- Writes the default settings. -/
  | initConfig
  deriving DecidableEq, Repr

namespace CommandName

/-- All commands. -/
def all : List CommandName :=
  [build, compile, validate, parse, operators, presets, saved, initConfig]

/-- How a command is written. -/
def text : CommandName → Text
  | build => "build"
  | compile => "compile"
  | validate => "validate"
  | parse => "parse"
  | operators => "operators"
  | presets => "presets"
  | saved => "saved"
  | initConfig => "init-config"

/-- The command that is written so. -/
def ofText? (t : Text) : Option CommandName := all.find? (fun n => n.text = t)

end CommandName

/-! ## §2. Commands. -/

/-- What a filter is built from. -/
structure BuildRequest where
  /-- The table. -/
  table : Text
  /-- A file of records. -/
  data : Option Text := none
  /-- Names of fields. -/
  fields : Option Text := none
  /-- A query to start from. -/
  load : Option Text := none
  /-- The identifier of a saved filter to start from. -/
  saved : Option Text := none
  /-- The name to save the filter under. -/
  save : Option Text := none
  deriving DecidableEq, Repr

/-- What a query is written from. -/
structure CompileRequest where
  /-- A file of conditions; a hyphen is the input. -/
  file : Text
  /-- Conditions with errors are refused. -/
  strict : Bool := false
  /-- The table. -/
  table : Option Text := none
  /-- A file of records. -/
  data : Option Text := none
  deriving DecidableEq, Repr

/-- What is asked of the program. -/
inductive Command where
  /-- How the command is used. -/
  | help
  /-- Build a filter. -/
  | build (r : BuildRequest)
  /-- Write the query of conditions. -/
  | compile (r : CompileRequest)
  /-- Check a query, and perhaps give the findings as JSON. -/
  | validate (query : Text) (json : Bool)
  /-- Show the terms of a query. -/
  | parse (query : Text)
  /-- Show the operators of a type, or of all types. -/
  | operators (type : Option Text)
  /-- Show the ranges with a name. -/
  | presets
  /-- Show the saved filters, or delete one. -/
  | saved (search table delete : Option Text)
  /-- Write the default settings to a path, perhaps over a file. -/
  | initConfig (path : Option Text) (force : Bool)
  deriving DecidableEq, Repr

namespace Command

/-- An option with a value. -/
def valueOption (key : Text) (spellings : List Text) : OptionSpec := ⟨key, spellings, true, false⟩

/-- An option whose value is the path of a file. -/
def pathOption (key : Text) (spellings : List Text) : OptionSpec := ⟨key, spellings, true, true⟩

/-- An option without a value. -/
def flagOption (key : Text) (spellings : List Text) : OptionSpec := ⟨key, spellings, false, false⟩

/-- The option that asks how a command is used. -/
def helpOption : OptionSpec := flagOption "help" ["--help"]

/-- The option that names a file of records. -/
def dataOption : OptionSpec := pathOption "data" ["--data", "-d"]

/-- The options that hold for every command. -/
def commonOptions : List OptionSpec :=
  [pathOption "config" ["--config", "-c"], flagOption "verbose" ["-v", "--verbose"], helpOption]

/-- The options of a command. -/
def optionsOf : CommandName → List OptionSpec
  | .build =>
      [dataOption, valueOption "fields" ["--fields"], valueOption "load" ["--load"],
       valueOption "saved" ["--saved"], valueOption "save" ["--save"], helpOption]
  | .compile =>
      [flagOption "strict" ["--strict"], valueOption "table" ["--table", "-t"], dataOption,
       helpOption]
  | .validate => [flagOption "json" ["--json"], helpOption]
  | .saved =>
      [valueOption "table" ["--table", "-t"], valueOption "delete" ["--delete"], helpOption]
  | .initConfig => [flagOption "force" ["--force", "-f"], helpOption]
  | .parse | .operators | .presets => [helpOption]

/-- The command with these arguments; `none` when there are too many or too few of them, or when
one of them cannot be the path that it has to be. -/
def ofArguments? (name : CommandName) (a : Arguments) : Option Command :=
  if a.has "help" then some help
  else if !a.hasPaths (optionsOf name) then none
  else match name, a.rest with
    | .build, [table] =>
        some (build { table, data := a.value? "data", fields := a.value? "fields",
                      load := a.value? "load", saved := a.value? "saved",
                      save := a.value? "save" })
    | .compile, [file] =>
        some (compile { file, strict := a.has "strict", table := a.value? "table",
                        data := a.value? "data" })
    | .validate, [query] => some (validate query (a.has "json"))
    | .parse, [query] => some (parse query)
    | .operators, [] => some (operators none)
    | .operators, [type] => some (operators (some type))
    | .presets, [] => some presets
    | .saved, [] => some (saved none (a.value? "table") (a.value? "delete"))
    | .saved, [search] => some (saved (some search) (a.value? "table") (a.value? "delete"))
    | .initConfig, [] => some (initConfig none (a.has "force"))
    | .initConfig, [path] =>
        if Arguments.isPathText path then some (initConfig (some path) (a.has "force")) else none
    | _, _ => none

/-- The command that the arguments behind a name ask for. -/
def read? (name : CommandName) (args : List Text) : Option Command :=
  (Arguments.read (optionsOf name) true args).bind (ofArguments? name)

end Command

end EncodedQuery

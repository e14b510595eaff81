/-
  EncodedQuery.Shell.Action
  ─────────────────────────
  **WHAT A COMMAND DOES.**

  A command is a tree of the things that it asks of its surroundings, each
  with what follows for every answer.  The surroundings are not part of it: a
  terminal can answer, or a `Desk`, which holds a screen, a disk, input and clock
  as values.  `Action.performOn` is what becomes of it there; a view that its screen
  cannot show ends the command.
-/
import EncodedQuery.Shell.Dialogue
import EncodedQuery.Shell.Disk

namespace EncodedQuery

/-! ## §1. Actions. -/

/-- What a command does up to a result. -/
inductive Action (α : Type) : Type where
  /-- It is done. -/
  | done (a : α)
  /-- It ends early, with an exit code. -/
  | leave (exit : Nat)
  /-- It says how it is used, because that was asked for or because it was not understood. -/
  | usage (asked : Bool)
  /-- It fails. -/
  | fail (f : Fault)
  /-- It shows something. -/
  | print (v : View) (next : Action α)
  /-- It asks what is at a path. -/
  | look (path : Text) (next : Except FileFault Entry → Action α)
  /-- It reads a file. -/
  | readFile (path : Text) (next : Except FileFault Text → Action α)
  /-- It asks for the shortest path to where a path leads. -/
  | resolve (path : Text) (next : Except FileFault Text → Action α)
  /-- It changes the disk. -/
  | changeDisk (c : Disk.Change) (next : Except FileFault Unit → Action α)
  /-- It reads all of the input. -/
  | readInput (next : Text → Action α)
  /-- It looks at the clock. -/
  | lookAtClock (next : Instant → Action α)
  /-- It leads a dialogue. -/
  | converse (d : Dialogue) (next : Except Fault Builder → Action α)

namespace Action

variable {α β : Type}

/-- One action behind another. -/
def bind : Action α → (α → Action β) → Action β
  | done a, f => f a
  | leave n, _ => leave n
  | usage asked, _ => usage asked
  | fail x, _ => fail x
  | print v next, f => print v (next.bind f)
  | look path next, f => look path (fun e => (next e).bind f)
  | readFile path next, f => readFile path (fun t => (next t).bind f)
  | resolve path next, f => resolve path (fun t => (next t).bind f)
  | changeDisk c next, f => changeDisk c (fun r => (next r).bind f)
  | readInput next, f => readInput (fun t => (next t).bind f)
  | lookAtClock next, f => lookAtClock (fun t => (next t).bind f)
  | converse d next, f => converse d (fun b => (next b).bind f)

instance : Monad Action where
  pure := done
  bind := bind

/-- Shows something. -/
def display (v : View) : Action Unit := print v (done ())

/-- All of the input. -/
def input : Action Text := readInput done

/-- The clock. -/
def now : Action Instant := lookAtClock done

/-- A dialogue up to its end. -/
def dialogue (d : Dialogue) : Action (Except Fault Builder) := converse d done

/-- A result, or a failure. -/
def ofExcept : Except Fault α → Action α
  | .ok a => done a
  | .error f => fail f

/-- A result of the disk, or a failure. -/
def ofDisk : Except FileFault α → Action α
  | .ok a => done a
  | .error f => fail (.file f)

/-- What is at a path, if anything; a path that no file can have leads to nothing. -/
def entry? (path : Text) : Action (Option Entry) :=
  look path (fun
    | .ok e => done (some e)
    | .error .missing | .error .notDirectory => done none
    | .error .badCharacter | .error .unencodable => done none
    | .error f => fail (.file f))

/-- Changes the disk. -/
def change (c : Disk.Change) : Action Unit := changeDisk c ofDisk

/-- The content of a file. -/
def file (path : Text) : Action Text := readFile path ofDisk

/-- The content of a file, or why it cannot be read. -/
def tryFile (path : Text) : Action (Except FileFault Text) := readFile path done

/-- Makes a directory, unless it is there; `fallback` is what follows when the one above it is
missing. -/
def makeDirectory (path : Text) (fallback : Action Unit) : Action Unit :=
  changeDisk (.makeDirectory path) (fun
    | .ok () => done ()
    | .error .missing => fallback
    | .error f => do
        match ← entry? path with
        | some .directory => done ()
        | _ => fail (.file f))

/-- Makes a directory and all that are missing above it, but no more than a number of them; the
names of its path behind the root come last one first. -/
def makeDirectories (root : Text) : Nat → List Text → Action Unit
  | 0, _ => fail .tooDeep
  | _ + 1, [] => makeDirectory (Settings.pathOf root []) (fail (.file .missing))
  | most + 1, name :: above =>
      let path := Settings.pathOf root (name :: above).reverse
      makeDirectory path (do
        makeDirectories root most above
        makeDirectory path (fail (.file .missing)))

/-- Makes the directory that a path lies in, and at most `most` directories in all. -/
def makeDirectoryOf (most : Nat) (path : Text) : Action Unit :=
  makeDirectories (Settings.pathRoot path) most ((Settings.pathParts path).reverse.drop 1)

/-! ## §2. Desks. -/

end Action

/-- Surroundings that are all values. -/
structure Desk where
  /-- What views are shown on. -/
  screen : Screen
  /-- The files and directories. -/
  disk : Disk := {}
  /-- The clock, which stands still during a command. -/
  now : Instant
  /-- The input. -/
  input : Text := []

/-- The lines of the input; an end of line at the end begins no line. -/
def Desk.lines (desk : Desk) : List Text :=
  let pieces := Text.cut '\n' (Text.withLineFeeds desk.input)
  if pieces.getLast? = some [] then pieces.dropLast else pieces

/-- How an action ends. -/
inductive Ending (α : Type) where
  /-- It comes to a result. -/
  | result (a : α)
  /-- It leaves with an exit code. -/
  | exit (code : Nat)
  /-- It says how it is used. -/
  | usage (asked : Bool)
  /-- It fails. -/
  | failure (f : Fault)

/-- What became of an action. -/
structure Performance (α : Type) where
  /-- What it showed. -/
  printed : List View := []
  /-- How it ended. -/
  ending : Ending α
  /-- The desk that it left. -/
  desk : Desk

/-- The same with something shown before. -/
def Performance.after {α : Type} (views : List View) (p : Performance α) : Performance α :=
  { p with printed := views ++ p.printed }

/-- Carries an action out on a desk. -/
def Action.performOn {α : Type} (desk : Desk) : Action α → Performance α
  | done a => { ending := .result a, desk }
  | leave n => { ending := .exit n, desk }
  | usage asked => { ending := .usage asked, desk }
  | fail f => { ending := .failure f, desk }
  | print v next =>
      match desk.screen.shows v with
      | .error f => { ending := .failure f, desk }
      | .ok _ => (next.performOn desk).after [v]
  | look path next => (next (desk.disk.look path)).performOn desk
  | readFile path next => (next (desk.disk.read path)).performOn desk
  | resolve path next => (next (desk.disk.resolve path)).performOn desk
  | changeDisk c next =>
      match desk.disk.apply c with
      | .ok disk => (next (.ok ())).performOn { desk with disk }
      | .error f => (next (.error f)).performOn desk
  | readInput next => (next desk.input).performOn { desk with input := [] }
  | lookAtClock next => (next desk.now).performOn desk
  | converse d next =>
      let (views, result) := d.run desk.now desk.lines
      match desk.screen.showsAll views with
      | (shown, some f) => { printed := shown, ending := .failure f, desk }
      | (shown, none) => ((next result).performOn desk).after shown

/-- How a command ended. -/
structure Report where
  /-- What it showed. -/
  printed : List View := []
  /-- The exit code. -/
  exit : Nat := 0
  /-- The failure that nobody took care of. -/
  fault : Option Fault := none

/-- What is reported of a command that showed these views. -/
def Ending.report {α : Type} (printed : List View) : Ending α → Report
  | result _ => { printed }
  | exit n => { printed, exit := n }
  | usage asked => { printed, exit := if asked then 0 else 2 }
  | failure f => { printed, exit := 1, fault := some f }

/-- The report of a command on a desk, and the desk that it leaves. -/
def Action.runOn {α : Type} (desk : Desk) (x : Action α) : Report × Desk :=
  let p := x.performOn desk
  (p.ending.report p.printed, p.desk)

end EncodedQuery

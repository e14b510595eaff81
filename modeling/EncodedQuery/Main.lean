/-
  EncodedQuery.Main
  ─────────────────
  **THE PROGRAM ON A TERMINAL.**

  Carries out the actions of the program: files are files, the clock is the
  clock of the machine, and views are printed as lines.
-/
import EncodedQuery.Screen.Lines
import EncodedQuery.Shell.Program
import Std.Time.DateTime.Timestamp

namespace EncodedQuery.Terminal

/-! ## §1. Surroundings. -/

/-- The string of a text; half of a surrogate pair is not encoded. -/
def stringOf (t : Text) : IO String :=
  match t.string? with
  | some s => return s
  | none => throw (IO.userError "surrogates not allowed")

/-- Shows a view; gives why it cannot be shown. -/
def display (v : View) : IO (Option Fault) := do
  match Screen.terminal.shows v with
  | .error f => return some f
  | .ok t =>
      IO.print (← stringOf t)
      return none

/-- What an error of the system says about a file. -/
def faultOf : IO.Error → FileFault
  | .noFileOrDirectory .. => .missing
  | .alreadyExists .. => .taken
  | .inappropriateType _ code _ => if code = 21 then .isDirectory else .notDirectory
  | _ => .refused

/-- A result, or what its error says about a file. -/
def attempt {α : Type} (x : IO α) : IO (Except FileFault α) := do
  try return .ok (← x)
  catch e => return .error (faultOf e)

/-- The content of a file. -/
def readFile (path : Text) : IO Text := do
  return Text.ofString (← IO.FS.readFile (← stringOf path))

/-- What is at a path: all that can be opened is there, and what then cannot be read is a
directory. -/
def look (path : Text) : IO Entry := do
  let h ← IO.FS.Handle.mk (← stringOf path) .read
  try
    let _ ← h.read 1
    return .file
  catch _ => return .directory

/-- Changes the disk. -/
def apply : Disk.Change → IO Unit
  | .write path content => do IO.FS.writeFile (← stringOf path) (← stringOf content)
  | .makeDirectory path => do IO.FS.createDir (← stringOf path)
  | .move source target => do IO.FS.rename (← stringOf source) (← stringOf target)

/-- The clock. -/
def now : IO Instant := do
  let seconds := (← Std.Time.Timestamp.now).toSecondsSinceUnixEpoch.val
  match Instant.ofEpochSeconds? seconds with
  | some t => return t
  | none => throw (IO.userError "the clock is out of range")

/-! ## §2. Actions. -/

/-- Leads a dialogue until the builder is left or the input ends. -/
partial def lead (d : Dialogue) : IO (Except Fault Builder) := do
  if !d.builder.active then return .ok d.builder
  match d.builder.view (← now) with
  | .error f => return .error f
  | .ok v =>
      if let some f := ← display v then return .error f
      IO.print "keys: "
      (← IO.getStdout).flush
      let line ← (← IO.getStdin).getLine
      if line.isEmpty then return .ok d.builder
      match d.line (← now) (Text.ofString line) with
      | .error f => return .error f
      | .ok d => lead d

/-- How the program is used. -/
def usageText : String :=
  "usage: encodedquery [-c FILE] [-v] COMMAND

  build TABLE [-d FILE] [--fields NAMES] [--load QUERY] [--saved ID] [--save NAME]
  compile FILE [--strict] [-t TABLE] [-d FILE]
  validate QUERY [--json]
  parse QUERY
  operators [TYPE]
  presets
  saved [TEXT] [-t TABLE] [--delete ID]
  init-config [FILE] [-f]"

/-- Says why a command failed, and gives the exit code of a failure. -/
def breakOff (f : Fault) : IO UInt32 := do
  let message ← stringOf f.message
  IO.eprintln (if message.isEmpty then "the command failed" else message)
  return 1

/-- Carries out an action, and gives its exit code. -/
def perform : Action Unit → IO UInt32
  | .done _ => return 0
  | .leave n => return UInt32.ofNat n
  | .usage asked => do
      if asked then IO.println usageText else IO.eprintln usageText
      return if asked then 0 else 2
  | .fail f => breakOff f
  | .print v next => do
      match ← display v with
      | some f => breakOff f
      | none => perform next
  | .look path next => do perform (next (← attempt (look path)))
  | .readFile path next => do perform (next (← attempt (readFile path)))
  | .resolve path next => do
      let resolved : IO Text := do
        return Text.ofString (toString (← IO.FS.realPath (← stringOf path)))
      perform (next (← attempt resolved))
  | .changeDisk c next => do perform (next (← attempt (apply c)))
  | .readInput next => do perform (next (Text.ofString (← (← IO.getStdin).readToEnd)))
  | .lookAtClock next => do perform (next (← now))
  | .converse d next => do perform (next (← lead d))

end EncodedQuery.Terminal

/-- The program.  Documents may nest as deeply as nobody writes them. -/
def main (args : List String) : IO UInt32 := do
  let host : EncodedQuery.Host :=
    { home := EncodedQuery.Text.ofString ((← IO.getEnv "HOME").getD "")
      named := (← IO.getEnv "SNQUERY_CONFIG").map EncodedQuery.Text.ofString
      deepest := 1000 }
  EncodedQuery.Terminal.perform
    (EncodedQuery.Program.run host (args.map EncodedQuery.Text.ofString))

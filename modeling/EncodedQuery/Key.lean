/-
  EncodedQuery.Key
  ────────────────
  **KEYS.**

  A key is a named key, a letter held down with control, or a character.
  `Key.ofName` reads a key by its name; a name that means nothing is kept, so
  that every name gives a key, and `name` gives it back.

  A line of input stands for a row of keys: an empty line is Enter, a line
  behind a colon lists keys by name, and any other line is typed as it stands.
-/
import EncodedQuery.Text.Blank
import EncodedQuery.Text.Case
import EncodedQuery.Text.Digit
import EncodedQuery.Text.Printable

namespace EncodedQuery

/-- A key. -/
inductive Key where
  /-- Enter. -/
  | enter
  /-- Escape. -/
  | esc
  /-- Tabulator. -/
  | tab
  /-- Tabulator with shift. -/
  | shiftTab
  /-- Delete to the left. -/
  | backspace
  /-- Delete to the right. -/
  | delete
  /-- Cursor up. -/
  | up
  /-- Cursor down. -/
  | down
  /-- Cursor left. -/
  | left
  /-- Cursor right. -/
  | right
  /-- To the start. -/
  | home
  /-- To the end. -/
  | «end»
  /-- A page up. -/
  | pageUp
  /-- A page down. -/
  | pageDown
  /-- A character with control. -/
  | ctrl (c : CodePoint)
  /-- A character. -/
  | char (c : CodePoint)
  /-- Anything else, by its name. -/
  | other (name : Text)
  deriving DecidableEq, Repr

namespace Key

/-! ## §1. Names. -/

/-- The keys with a name of their own. -/
def named : List (Text × Key) :=
  [("enter", enter), ("esc", esc), ("tab", tab), ("shift+tab", shiftTab),
   ("backspace", backspace), ("delete", delete), ("up", up), ("down", down), ("left", left),
   ("right", right), ("home", home), ("end", «end»), ("pgup", pageUp), ("pgdown", pageDown)]

/-- The key of this name. -/
def ofName (t : Text) : Key :=
  match named.find? (fun e => e.1 = t) with
  | some (_, k) => k
  | none =>
      match t with
      | [c] => char c
      | ['c', 't', 'r', 'l', '+', c] => ctrl c
      | _ => other t

/-- The name of a key. -/
def name : Key → Text
  | enter => "enter"
  | esc => "esc"
  | tab => "tab"
  | shiftTab => "shift+tab"
  | backspace => "backspace"
  | delete => "delete"
  | up => "up"
  | down => "down"
  | left => "left"
  | right => "right"
  | home => "home"
  | «end» => "end"
  | pageUp => "pgup"
  | pageDown => "pgdown"
  | ctrl c => "ctrl+" ++ [c]
  | char c => [c]
  | other t => t

/-! ## §2. Classes. -/

/-- The character that the key types. -/
def typed? : Key → Option CodePoint
  | char c => if Text.isPrintable c then some c else none
  | _ => none

/-- The key types a character. -/
def isPrintable (k : Key) : Bool := k.typed?.isSome

/-- The digit that the key types. -/
def digit? : Key → Option Nat
  | char c => Text.asciiDigitValue? c
  | _ => none

/-- The key types a digit. -/
def isDigit (k : Key) : Bool := k.digit?.isSome

/-! ## §3. Lines of input. -/

/-- Further names of keys. -/
def otherNames : List (Text × Key) :=
  [("escape", esc), ("return", enter), ("space", char ' '), ("bs", backspace), ("del", delete),
   ("pageup", pageUp), ("pagedown", pageDown)]

/-- The key that a typed name means: names in any case, single characters as they are. -/
def ofTypedName (t : Text) : Key :=
  let stripped := Text.strip t
  let lowered := Text.lower stripped
  match otherNames.find? (fun e => e.1 = lowered) with
  | some (_, k) => k
  | none =>
      if (named.any (fun e => e.1 = lowered)) || Text.startsWith lowered "ctrl+" then ofName lowered
      else ofName stripped

/-- The keys that a line of input stands for. -/
def ofLine : Text → List Key
  | [] => [enter]
  | ':' :: names => (Text.words names).map ofTypedName
  | t => t.map (fun c => char c)

end Key

end EncodedQuery

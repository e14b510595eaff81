/-
  EncodedQuery.Instant.Pattern
  ────────────────────────────
  **READING INSTANTS BY PATTERN.**

  A pattern is a list of parts: numbers of the calendar and clock, blanks,
  and literal characters.  Each part offers its readings of the text in front
  of it, longest form first, and the first choice of readings that suits all
  parts is taken; whatever text is left over then is an error.

  A number may have one digit where two are usual, except the year, which has
  four.  Letters match in either case.

  `Pattern.accepted` are the forms of a date value, `Pattern.rangeInput` those
  of the two range fields.
-/
import EncodedQuery.Fault
import EncodedQuery.Instant.Basic
import EncodedQuery.Text.Blank
import EncodedQuery.Text.Case
import EncodedQuery.Text.Digit

namespace EncodedQuery

/-! ## §1. Patterns. -/

/-- One part of a pattern. -/
inductive PatternPart where
  /-- A year in four digits. -/
  | year
  /-- A month, 1 to 12. -/
  | month
  /-- A day of the month, 1 to 31. -/
  | day
  /-- An hour, 0 to 23. -/
  | hour
  /-- A minute, 0 to 59. -/
  | minute
  /-- A second, 0 to 61. -/
  | second
  /-- One or more blanks. -/
  | blanks
  /-- A literal character. -/
  | char (c : CodePoint)
  deriving DecidableEq, Repr

/-- The parts of a pattern, in order. -/
abbrev Pattern := List PatternPart

/-- How a part is written. -/
def PatternPart.name : PatternPart → Text
  | .year => "%Y"
  | .month => "%m"
  | .day => "%d"
  | .hour => "%H"
  | .minute => "%M"
  | .second => "%S"
  | .blanks => " "
  | .char c => [c]

namespace Pattern

/-- How a pattern is written. -/
def name (p : Pattern) : Text := p.flatMap PatternPart.name

/-- Year, month, day. -/
def day : Pattern := [.year, .char '-', .month, .char '-', .day]

/-- Hour, minute, second. -/
def time : Pattern := [.hour, .char ':', .minute, .char ':', .second]

/-- Month, day, year between slashes. -/
def slashed : Pattern := [.month, .char '/', .day, .char '/', .year]

/-- The form that the backend uses. -/
def backend : Pattern := day ++ [.blanks] ++ time

/-- The forms of a date or date-time value, in the order in which they are tried. -/
def accepted : List Pattern :=
  [day, backend, [.month, .char '-', .day, .char '-', .year], slashed,
   day ++ [.char 'T'] ++ time ++ [.char 'Z']]

/-- The forms of a typed end of a range, in the order in which they are tried. -/
def rangeInput : List Pattern := [backend, day, slashed, slashed ++ [.blanks] ++ time]

end Pattern

/-! ## §2. Readings of one part. -/

/-- The numbers read so far. -/
structure Reading where
  /-- The year. -/
  year : Nat := 1900
  /-- The month. -/
  month : Nat := 1
  /-- The day of the month. -/
  day : Nat := 1
  /-- The hour. -/
  hour : Nat := 0
  /-- The minute. -/
  minute : Nat := 0
  /-- The second. -/
  second : Nat := 0
  deriving DecidableEq, Repr

/-- A digit between the ASCII digits `lo` and `hi`. -/
def digitBetween (lo hi : CodePoint) (c : CodePoint) : Option Nat :=
  if lo ≤ c ∧ c ≤ hi then some (c.toNat - 48) else none

/-- Two digits in front, the first by `tens`, the second by `ones`. -/
def twoDigitForm (tens ones : CodePoint → Option Nat) : Text → List (Nat × Text)
  | a :: b :: rest =>
      match tens a, ones b with
      | some x, some y => [(10 * x + y, rest)]
      | _, _ => []
  | _ => []

/-- One digit in front. -/
def oneDigitForm (ones : CodePoint → Option Nat) : Text → List (Nat × Text)
  | a :: rest =>
      match ones a with
      | some x => [(x, rest)]
      | none => []
  | [] => []

/-- Four digits in front, of any script. -/
def fourDigitForm : Text → List (Nat × Text)
  | a :: b :: c :: d :: rest =>
      match Text.digitValue? a, Text.digitValue? b, Text.digitValue? c, Text.digitValue? d with
      | some w, some x, some y, some z => [(1000 * w + 100 * x + 10 * y + z, rest)]
      | _, _, _, _ => []
  | _ => []

/-- The rests behind one or more blanks, most blanks first. -/
def blankForms : Text → List Text
  | [] => []
  | c :: rest => if Text.isBlank c then blankForms rest ++ [rest] else []

/-- The readings of a part that is a number, in the order in which they are tried. -/
def PatternPart.numbers : PatternPart → Text → List (Nat × Text)
  | .year, t => fourDigitForm t
  | .month, t =>
      twoDigitForm (digitBetween '1' '1') (digitBetween '0' '2') t
        ++ twoDigitForm (digitBetween '0' '0') (digitBetween '1' '9') t
        ++ oneDigitForm (digitBetween '1' '9') t
  | .day, t =>
      twoDigitForm (digitBetween '3' '3') (digitBetween '0' '1') t
        ++ twoDigitForm (digitBetween '1' '2') Text.digitValue? t
        ++ twoDigitForm (digitBetween '0' '0') (digitBetween '1' '9') t
        ++ oneDigitForm (digitBetween '1' '9') t
        ++ (match t with
            | ' ' :: rest => oneDigitForm (digitBetween '1' '9') rest
            | _ => [])
  | .hour, t =>
      twoDigitForm (digitBetween '2' '2') (digitBetween '0' '3') t
        ++ twoDigitForm (digitBetween '0' '1') Text.digitValue? t
        ++ oneDigitForm Text.digitValue? t
  | .minute, t =>
      twoDigitForm (digitBetween '0' '5') Text.digitValue? t ++ oneDigitForm Text.digitValue? t
  | .second, t =>
      twoDigitForm (digitBetween '6' '6') (digitBetween '0' '1') t
        ++ twoDigitForm (digitBetween '0' '5') Text.digitValue? t
        ++ oneDigitForm Text.digitValue? t
  | _, _ => []

/-- All readings of one part. -/
def PatternPart.readings (p : PatternPart) (r : Reading) (t : Text) : List (Reading × Text) :=
  match p with
  | .year => (p.numbers t).map (fun (n, rest) => ({ r with year := n }, rest))
  | .month => (p.numbers t).map (fun (n, rest) => ({ r with month := n }, rest))
  | .day => (p.numbers t).map (fun (n, rest) => ({ r with day := n }, rest))
  | .hour => (p.numbers t).map (fun (n, rest) => ({ r with hour := n }, rest))
  | .minute => (p.numbers t).map (fun (n, rest) => ({ r with minute := n }, rest))
  | .second => (p.numbers t).map (fun (n, rest) => ({ r with second := n }, rest))
  | .blanks => (blankForms t).map (fun rest => (r, rest))
  | .char c =>
      match t with
      | d :: rest => if Text.sameLetter c d then [(r, rest)] else []
      | [] => []

/-! ## §3. Reading by a whole pattern. -/

/-- The instant with the numbers of a reading. -/
def Reading.instant (r : Reading) : Except Fault Instant :=
  match Date.of? r.year r.month r.day with
  | none =>
      .error (.badValue (if r.year = 0 then "year 0 is out of range"
        else "day is out of range for month"))
  | some d =>
      match Instant.of? d r.hour r.minute r.second 0 with
      | some t => .ok t
      | none => .error (.badValue "second must be in 0..59")

namespace Pattern

/-- The first choice of readings that suits all parts, and the text left over. -/
def scan? : Pattern → Reading → Text → Option (Reading × Text)
  | [], r, t => some (r, t)
  | p :: ps, r, t => (p.readings r t).findSome? (fun (r', rest) => scan? ps r' rest)

/-- The instant that `t` writes in the form `p`. -/
def read (p : Pattern) (t : Text) : Except Fault Instant :=
  match p.scan? {} t with
  | none =>
      .error (.badValue ("time data " ++ Text.quoted t ++ " does not match format "
        ++ Text.quoted p.name))
  | some (r, []) => r.instant
  | some (_, rest) => .error (.badValue ("unconverted data remains: " ++ rest))

end Pattern

namespace Instant

/-- The instant that the stripped text writes in the first form that fits. -/
def read (forms : List Pattern) (t : Text) : Except Fault Instant :=
  match forms.findSome? (fun p => (p.read (Text.strip t)).toOption) with
  | some instant => .ok instant
  | none => .error (.badLiteral t "date")

/-- The text is a date value. -/
def isDateText (t : Text) : Bool := (read Pattern.accepted t).toBool

end Instant

end EncodedQuery

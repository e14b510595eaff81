/-
  EncodedQuery.Settings.Quoted
  ────────────────────────────
  **STRINGS IN SETTINGS DOCUMENTS.**

  A string stands between quotation marks, with escapes, or between
  apostrophes, as it is.  With one mark at each end it ends on its line; with
  three it may go over several lines, and a line end right behind the opening
  marks does not belong to it.

  Every reader here starts behind the opening marks and gives the string and
  the text behind the closing ones.
-/
import EncodedQuery.Json.Reader

namespace EncodedQuery.Settings

/-! ## §1. Characters. -/

/-- A blank within a line. -/
def isSpace (c : CodePoint) : Bool := c = ' ' ∨ c = '\t'

/-- The text without blanks in front. -/
def skipSpace (t : Text) : Text := t.dropWhile isSpace

/-- A character that may stand in a comment, or in a string as it is: no control character but the
tab. -/
def isPlain (c : CodePoint) : Bool := c = '\t' || (32 ≤ c.toNat && c.toNat != 127)

/-- The character of a number, if it is the number of one. -/
def charOf? (n : Nat) : Option CodePoint := if n.isValidChar then some (CodePoint.ofNat n) else none

/-- The character that an escape of one letter stands for. -/
def escapeLetter? (c : CodePoint) : Option CodePoint :=
  if c = '/' then none else Json.escapeLetter? c

/-- The character of an escape behind its backslash, and the rest: a letter, or four or eight
hexadecimal digits behind one. -/
def escape? : Text → Option (CodePoint × Text)
  | 'u' :: rest => do
      let (n, rest) ← Json.hexUnit? rest
      return (← charOf? n, rest)
  | 'U' :: rest => do
      let (high, rest) ← Json.hexUnit? rest
      let (low, rest) ← Json.hexUnit? rest
      return (← charOf? (high * 0x10000 + low), rest)
  | c :: rest => do return (← escapeLetter? c, rest)
  | [] => none

/-! ## §2. Strings on one line. -/

/-- A string with escapes; every step uses up at least one character, so `fuel` is the length of
the text. -/
def stringBody? : Nat → Text → Option (Text × Text)
  | 0, _ => none
  | fuel + 1, t =>
    match t with
    | '"' :: rest => some ([], rest)
    | '\\' :: rest => do
        let (c, rest) ← escape? rest
        let (body, rest) ← stringBody? fuel rest
        return (c :: body, rest)
    | c :: rest =>
        if isPlain c then do
          let (body, rest) ← stringBody? fuel rest
          return (c :: body, rest)
        else none
    | [] => none

/-- A string without escapes. -/
def literalBody? (t : Text) : Option (Text × Text) :=
  let inside (c : CodePoint) : Bool := c ≠ '\'' && isPlain c
  match t.dropWhile inside with
  | '\'' :: rest => some (t.takeWhile inside, rest)
  | _ => none

/-! ## §3. Strings over several lines. -/

/-- The text without a line end in front. -/
def skipLineEnd : Text → Text
  | '\n' :: rest => rest
  | t => t

/-- The text behind the blanks and line ends that a backslash at the end of a line joins; nothing
but blanks stands between the backslash and that end. -/
def behindJoin? (t : Text) : Option Text :=
  match skipSpace t with
  | [] => some []
  | '\n' :: rest => some (rest.dropWhile (fun c => isSpace c || c = '\n'))
  | _ => none

/-- The marks `mark` in front that belong to the string, at most two of them, and the rest: those
of more than three closing marks. -/
def extraMarks (mark : CodePoint) : Text → Text × Text
  | a :: b :: rest =>
      if a = mark then if b = mark then ([a, b], rest) else ([a], b :: rest)
      else ([], a :: b :: rest)
  | [a] => if a = mark then ([a], []) else ([], [a])
  | [] => ([], [])

/-- A string with escapes up to three marks; `fuel` is the length of the text. -/
def longStringBody? : Nat → Text → Option (Text × Text)
  | 0, _ => none
  | fuel + 1, t =>
    match t with
    | '"' :: '"' :: '"' :: rest => some (extraMarks '"' rest)
    | '\\' :: rest =>
        if rest.head?.any (fun c => isSpace c || c = '\n') then do
          longStringBody? fuel (← behindJoin? rest)
        else do
          let (c, rest) ← escape? rest
          let (body, rest) ← longStringBody? fuel rest
          return (c :: body, rest)
    | c :: rest =>
        if isPlain c || c = '\n' then do
          let (body, rest) ← longStringBody? fuel rest
          return (c :: body, rest)
        else none
    | [] => none

/-- A string without escapes up to three marks. -/
def longLiteralBody? : Text → Option (Text × Text)
  | '\'' :: '\'' :: '\'' :: rest => some (extraMarks '\'' rest)
  | c :: rest =>
      if isPlain c || c = '\n' then
        (longLiteralBody? rest).map (fun (body, rest) => (c :: body, rest))
      else none
  | [] => none

/-! ## §4. Any string. -/

/-- The string in front of a text, its opening marks included, and the rest; `none` when no
string begins there, and `some none` when one begins that does not end. -/
def string? : Text → Option (Option (Text × Text))
  | '"' :: '"' :: '"' :: rest => some (longStringBody? (rest.length + 1) (skipLineEnd rest))
  | '"' :: rest => some (stringBody? (rest.length + 1) rest)
  | '\'' :: '\'' :: '\'' :: rest => some (longLiteralBody? (skipLineEnd rest))
  | '\'' :: rest => some (literalBody? rest)
  | _ => none

end EncodedQuery.Settings

/-
  EncodedQuery.Json.Writer
  ────────────────────────
  **WRITING JSON.**

  `compact` writes a value on one line with a blank behind every comma and
  colon.  Only the quotation mark, the backslash and control characters are
  escaped; all other characters stand for themselves.

  A file is written piece by piece (`pieces`), and not every piece can be
  written: a text may hold half of a surrogate pair, and a whole number may be
  too long.  The first such piece ends the writing (`unwritable?`), and only the
  pieces before it are in the file (`front`).
-/
import EncodedQuery.Fault
import EncodedQuery.Json.Basic
import EncodedQuery.Number.Numeral
import EncodedQuery.Number.Shortest
import EncodedQuery.Text.Quoted

namespace EncodedQuery.Json

/-! ## §1. Scalars. -/

/-- One character of a string. -/
def escapedChar (c : CodePoint) : Text :=
  if c = '"' then "\\\""
  else if c = '\\' then "\\\\"
  else if c = '\n' then "\\n"
  else if c = '\r' then "\\r"
  else if c = '\t' then "\\t"
  else if c.toNat = 8 then "\\b"
  else if c.toNat = 12 then "\\f"
  else if c.toNat < 32 then "\\u" ++ Text.hexPadded 4 c.toNat
  else [c]

/-- A string between quotation marks. -/
def writtenText (t : Text) : Text := "\"" ++ t.flatMap escapedChar ++ "\""

/-- A real number; infinities and not-a-number go by name. -/
def writtenReal (x : Float) : Text :=
  if x.isNaN then "NaN"
  else if x.isInf then (if Number.isNegative x then "-Infinity" else "Infinity")
  else Number.shown x

/-! ## §2. Whole values. -/

mutual
/-- A value on one line. -/
def compact : Json → Text
  | null => "null"
  | bool b => if b then "true" else "false"
  | int n => Text.ofInt n
  | real x => writtenReal x
  | text t => writtenText t
  | list items => "[" ++ compactItems items ++ "]"
  | object members => "\x7b" ++ compactMembers members ++ "\x7d"

/-- The items of an array, separated. -/
def compactItems : List Json → Text
  | [] => []
  | [v] => compact v
  | v :: rest => compact v ++ ", " ++ compactItems rest

/-- The members of an object, separated. -/
def compactMembers : List (Text × Json) → Text
  | [] => []
  | [(name, v)] => writtenText name ++ ": " ++ compact v
  | (name, v) :: rest => writtenText name ++ ": " ++ compact v ++ ", " ++ compactMembers rest
end

/-! ## §3. Indented values. -/

/-- A line break and the blanks of `depth` levels. -/
def lineBreak (depth : Nat) : Text := .char '\n' :: List.replicate (2 * depth) ' '

mutual
/-- A value with every item and member on a line of its own. -/
def indented (depth : Nat) : Json → Text
  | list (v :: rest) =>
      "[" ++ indentedItems (depth + 1) (v :: rest) ++ lineBreak depth ++ "]"
  | object (m :: rest) =>
      "\x7b" ++ indentedMembers (depth + 1) (m :: rest) ++ lineBreak depth ++ "\x7d"
  | list [] => "[]"
  | object [] => "\x7b\x7d"
  | null => "null"
  | bool b => if b then "true" else "false"
  | int n => Text.ofInt n
  | real x => writtenReal x
  | text t => writtenText t

/-- The items of an array on lines of their own. -/
def indentedItems (depth : Nat) : List Json → Text
  | [] => []
  | [v] => lineBreak depth ++ indented depth v
  | v :: rest => lineBreak depth ++ indented depth v ++ "," ++ indentedItems depth rest

/-- The members of an object on lines of their own. -/
def indentedMembers (depth : Nat) : List (Text × Json) → Text
  | [] => []
  | [(name, v)] => lineBreak depth ++ writtenText name ++ ": " ++ indented depth v
  | (name, v) :: rest =>
      lineBreak depth ++ writtenText name ++ ": " ++ indented depth v ++ "," ++
        indentedMembers depth rest
end

/-! ## §4. Pieces. -/

/-- A piece of a document, and why it cannot be written, if it cannot. -/
structure Piece where
  /-- The text. -/
  text : Text
  /-- Why it cannot be written. -/
  fault? : Option Fault := none

/-- A string. -/
def textPiece (t : Text) : Piece :=
  ⟨writtenText t, if t.isEncodable then none else some .unencodable⟩

/-- A whole number. -/
def intPiece (n : Int) : Piece :=
  ⟨Text.ofInt n, if Number.isWritable n then none else some (.badValue Number.notWrittenMessage)⟩

/-- The value is an array or an object. -/
def isContainer : Json → Bool
  | list _ | object _ => true
  | _ => false

/-- The pieces of an item behind what leads to it: of a scalar this is part of its one piece. -/
def leadTo (lead : Text) (isContainer : Bool) (ps : List Piece) : List Piece :=
  if isContainer then ⟨lead, none⟩ :: ps
  else ps.map (fun p => { p with text := lead ++ p.text })

mutual
/-- The pieces of a value with every item and member on a line of its own. -/
def pieces (depth : Nat) : Json → List Piece
  | list (v :: rest) =>
      itemPieces (depth + 1) ("[" ++ lineBreak (depth + 1)) (v :: rest)
        ++ [⟨lineBreak depth, none⟩, ⟨"]", none⟩]
  | object (m :: rest) =>
      ⟨"\x7b", none⟩ :: memberPieces (depth + 1) (lineBreak (depth + 1)) (m :: rest)
        ++ [⟨lineBreak depth, none⟩, ⟨"\x7d", none⟩]
  | list [] => [⟨"[]", none⟩]
  | object [] => [⟨"\x7b\x7d", none⟩]
  | null => [⟨"null", none⟩]
  | bool b => [⟨if b then "true" else "false", none⟩]
  | int n => [intPiece n]
  | real x => [⟨writtenReal x, none⟩]
  | text t => [textPiece t]

/-- The pieces of the items of an array, the first behind `lead`. -/
def itemPieces (depth : Nat) (lead : Text) : List Json → List Piece
  | [] => []
  | v :: rest =>
      leadTo lead v.isContainer (pieces depth v) ++ itemPieces depth ("," ++ lineBreak depth) rest

/-- The pieces of the members of an object, the first behind `lead`. -/
def memberPieces (depth : Nat) (lead : Text) : List (Text × Json) → List Piece
  | [] => []
  | (name, v) :: rest =>
      ⟨lead, none⟩ :: textPiece name :: ⟨": ", none⟩ :: pieces depth v
        ++ memberPieces depth ("," ++ lineBreak depth) rest
end

/-- Why a document cannot be written, if it cannot. -/
def unwritable? (v : Json) : Option Fault := (pieces 0 v).findSome? Piece.fault?

/-- What is written of a document before the first piece that cannot be written. -/
def front (v : Json) : Text :=
  ((pieces 0 v).takeWhile (fun p => p.fault?.isNone)).flatMap Piece.text

end EncodedQuery.Json

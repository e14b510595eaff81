/-
  EncodedQuery.Screen.Styled
  ──────────────────────────
  **STYLED TEXT.**

  A styled text is a row of characters, each with the styles laid on it in the
  order in which they came, over a base style of the whole text.  Control
  characters that would move the cursor never enter it.

  `runs` gives the maximal stretches of characters with one style.
-/
import EncodedQuery.Text.Blank

namespace EncodedQuery

/-- A row of characters with styles. -/
structure Styled where
  /-- The style under all others. -/
  base : Text := []
  /-- The characters with the styles laid on them. -/
  cells : List (CodePoint × List Text) := []
  deriving DecidableEq, Repr

namespace Styled

/-! ## §1. Building. -/

/-- A character that would move the cursor. -/
def isControl (c : CodePoint) : Bool :=
  c = '\x07' ∨ c = '\x08' ∨ c = '\x0b' ∨ c = '\x0c' ∨ c = '\x0d'

/-- The characters that enter a styled text. -/
def printed (t : Text) : Text := t.filter (fun c => !isControl c)

/-- A style as a list, which is empty for the empty style. -/
def layer (style : Text) : List Text := if style.isEmpty then [] else [style]

/-- A text with a base style. -/
def of (t : Text) (base : Text := []) : Styled := ⟨base, (printed t).map (fun c => (c, []))⟩

/-- More text behind `s`, with a style of its own. -/
def add (s : Styled) (t : Text) (style : Text := []) : Styled :=
  { s with cells := s.cells ++ (printed t).map (fun c => (c, layer style)) }

/-- Two texts in a row under the base style of the first; the base style of the second becomes
a style of its characters. -/
def beside (a b : Styled) : Styled :=
  { a with cells := a.cells ++ b.cells.map (fun (c, styles) => (c, layer b.base ++ styles)) }

/-- One more style on the characters from `start` on, `count` of them. -/
def restyle (s : Styled) (style : Text) (start count : Nat) : Styled :=
  let lay (cell : CodePoint × List Text) : CodePoint × List Text := (cell.1, cell.2 ++ layer style)
  { s with
    cells := s.cells.take start ++ ((s.cells.drop start).take count).map lay
      ++ s.cells.drop (start + count) }

/-- Without the blanks at the end. -/
def stripRight (s : Styled) : Styled :=
  { s with cells := (s.cells.reverse.dropWhile (fun cell => Text.isBlank cell.1)).reverse }

/-! ## §2. Runs. -/

/-- The style of a character, base style first. -/
def styleOf (s : Styled) (cell : CodePoint × List Text) : Text :=
  Text.join " " (layer s.base ++ cell.2)

/-- Neighbours with one style come together. -/
def groupRuns : List (CodePoint × Text) → List (Text × Text)
  | [] => []
  | (c, style) :: rest =>
      match groupRuns rest with
      | (run, style') :: runs =>
          if style = style' then (c :: run, style) :: runs
          else ([c], style) :: (run, style') :: runs
      | [] => [([c], style)]

/-- The maximal stretches with one style. -/
def runs (s : Styled) : List (Text × Text) :=
  groupRuns (s.cells.map (fun cell => (cell.1, s.styleOf cell)))

end Styled

end EncodedQuery

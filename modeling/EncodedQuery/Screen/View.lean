/-
  EncodedQuery.Screen.View
  ────────────────────────
  **WHAT IS SHOWN.**

  A view says what to show, not where: texts, groups one below the other,
  framed panels, and tables.  Layout and colours are left to the screen, which
  also says what becomes of a text on its way: it may show an emoji for its code,
  drop control characters, or find that the marks in a text do not fit together.
-/
import EncodedQuery.Fault
import EncodedQuery.Screen.Styled

namespace EncodedQuery

/-- On which side the cells of a column stand. -/
inductive Side where
  /-- The left side. -/
  | left
  /-- The right side. -/
  | right
  deriving DecidableEq, Repr

/-- The name of a side. -/
def Side.name : Side → Text
  | .left => "left"
  | .right => "right"

/-- A column of a table. -/
structure Column where
  /-- The header. -/
  header : Text := []
  /-- The style of its cells. -/
  style : Text := []
  /-- The side of its cells. -/
  side : Side := .left
  deriving DecidableEq, Repr

/-- Something to show. -/
inductive View where
  /-- A text without marks, where brackets are brackets. -/
  | plain (t : Text)
  /-- A text with marks for styles between brackets. -/
  | marked (t : Text)
  /-- A styled text. -/
  | styled (s : Styled)
  /-- Views one below the other. -/
  | group (parts : List View)
  /-- A framed view. -/
  | panel (content : View) (title : Option Text) (border : Text)
  /-- Rows of cells. -/
  | table (title : Option Text) (columns : List Column) (rows : List (List View))
  deriving Inhabited

namespace View

/-- A text between the marks of one style. -/
def markedAs (style t : Text) : View :=
  marked ("[" ++ style ++ "]" ++ t ++ "[/" ++ style ++ "]")

/-- A styled text of one style. -/
def line (t : Text) (style : Text := []) : View := styled (Styled.of t style)

end View

/-- What shows views. -/
structure Screen where
  /-- The text that is written for a view, or why the view cannot be shown. -/
  shows : View → Except Fault Text

/-- Shows views one after the other, up to the first one that cannot be shown; gives those that were
shown, and what was wrong with the next. -/
def Screen.showsAll (screen : Screen) : List View → List View × Option Fault
  | [] => ([], none)
  | v :: rest =>
      match screen.shows v with
      | .error f => ([], some f)
      | .ok _ =>
          let (shown, fault) := screen.showsAll rest
          (v :: shown, fault)

end EncodedQuery

/-
  EncodedQuery.Screen.Lines
  ─────────────────────────
  **VIEWS AS LINES OF TEXT.**

  A plain layout for any terminal: groups one below the other, panels with a
  line above and below, tables with their columns padded to one width.
-/
import EncodedQuery.Screen.View

namespace EncodedQuery

namespace View

/-! ## §1. Marks. -/

/-- A character that can stand in a mark. -/
def isMarkChar (c : CodePoint) : Bool := c.isAlphanum || c = ' ' || c = '/' || c = '#'

/-- The text behind a mark whose opening bracket was just read. -/
def behindMark? (t : Text) : Option Text :=
  match t.dropWhile isMarkChar with
  | ']' :: rest => if t.head? = some (.char ']') then none else some rest
  | _ => none

theorem behindMark?_length {t rest : Text} (h : behindMark? t = some rest) :
    rest.length < t.length := by
  simp only [behindMark?] at h
  split at h
  · rename_i rest' hdrop
    split at h
    · simp at h
    · simp only [Option.some.injEq] at h
      subst h
      have := (List.dropWhile_sublist isMarkChar (l := t)).length_le
      rw [hdrop] at this
      simp only [List.length_cons] at this
      omega
  · simp at h

/-- A text without its marks. -/
def unmarked (t : Text) : Text :=
  match t with
  | [] => []
  | '[' :: rest =>
      match _h : behindMark? rest with
      | some rest' => unmarked rest'
      | none => .char '[' :: unmarked rest
  | c :: rest => c :: unmarked rest
termination_by t.length
decreasing_by
  · have := behindMark?_length _h
    simp only [List.length_cons]
    omega
  · simp
  · simp

/-! ## §2. Tables. -/

/-- `t` with blanks up to a width, on the left or on the right side. -/
def padded (side : Side) (width : Nat) (t : Text) : Text :=
  let blanks := (List.replicate (width - t.length) ' ' : Text)
  match side with
  | .left => t ++ blanks
  | .right => blanks ++ t

/-- The greatest length in every column. -/
def widths (rows : List (List Text)) : List Nat :=
  rows.foldl (fun ws row =>
    (List.range (max ws.length row.length)).map (fun i =>
      max (ws.getD i 0) ((row.getD i []).length))) []

/-- A row with every cell padded. -/
def rowLine (sides : List Side) (ws : List Nat) (row : List Text) : Text :=
  Text.join "  " (row.zipIdx.map (fun (t, i) => padded (sides.getD i .left) (ws.getD i 0) t))

/-- The lines of a table: its title, its headers unless all are empty, and its rows. -/
def tableLines (title : Option Text) (columns : List Column) (rows : List (List Text)) :
    List Text :=
  let headers := columns.map Column.header
  let headed := if headers.all List.isEmpty then rows else headers :: rows
  let sides := columns.map Column.side
  title.toList ++ headed.map (rowLine sides (widths headed))

/-! ## §3. Views. -/

/-- The line above or below a panel. -/
def frame (title : Option Text) : Text :=
  match title with
  | some t => "── " ++ t ++ " ──"
  | none => "────"

mutual
/-- The lines of a view. -/
def lines : View → List Text
  | plain t => Text.cut '\n' t
  | marked t => Text.cut '\n' (unmarked t)
  | styled s => Text.cut '\n' (s.cells.map (·.1))
  | group parts => linesOfAll parts
  | panel content title _ => [frame title] ++ lines content ++ [frame none]
  | table title columns rows => tableLines title columns (rowTexts rows)

/-- The lines of views one below the other. -/
def linesOfAll : List View → List Text
  | [] => []
  | v :: rest => lines v ++ linesOfAll rest

/-- The texts of cells. -/
def cellTexts : List View → List Text
  | [] => []
  | v :: rest => Text.join " " (lines v) :: cellTexts rest

/-- The texts of rows of cells. -/
def rowTexts : List (List View) → List (List Text)
  | [] => []
  | row :: rest => cellTexts row :: rowTexts rest
end

/-! ## §4. The terminal. -/

mutual
/-- All texts of a view are of characters. -/
def isEncodable : View → Bool
  | plain t | marked t => t.isEncodable
  | styled s => Text.isEncodable (s.cells.map (·.1))
  | group parts => areEncodable parts
  | panel content title _ => content.isEncodable && (title.getD []).isEncodable
  | table title columns rows =>
      (title.getD []).isEncodable && columns.all (fun c => c.header.isEncodable) &&
        rowsAreEncodable rows

/-- All texts of some views are. -/
def areEncodable : List View → Bool
  | [] => true
  | v :: rest => v.isEncodable && areEncodable rest

/-- All texts of rows of cells are. -/
def rowsAreEncodable : List (List View) → Bool
  | [] => true
  | row :: rest => areEncodable row && rowsAreEncodable rest
end

end View

/-- A terminal: it shows a view line by line, if all of its texts are of characters. -/
def Screen.terminal : Screen where
  shows v :=
    if v.isEncodable then .ok (v.lines.flatMap (fun t => t ++ "\n")) else .error .unencodable

end EncodedQuery

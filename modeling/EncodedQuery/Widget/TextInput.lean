/-
  EncodedQuery.Widget.TextInput
  ─────────────────────────────
  **A LINE OF TEXT BEING TYPED.**

  The text, a cursor between its characters, and perhaps a limit to its
  length; a limit of zero is none, and a negative one takes characters off the
  end of a text that is set and lets none be typed.  `handle` applies a key and
  says whether the key was one for the line.
-/
import EncodedQuery.Key
import EncodedQuery.Screen.View

namespace EncodedQuery

/-- A line being typed. -/
structure TextInput where
  /-- What is shown while the line is empty. -/
  placeholder : Text := []
  /-- The greatest length; zero is no limit. -/
  limit : Int := 0
  /-- The text. -/
  value : Text := []
  /-- The number of characters before the cursor. -/
  cursor : Nat := 0
  deriving DecidableEq, Repr

namespace TextInput

/-! ## §1. Setting. -/

/-- `t` cut to the limit. -/
def clipped (i : TextInput) (t : Text) : Text := if i.limit = 0 then t else firstItems i.limit t

/-- The line with another text, the cursor at its end. -/
def setValue (i : TextInput) (t : Text) : TextInput :=
  { i with value := i.clipped t, cursor := (i.clipped t).length }

/-- The empty line. -/
def reset (i : TextInput) : TextInput := i.setValue []

/-- A new line. -/
def new (placeholder : Text) (value : Text := []) (limit : Int := 0) : TextInput :=
  ({ placeholder, limit } : TextInput).setValue value

/-! ## §2. Keys. -/

/-- The line with a character at the cursor, unless it is full. -/
def insert (i : TextInput) (c : CodePoint) : TextInput :=
  if i.limit ≠ 0 ∧ i.limit ≤ i.value.length then i
  else { i with value := i.value.take i.cursor ++ [c] ++ i.value.drop i.cursor,
                cursor := i.cursor + 1 }

/-- Applies a key; `none` when the key is none for the line. -/
def edit? (i : TextInput) : Key → Option TextInput
  | .backspace =>
      some (if i.cursor = 0 then i
        else { i with value := i.value.take (i.cursor - 1) ++ i.value.drop i.cursor,
                      cursor := i.cursor - 1 })
  | .delete => some { i with value := i.value.take i.cursor ++ i.value.drop (i.cursor + 1) }
  | .left => some { i with cursor := i.cursor - 1 }
  | .right => some { i with cursor := min i.value.length (i.cursor + 1) }
  | .home => some { i with cursor := 0 }
  | .end => some { i with cursor := i.value.length }
  | .ctrl 'u' => some i.reset
  | k => k.typed?.map i.insert

/-- Applies a key and says whether it was one for the line. -/
def handle (i : TextInput) (k : Key) : TextInput × Bool :=
  match i.edit? k with
  | some i' => (i', true)
  | none => (i, false)

/-! ## §3. View. -/

/-- The line, with the place of the cursor marked when it has the focus. -/
def view (i : TextInput) (focused : Bool) : Styled :=
  if i.value.isEmpty then
    let hint := Styled.of i.placeholder "dim italic"
    if focused then (Styled.of "▏" "bold").beside hint else hint
  else
    let text := Styled.of i.value
    if !focused then text
    else if i.cursor < i.value.length then text.restyle "reverse" i.cursor 1
    else text.add " " "reverse"

end TextInput

end EncodedQuery

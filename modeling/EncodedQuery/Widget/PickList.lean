/-
  EncodedQuery.Widget.PickList
  ────────────────────────────
  **A LIST TO PICK FROM.**

  Items in order, a cursor on one of those that are visible, and a window of
  so many rows that follows the cursor.  A filterable list shows the items
  that contain the typed text; in a list for several choices items can be
  marked.

  `handle` applies a key and says whether the key was one for the list; the
  keys that confirm and cancel belong to the owner of the list.
-/
import EncodedQuery.Widget.TextInput

namespace EncodedQuery

/-! ## §1. Items. -/

/-- A row of a list, standing for a value. -/
structure PickItem (α : Type) where
  /-- The text of the row. -/
  title : Text
  /-- More about it. -/
  description : Text := []
  /-- What the row stands for. -/
  value : α

instance {α : Type} [BEq α] : BEq (PickItem α) :=
  ⟨fun a b => a.title == b.title && a.description == b.description && a.value == b.value⟩

/-- The row contains a text, in either case. -/
def PickItem.matchesText {α : Type} (item : PickItem α) (needle : Text) : Bool :=
  let needle := Text.lower needle
  Text.contains (Text.lower item.title) needle
    || Text.contains (Text.lower item.description) needle

/-- A list to pick from. -/
structure PickList (α : Type) where
  /-- The heading. -/
  title : Text := []
  /-- The number of rows in the window, at least one. -/
  window : Nat := 15
  /-- Typing filters the list. -/
  filterable : Bool := false
  /-- Several items can be marked. -/
  multi : Bool := false
  /-- All items. -/
  items : List (PickItem α) := []
  /-- The items that the filter lets through. -/
  visible : List (PickItem α) := []
  /-- The marked items, in the order of marking. -/
  marked : List (PickItem α) := []
  /-- The text that filters. -/
  filter : TextInput := TextInput.new "type to filter"
  /-- The position of the cursor among the visible items. -/
  index : Nat := 0
  /-- The position of the first row of the window. -/
  offset : Nat := 0

namespace PickList

variable {α : Type}

/-! ## §2. Filling and filtering. -/

/-- The visible items found anew, the cursor on the first. -/
def refilter (l : PickList α) : PickList α :=
  let needle := Text.strip l.filter.value
  { l with
    visible := if needle.isEmpty then l.items
      else l.items.filter (fun item => item.matchesText needle)
    index := 0
    offset := 0 }

/-- The list with other items, nothing marked and nothing filtered. -/
def setItems (l : PickList α) (items : List (PickItem α)) : PickList α :=
  ({ l with items, marked := [], filter := l.filter.reset } : PickList α).refilter

/-- A new list. -/
def new (title : Text) (items : List (PickItem α)) (window : Int := 15)
    (filterable : Bool := false) (multi : Bool := false) : PickList α :=
  ({ title, window := max 1 window.toNat, filterable, multi } : PickList α).setItems items

/-- The item under the cursor; none when no item is visible. -/
def selected (l : PickList α) : Option (PickItem α) := l.visible[l.index]?

/-! ## §3. Moving. -/

/-- The cursor on the item at `i`, or on the nearest one, and the window around it. -/
def moveTo (l : PickList α) (i : Int) : PickList α :=
  if l.visible.isEmpty then { l with index := 0, offset := 0 }
  else
    let index := min i.toNat (l.visible.length - 1)
    let offset :=
      if index < l.offset then index
      else if l.offset + l.window ≤ index then index - l.window + 1
      else l.offset
    { l with index, offset }

/-- The cursor `n` items further. -/
def moveBy (l : PickList α) (n : Int) : PickList α := l.moveTo (l.index + n)

/-- The cursor on the first visible item with a property. -/
def selectWhere? (l : PickList α) (p : α → Bool) : Option (PickList α) :=
  (l.visible.findIdx? (fun item => p item.value)).map (fun i => l.moveTo i)

/-- The item under the cursor marked, or its mark taken away. -/
def toggleMark [BEq α] (l : PickList α) : PickList α :=
  match l.selected with
  | none => l
  | some item =>
      { l with
        marked := if l.marked.any (· == item) then l.marked.eraseP (· == item)
          else l.marked ++ [item] }

/-! ## §4. Keys. -/

/-- A key for the text that filters. -/
def isFilterKey (k : Key) : Bool := k = .backspace || k = .ctrl 'u' || k.isPrintable

/-- The list after a key for its filter. -/
def editFilter (l : PickList α) (k : Key) : PickList α :=
  let filter := (l.filter.handle k).1
  let l' := { l with filter }
  if filter.value = l.filter.value then l' else l'.refilter

/-- Applies a key; `none` when the key is none for the list. -/
def step? (l : PickList α) : Key → Option (PickList α)
  | .up => some (l.moveBy (-1))
  | .down => some (l.moveBy 1)
  | .pageUp => some (l.moveBy (-(l.window : Int)))
  | .pageDown => some (l.moveBy l.window)
  | .home => some (l.moveTo 0)
  | .end => some (l.moveTo (l.visible.length - 1))
  | k =>
      if l.filterable then (if isFilterKey k then some (l.editFilter k) else none)
      else if k = .char 'k' then some (l.moveBy (-1))
      else if k = .char 'j' then some (l.moveBy 1)
      else none

/-- Applies a key and says whether it was one for the list. -/
def handle (l : PickList α) (k : Key) : PickList α × Bool :=
  match l.step? k with
  | some l' => (l', true)
  | none => (l, false)

/-! ## §5. View. -/

/-- The visible items of the window with their positions. -/
def windowRows (l : PickList α) : List (Nat × PickItem α) :=
  let shown := (l.visible.drop l.offset).take l.window
  shown.zipIdx l.offset |>.map (fun (item, i) => (i, item))

/-- One row. -/
def rowView [BEq α] (l : PickList α) (i : Nat) (item : PickItem α) : Styled :=
  let line : Styled := {}
  let line :=
    if l.multi then line.add (if l.marked.any (· == item) then "[x] " else "[ ] ") "green" else line
  let line :=
    if i = l.index then (line.add "▶ " "bold yellow").add item.title "bold yellow"
    else (line.add "  ").add item.title
  if item.description.isEmpty then line else line.add ("  " ++ item.description) "dim"

/-- The heading, the filter, the rows of the window, and the position in a longer list. -/
def view [BEq α] (l : PickList α) : View :=
  let heading : List View := if l.title.isEmpty then [] else [.line l.title "bold cyan"]
  let filtering : List View :=
    if l.filterable && !l.filter.value.isEmpty then
      [.styled ((Styled.of "Filter: " "dim").beside (l.filter.view true))]
    else []
  let nothing : List View := if l.visible.isEmpty then [.line "  (no matches)" "dim"] else []
  let rows : List View := l.windowRows.map (fun (i, item) => .styled (l.rowView i item))
  let position : List View :=
    if l.window < l.visible.length then
      [.line ("  " ++ Text.ofNat (l.index + 1) ++ "/" ++ Text.ofNat l.visible.length) "dim"]
    else []
  .group (heading ++ filtering ++ nothing ++ rows ++ position)

end PickList

end EncodedQuery

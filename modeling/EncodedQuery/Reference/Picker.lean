/-
  EncodedQuery.Reference.Picker
  ─────────────────────────────
  **PICKING A RECORD.**

  A search box above a list of candidates.  Typing searches; Enter takes the
  candidate under the cursor, or the text as it stands when there is none.
-/
import EncodedQuery.Reference.Resolver
import EncodedQuery.Widget.PickList

namespace EncodedQuery

/-- A picker for a record of another table. -/
structure ReferencePicker where
  /-- The searches. -/
  resolver : Resolver
  /-- The search box. -/
  input : TextInput := TextInput.new "Type at least 2 characters to search"
  /-- The list of candidates. -/
  results : PickList Candidate
  /-- The table that is searched. -/
  table : Text := []
  /-- The candidates. -/
  candidates : List Candidate := []
  /-- The list has the focus. -/
  focusList : Bool := false
  /-- An answer is awaited. -/
  searching : Bool := false
  /-- What went wrong last. -/
  error : Text := []
  /-- The value that was picked. -/
  value : Text := []
  /-- The label of that value. -/
  label : Text := []
  /-- The last choice was confirmed. -/
  completed : Bool := false
  /-- Keys are taken. -/
  active : Bool := false

namespace ReferencePicker

/-- A new picker. -/
def new (resolver : Resolver) (window : Int := 10) : ReferencePicker :=
  { resolver, results := PickList.new [] [] window }

/-! ## §1. Opening and closing. -/

/-- Opens the picker afresh for a table. -/
def activate (p : ReferencePicker) (table : Text) : ReferencePicker :=
  { p with
    table
    input := p.input.reset
    results := p.results.setItems []
    candidates := []
    focusList := false
    searching := false
    error := []
    value := []
    label := []
    completed := false
    active := true }

/-- Closes the picker; searches still under way become stale. -/
def deactivate (p : ReferencePicker) : ReferencePicker :=
  { p with active := false, resolver := p.resolver.cancel }

/-! ## §2. Searching. -/

/-- Searches for the text in the box; when nothing is searched for, the list is emptied. -/
def startSearch (p : ReferencePicker) : ReferencePicker :=
  let (number, resolver) := p.resolver.search p.table p.input.value
  match number with
  | some _ => { p with resolver, error := [], searching := true }
  | none =>
      { p with resolver, error := [], searching := false, candidates := [],
               results := p.results.setItems [] }

/-- The row of a candidate. -/
def candidateItem (c : Candidate) : PickItem Candidate :=
  { title := c.label, description := c.identifier, value := c }

/-- Shows the answer to a search. -/
def handleResult (p : ReferencePicker) (r : SearchResult) : ReferencePicker :=
  match r.outcome with
  | .error f =>
      { p with searching := false, error := "Search failed: " ++ f.message, candidates := [],
               results := p.results.setItems [] }
  | .ok cs =>
      { p with searching := false, error := [], candidates := cs,
               results := p.results.setItems (cs.map candidateItem) }

/-! ## §3. Keys. -/

/-- Takes the candidate under the cursor, or the typed text when there is none. -/
def confirm (p : ReferencePicker) : ReferencePicker :=
  let typed := Text.strip p.input.value
  match p.results.selected with
  | some item =>
      deactivate { p with value := item.value.identifier, label := item.value.label,
                          completed := true }
  | none =>
      if typed.isEmpty then { p with error := "Type a value to search or enter manually" }
      else deactivate { p with value := typed, label := typed, completed := true }

/-- A key that moves in the list while the list has the focus. -/
def isListKey (k : Key) : Bool :=
  k = .up || k = .down || k = .pageUp || k = .pageDown || k = .char 'j' || k = .char 'k'

/-- A key for the search box; a change of its text starts a search. -/
def updateInput (p : ReferencePicker) (k : Key) : ReferencePicker :=
  let input := (p.input.handle k).1
  if input.value = p.input.value then { p with input }
  else startSearch { p with input, focusList := false }

/-- A key; a closed picker takes none. -/
def update (p : ReferencePicker) (k : Key) : ReferencePicker :=
  if !p.active then p
  else if k = .esc then deactivate { p with completed := false }
  else if k = .enter then p.confirm
  else if k = .tab then
    if p.candidates.isEmpty then p else { p with focusList := !p.focusList }
  else if p.focusList && isListKey k || (k = .up || k = .down) && !p.candidates.isEmpty then
    { p with results := (p.results.handle k).1 }
  else p.updateInput k

/-! ## §4. View. -/

/-- The whole picker. -/
def view (p : ReferencePicker) : View :=
  let searching : List View := if p.searching then [.line "Searching..." "yellow"] else []
  let error : List View := if p.error.isEmpty then [] else [.line p.error "bold red"]
  let found : List View :=
    if !p.candidates.isEmpty then [p.results.view]
    else if p.resolver.minLength ≤ (Text.strip p.input.value).length && !p.searching then
      [.line "No matches. Enter uses the typed text." "dim"]
    else []
  .group
    ([.line ("🔗 Search " ++ p.table) "bold magenta",
      .styled ((Styled.of "Search: " "dim").beside (p.input.view (!p.focusList)))]
      ++ searching ++ error ++ found
      ++ [.line "tab focus list • enter select • esc back" "dim"])

end ReferencePicker

end EncodedQuery

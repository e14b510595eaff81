/-
  EncodedQuery.Saved.Store
  ────────────────────────
  **THE STORE OF SAVED FILTERS.**

  The filters are kept in one file, which is read anew by every call, so that
  several programs may share it.  Every function takes the file as it is; those
  that may change it also give the file that is to be written, if any.  Not every
  file can be written (`written`), and a call that fails or finds nothing to do
  leaves the file alone (`settle`).
-/
import EncodedQuery.Json.Writer
import EncodedQuery.Month
import EncodedQuery.Saved.Filter

namespace EncodedQuery

/-- The file of the store. -/
inductive StoreFile where
  /-- There is no file. -/
  | missing
  /-- The file is no JSON document, for this reason. -/
  | unreadable (f : Fault)
  /-- The file holds a document. -/
  | document (v : Json)

namespace StoreFile

/-! ## §1. Reading and writing. -/

/-- The file with this content, if there is a file. -/
def ofContent (content : Option Text) (deepest : Nat) : StoreFile :=
  match content with
  | none => missing
  | some t => match Json.ofDocument t deepest with
      | .ok v => document v
      | .error f => unreadable f

/-- The content that the file is written with; only documents are written. -/
def content? : StoreFile → Option Text
  | document v => some (v.indented 0)
  | _ => none

/-- The file once it is written, or why it cannot be. -/
def written : StoreFile → Except Fault StoreFile
  | document v => match v.unwritable? with
    | none => .ok (document v)
    | some f => .error f
  | file => .ok file

/-- The answer of a call, and the file as the call leaves it: written, if there is one to write. -/
def settle {α : Type} (file : StoreFile) : α × Option StoreFile → Except Fault (α × StoreFile)
  | (answer, none) => .ok (answer, file)
  | (answer, some changed) => do return (answer, ← changed.written)

/-- The filters in the file. -/
def filters (file : StoreFile) (now : Instant) : Except Fault (List SavedFilter) :=
  match file with
  | missing => .ok []
  | unreadable f => .error f
  | document v => do
      let ms ← v.members
      let items ← ((Json.lookup? "filters" ms).getD (.list [])).walked
      items.mapM (SavedFilter.ofJson now)

/-- The document that describes these filters. -/
def describe (now : Instant) (filters : List SavedFilter) : Json :=
  .object
    [("version", .int 1), ("updated_at", .text now.iso),
     ("filters", .list (filters.map SavedFilter.toJson))]

/-- The file with these filters. -/
def ofFilters (now : Instant) (filters : List SavedFilter) : StoreFile :=
  document (describe now filters)

/-! ## §2. Changes. -/

/-- The identifier of a filter that is saved now. -/
def freshId (now : Instant) : Text := Text.ofInt (now.epochSeconds * 1000000000)

/-- Saves a filter; it takes the place of one with its name and table. -/
def save (file : StoreFile) (now : Instant) (name table query : Text) (description : Text := [])
    (conditions : List Json := []) (isFavorite : Bool := false) :
    Except Fault (SavedFilter × Option StoreFile) := do
  if (Text.strip name).isEmpty then throw (.badValue "filter name is required")
  let kept := (← file.filters now).filter
    (fun f => !(f.name.isText name && f.table.isText table))
  let saved : SavedFilter :=
    { id := freshId now
      name := .text name
      table := .text table
      query := .text query
      description := .text description
      conditions
      createdAt := now
      lastUsed := none
      useCount := 0
      isFavorite }
  return (saved, ofFilters now (kept ++ [saved]))

/-- Changes every filter with an identifier; gives the last of them. -/
def change (file : StoreFile) (now : Instant) (id : Text) (f : SavedFilter → SavedFilter) :
    Except Fault (Option SavedFilter × Option StoreFile) := do
  let all ← file.filters now
  let changed := all.map (fun x => if x.id = id then f x else x)
  match (changed.filter (fun x => x.id = id)).getLast? with
  | none => return (none, none)
  | some found => return (some found, ofFilters now changed)

/-- Counts a use of a filter. -/
def markUsed (file : StoreFile) (now : Instant) (id : Text) :
    Except Fault (Option SavedFilter × Option StoreFile) :=
  file.change now id (fun f => { f with useCount := f.useCount + 1, lastUsed := some now })

/-- Makes a filter a favourite, or an ordinary one; says whether it was there. -/
def setFavorite (file : StoreFile) (now : Instant) (id : Text) (favorite : Bool) :
    Except Fault (Bool × Option StoreFile) := do
  let (found, changed) ← file.change now id (fun f => { f with isFavorite := favorite })
  return (found.isSome, changed)

/-- Deletes a filter; says whether it was there. -/
def delete (file : StoreFile) (now : Instant) (id : Text) :
    Except Fault (Bool × Option StoreFile) := do
  let all ← file.filters now
  if all.any (fun f => f.id = id) then
    return (true, ofFilters now (all.filter (fun f => f.id ≠ id)))
  else return (false, none)

/-! ## §3. Questions. -/

/-- The first filter with an identifier. -/
def get (file : StoreFile) (now : Instant) (id : Text) : Except Fault (Option SavedFilter) := do
  return (← file.filters now).find? (fun f => f.id = id)

/-- The filters of a table, or all of them, in their order for people. -/
def list (file : StoreFile) (now : Instant) (table : Option Text) :
    Except Fault (List SavedFilter) := do
  let all ← file.filters now
  let chosen := match table with
    | some t => if t.isEmpty then all else all.filter (fun f => f.table.isText t)
    | none => all
  if chosen.all SavedFilter.hasPlace then return chosen.mergeSort SavedFilter.precedes
  else throw (yearFault 0)

/-- The filters of a table, or all of them, that contain a text. -/
def search (file : StoreFile) (now : Instant) (text : Text) (table : Option Text) :
    Except Fault (List SavedFilter) := do
  (← file.list now table).filterM (SavedFilter.matchesText (Text.lower text))

end StoreFile

end EncodedQuery

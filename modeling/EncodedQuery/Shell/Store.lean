/-
  EncodedQuery.Shell.Store
  ────────────────────────
  **THE STORE ON A DISK.**

  Saved filters are kept in one file.  Every call reads the file anew, and a call
  that changes the filters writes it back: first beside its place, so that its
  place never holds half of it.  Where something in it cannot be written, only
  the part in front of this is written beside it, and the call fails.  A call that
  finds nothing to do writes nothing.
-/
import EncodedQuery.Saved.Store
import EncodedQuery.Shell.Action

namespace EncodedQuery

/-- Where filters are saved. -/
structure Store where
  /-- The path of the file. -/
  path : Text
  /-- The most containers that may be open at one place of the file, and the most directories that
  are made for it. -/
  deepest : Nat

namespace Store

/-! ## §1. Reading and writing. -/

/-- The file as it is. -/
def read (store : Store) : Action StoreFile := do
  if (← Action.entry? store.path).isSome then
    return StoreFile.ofContent (some (← Action.file store.path)) store.deepest
  else return .missing

/-- The path beside the file: its last name has an ending more. -/
def beside (store : Store) : Text := Settings.normalPath store.path ++ ".tmp"

/-- Writes the file, first beside its place; only documents are written. -/
def write (store : Store) : StoreFile → Action Unit
  | .document v => do
      Action.makeDirectoryOf store.deepest store.path
      Action.change (.write store.beside v.front)
      match v.unwritable? with
      | some f => .fail f
      | none => Action.change (.move store.beside store.path)
  | _ => pure ()

/-- Gives an answer, after writing the file if there is one to write. -/
def conclude {α : Type} (store : Store) : α × Option StoreFile → Action α
  | (answer, none) => return answer
  | (answer, some file) => do
      store.write file
      return answer

/-- Carries out a call: `f` gives the answer, and the file that is to be written, if any. -/
def call {α : Type} (store : Store)
    (f : Instant → StoreFile → Except Fault (α × Option StoreFile)) : Action α := do
  let file ← store.read
  let now ← Action.now
  store.conclude (← .ofExcept (f now file))

/-! ## §2. Changes. -/

/-- Saves a filter; one with its name and table gives way.  Without a name the file is not even
read. -/
def save (store : Store) (name table query : Text) (description : Text := [])
    (conditions : List Json := []) (isFavorite : Bool := false) : Action SavedFilter :=
  if (Text.strip name).isEmpty then .fail (.badValue "filter name is required")
  else store.call
    (fun now file => file.save now name table query description conditions isFavorite)

/-- Counts a use of a filter. -/
def markUsed (store : Store) (id : Text) : Action (Option SavedFilter) :=
  store.call (fun now file => file.markUsed now id)

/-- Makes a filter a favourite, or an ordinary one; says whether it was there. -/
def setFavorite (store : Store) (id : Text) (favorite : Bool := true) : Action Bool :=
  store.call (fun now file => file.setFavorite now id favorite)

/-- Deletes a filter; says whether it was there. -/
def delete (store : Store) (id : Text) : Action Bool :=
  store.call (fun now file => file.delete now id)

/-! ## §3. Questions. -/

/-- A question leaves the file as it is. -/
def ask {α : Type} (store : Store) (f : Instant → StoreFile → Except Fault α) : Action α :=
  store.call (fun now file => (f now file).map (fun answer => (answer, none)))

/-- The first filter with an identifier. -/
def get (store : Store) (id : Text) : Action (Option SavedFilter) :=
  store.ask (fun now file => file.get now id)

/-- The filters of a table, or all of them, in their order for people. -/
def list (store : Store) (table : Option Text) : Action (List SavedFilter) :=
  store.ask (fun now file => file.list now table)

/-- The filters of a table, or all of them, that contain a text. -/
def search (store : Store) (text : Text) (table : Option Text) : Action (List SavedFilter) :=
  store.ask (fun now file => file.search now text table)

end Store

end EncodedQuery

/-
  EncodedQuery.Shell.Disk
  ───────────────────────
  **FILES AND DIRECTORIES AS VALUES.**

  A disk is a tree: a directory holds entries by their names, a file holds
  text.  A path is followed name by name from the root on; two points lead back
  to the directory above, and every name but the last has to be that of a
  directory.  Relative paths start at the root as well.

  `look` says what is at a path, `read` gives the content of a file, and
  `apply` is the disk after a change, or the reason why there is none.

  Main facts: `at?_put` (what was put is there), `at?_put_of_apart` (and what
  lies apart from it is not touched).
-/
import EncodedQuery.Settings.Path

namespace EncodedQuery

/-! ## §1. Trees. -/

/-- Where something is: the names of the directories from the root on, then its own name. -/
abbrev Place := List Text

/-- A file, or a directory with all that lies below it. -/
inductive Node where
  /-- A file. -/
  | file (content : Text)
  /-- A directory and its entries by their names. -/
  | directory (entries : List (Text × Node))

namespace Node

/-- The entries of a directory; a file has none. -/
def entries : Node → List (Text × Node)
  | file _ => []
  | directory es => es

@[simp] theorem entries_directory (es : List (Text × Node)) : (directory es).entries = es := rfl

/-- The entry of that name. -/
def child? (name : Text) (es : List (Text × Node)) : Option Node :=
  (es.find? (fun e => e.1 = name)).map (·.2)

/-- The entries with `name` bound to `n`: in its old place, or else at the end. -/
def setChild (name : Text) (n : Node) : List (Text × Node) → List (Text × Node)
  | [] => [(name, n)]
  | e :: rest => if e.1 = name then (name, n) :: rest else e :: setChild name n rest

/-- What is at a place below a node. -/
def at? : Node → Place → Option Node
  | n, [] => some n
  | n, name :: rest => (child? name n.entries).bind (fun m => m.at? rest)

/-- The node with another one at a place below it; what is missing on the way is made. -/
def put : Node → Place → Node → Node
  | _, [], new => new
  | n, name :: rest, new =>
      let below := (child? name n.entries).getD (directory [])
      directory (setChild name (below.put rest new) n.entries)

/-- The node without what is at a place below it. -/
def drop : Node → Place → Node
  | n, [] => n
  | n, [name] => directory (n.entries.filter (fun e => e.1 ≠ name))
  | n, name :: rest =>
      match child? name n.entries with
      | none => n
      | some m => directory (setChild name (m.drop rest) n.entries)

theorem child?_setChild (name : Text) (n : Node) (es : List (Text × Node)) :
    child? name (setChild name n es) = some n := by
  induction es with
  | nil => simp [setChild, child?]
  | cons e rest ih =>
    by_cases h : e.1 = name
    · simp [setChild, child?, h]
    · simp only [setChild, h, if_false]
      simpa [child?, List.find?_cons, h] using ih

theorem child?_setChild_of_ne {name other : Text} (n : Node) (es : List (Text × Node))
    (h : other ≠ name) : child? other (setChild name n es) = child? other es := by
  have first : ¬ name = other := fun e => h e.symm
  induction es with
  | nil => simp [setChild, child?, first]
  | cons e rest ih =>
    by_cases here : e.1 = name
    · simp [setChild, child?, here, first]
    · simp only [setChild, here, if_false]
      by_cases there : e.1 = other
      · simp [child?, there]
      · simpa [child?, List.find?_cons, there] using ih

/-- What was put is there. -/
theorem at?_put (n : Node) (p : Place) (new : Node) : (n.put p new).at? p = some new := by
  induction p generalizing n with
  | nil => rfl
  | cons name rest ih => simp [at?, put, child?_setChild, ih]

/-- What lies apart from it, neither above nor below, is not touched. -/
theorem at?_put_of_apart (n : Node) {p q : Place} (new : Node) (above : ¬ q <+: p)
    (below : ¬ p <+: q) : (n.put p new).at? q = n.at? q := by
  induction p generalizing q n with
  | nil => exact absurd List.nil_prefix below
  | cons name rest ih =>
    cases q with
    | nil => exact absurd List.nil_prefix above
    | cons other more =>
      by_cases h : other = name
      · subst h
        have above' : ¬ more <+: rest := fun x => above (List.cons_prefix_cons.2 ⟨rfl, x⟩)
        have below' : ¬ rest <+: more := fun x => below (List.cons_prefix_cons.2 ⟨rfl, x⟩)
        simp only [at?, put, entries_directory, child?_setChild, Option.bind_some]
        rw [ih _ above' below']
        cases child? other n.entries with
        | some m => rfl
        | none =>
          cases more with
          | nil => exact absurd List.nil_prefix above'
          | cons x xs => rfl
      · simp only [at?, put, entries_directory, child?_setChild_of_ne _ _ h]

end Node

/-! ## §2. Disks and paths. -/

/-- What can be at a place. -/
inductive Entry where
  /-- A file. -/
  | file
  /-- A directory. -/
  | directory
  deriving DecidableEq, Repr

/-- A tree of directories and files. -/
structure Disk where
  /-- The root directory. -/
  root : Node := .directory []

namespace Disk

/-- The disk with these directories and files. -/
def ofFiles (directories : List Place) (files : List (Place × Text)) : Disk :=
  let made := directories.foldl (fun n p => n.put p (.directory [])) (Node.directory [])
  ⟨files.foldl (fun n f => n.put f.1 (.file f.2)) made⟩

/-- The length of a text in bytes. -/
def byteLength (t : Text) : Nat := t.foldl (fun n c => n + c.byteSize) 0

/-- The most bytes of a name. -/
def longestName : Nat := 255

/-- The most bytes of a path. -/
def longestPath : Nat := 4095

/-- The name of the directory above. -/
def parentName : Text := ['.', '.']

/-- Follows names from `here` on, which lies below the directories `above`, the nearest first,
each with the name of the step down from it; gives the place where they end, and what is there. -/
def walk : List (Text × Node) → Option Node → List Text → Except FileFault (Place × Option Node)
  | above, here, [] => .ok ((above.map (·.1)).reverse, here)
  | _, none, _ :: _ => .error .missing
  | _, some (.file _), _ :: _ => .error .notDirectory
  | above, some (.directory es), name :: rest =>
      if name = parentName then
        match above with
        | [] => walk [] (some (.directory es)) rest
        | (_, parent) :: higher => walk higher (some parent) rest
      else if longestName < byteLength name then .error .nameTooLong
      else walk ((name, .directory es) :: above) (Node.child? name es) rest

/-- The place that a path leads to, and what is there. -/
def locate (d : Disk) (path : Text) : Except FileFault (Place × Option Node) :=
  if !path.all CodePoint.isNameable then .error .unencodable
  else if path.any (fun c => c.toNat = 0) then .error .badCharacter
  else if longestPath < byteLength path then .error .nameTooLong
  else walk [] (some d.root) (Settings.pathParts path)

/-- What is at a path. -/
def look (d : Disk) (path : Text) : Except FileFault Entry := do
  match (← d.locate path).2 with
  | some (.directory _) => return .directory
  | some (.file _) => return .file
  | none => throw .missing

/-- The content of the file at a path. -/
def read (d : Disk) (path : Text) : Except FileFault Text := do
  match (← d.locate path).2 with
  | some (.directory _) => throw .isDirectory
  | some (.file content) => return content
  | none => throw .missing

/-- The shortest path to where a path leads. -/
def resolve (d : Disk) (path : Text) : Except FileFault Text := do
  return .char '/' :: Text.join "/" (← d.locate path).1

/-! ## §3. Changes. -/

/-- A change of a disk. -/
inductive Change where
  /-- A file gets a content. -/
  | write (path content : Text)
  /-- A directory is made in a directory that is there. -/
  | makeDirectory (path : Text)
  /-- A file moves to another path, over a file that is there. -/
  | move (source target : Text)
  deriving DecidableEq, Repr

/-- The path ends with the name of the directory above, so it names no entry of its own. -/
def endsAbove (path : Text) : Bool := (Settings.pathParts path).getLast? = some parentName

/-- The disk after a change. -/
def apply (d : Disk) : Change → Except FileFault Disk
  | .write path content => do
      match ← d.locate path with
      | (_, some (.directory _)) => throw .isDirectory
      | (p, _) => return ⟨d.root.put p (.file content)⟩
  | .makeDirectory path => do
      match ← d.locate path with
      | (_, some _) => throw .taken
      | (p, none) => return ⟨d.root.put p (.directory [])⟩
  | .move source target => do
      let content ← d.read source
      let (p, _) ← d.locate source
      let (q, there) ← d.locate target
      if endsAbove target then throw .refused
      match there with
      | some (.directory _) => throw .isDirectory
      | _ => return ⟨(d.root.drop p).put q (.file content)⟩

end Disk

end EncodedQuery

/-
  EncodedQuery.Settings.Document
  ──────────────────────────────
  **SETTINGS DOCUMENTS.**

  A settings document is a list of lines: comments, section headers between
  brackets, and entries with a key, an equals sign and a value.  Values are
  strings, numbers, moments, truth values, lists of values, and objects with
  entries of their own.  A header between doubled brackets adds a section to a
  list of them.  The document is read as one object.

  An object is open to further entries until something closes it: a section
  has one header, an object that keys with points made gets no header later,
  and what a value is made of stays as it is.

  `read` gives the object, or says why the text is no such document.  Ends of
  lines are line feeds.
-/
import EncodedQuery.Settings.Quoted
import EncodedQuery.Settings.Scalar

namespace EncodedQuery.Settings

/-! ## §1. Between things. -/

/-- The text behind a comment: its end of line, or a character that no comment may have. -/
def skipComment (t : Text) : Text := t.dropWhile isPlain

/-- The text without blanks, line ends and comments in front; every step uses up at least one
character, so `fuel` is the length of the text. -/
def skipGaps : Nat → Text → Text
  | 0, t => t
  | fuel + 1, t =>
      match t with
      | '#' :: rest => skipGaps fuel (skipComment rest)
      | c :: rest =>
          if isSpace c ∨ c = '\n' then skipGaps fuel rest else c :: rest
      | [] => []

/-- The text behind the end of a line on which nothing but a comment is left. -/
def endOfLine? (t : Text) : Option Text :=
  let t := skipSpace t
  match (match t with | '#' :: rest => skipComment rest | _ => t) with
  | [] => some []
  | '\n' :: rest => some rest
  | _ => none

/-! ## §2. Keys. -/

/-- A character of a key without quotation marks. -/
def isKeyChar (c : CodePoint) : Bool := c.isAlphanum ∨ c = '_' ∨ c = '-'

/-- A key, and the rest. -/
def key? : Text → Option (Text × Text)
  | '"' :: rest => stringBody? (rest.length + 1) rest
  | '\'' :: rest => literalBody? rest
  | t =>
      let k := t.takeWhile isKeyChar
      if k.isEmpty then none else some (k, t.dropWhile isKeyChar)

/-- Keys with points between them, and the rest; `fuel` bounds their number. -/
def keys? : Nat → Text → Option (List Text × Text)
  | 0, _ => none
  | fuel + 1, t => do
      let (k, rest) ← key? (skipSpace t)
      match skipSpace rest with
      | '.' :: rest => do
          let (ks, rest) ← keys? fuel rest
          return (k :: ks, rest)
      | rest => return ([k], rest)

/-- The keys of an entry, and the text of its value. -/
def entryKeys (t : Text) : Except Fault (List Text × Text) := do
  let (ks, rest) ← orMalformed (keys? (t.length + 1) t)
  return (ks, skipSpace (← orMalformed (Text.dropHead? rest "=")))

/-! ## §3. Objects in objects. -/

/-- A change of the members of an object. -/
abbrev Edit := List (Text × Json) → Option (List (Text × Json))

/-- Changes the object under a row of keys; what is missing on the way is made.  With `lists` the
key of a list of objects stands for the last of them; nothing else has keys. -/
def within (lists : Bool) (edit : Edit) : List Text → Edit
  | [], ms => edit ms
  | k :: ks, ms => do
      let inner ← match Json.lookup? k ms with
        | none => return Json.put k (.object (← within lists edit ks [])) ms
        | some (.object inner) => pure (inner, fun changed => Json.object changed)
        | some (.list items) =>
            match lists, items.getLast? with
            | true, some (.object inner) =>
                pure (inner, fun changed => Json.list (items.dropLast ++ [.object changed]))
            | _, _ => none
        | some _ => none
      return Json.put k (inner.2 (← within lists edit ks inner.1)) ms

/-- Gives a value to a key that has none. -/
def bind (k : Text) (v : Json) : Edit := fun ms =>
  if (Json.lookup? k ms).isSome then none else some (Json.put k v ms)

/-- Adds an empty object to the list of a key. -/
def extend (k : Text) : Edit := fun ms =>
  match Json.lookup? k ms with
  | none => some (Json.put k (.list [.object []]) ms)
  | some (.list items) => some (Json.put k (.list (items ++ [.object []])) ms)
  | some _ => none

/-- Applies an edit that needs a last key under the keys before it. -/
def atLast (lists : Bool) (edit : Text → Edit) (ks : List Text) : Edit :=
  match ks.getLast? with
  | none => fun _ => none
  | some k => within lists (edit k) ks.dropLast

/-- The value has parts: it is an object or a list. -/
def hasParts : Json → Bool
  | .object _ | .list _ => true
  | _ => false

/-- One of some places is `p` or lies above it. -/
def isCovered (places : List (List Text)) (p : List Text) : Bool :=
  places.any (fun q => q.isPrefixOf p)

/-! ## §4. Values. -/

mutual
/-- A value, and the rest.  Every step uses up at least one character, so `fuel` is the length of
the text; `room` bounds the nesting, of which a list takes two and an object three. -/
def value (room : Nat) : Nat → Text → Except Fault (Json × Text)
  | 0, _ => .error .malformedSettings
  | fuel + 1, t =>
      match t with
      | '[' :: rest => do
          if room ≤ 2 then throw .tooDeep
          let (vs, rest) ← items (room - 2) fuel (skipGaps rest.length rest)
          return (.list vs, rest)
      | '\x7b' :: rest => do
          if room ≤ 3 then throw .tooDeep
          match skipSpace rest with
          | '\x7d' :: rest => return (.object [], rest)
          | rest => do
              let (ms, rest) ← entries (room - 3) fuel [] [] rest
              return (.object ms, rest)
      | t =>
          match string? t with
          | some body => do
              let (s, rest) ← orMalformed body
              return (.text s, rest)
          | none => do
              let (v, rest) ← orMalformed (scalar? t)
              return (← v, rest)

/-- The items of a list up to its closing bracket, and the rest. -/
def items (room : Nat) : Nat → Text → Except Fault (List Json × Text)
  | 0, _ => .error .malformedSettings
  | fuel + 1, t =>
      match t with
      | ']' :: rest => .ok ([], rest)
      | t => do
          let (v, rest) ← value room fuel t
          match skipGaps rest.length rest with
          | ',' :: rest => do
              let (vs, rest) ← items room fuel (skipGaps rest.length rest)
              return (v :: vs, rest)
          | ']' :: rest => return ([v], rest)
          | _ => throw .malformedSettings

/-- The members of an object up to its closing brace, and the rest; `closed` are the members so
far that have parts. -/
def entries (room : Nat) : Nat → List (List Text) → List (Text × Json) → Text →
    Except Fault (List (Text × Json) × Text)
  | 0, _, _, _ => .error .malformedSettings
  | fuel + 1, closed, ms, t => do
      let (ks, rest) ← entryKeys t
      let (v, rest) ← value room fuel rest
      if isCovered closed ks then throw .malformedSettings
      let ms ← orMalformed (atLast false (fun k => bind k v) ks ms)
      match skipSpace rest with
      | '\x7d' :: rest => return (ms, rest)
      | ',' :: rest =>
          entries room fuel (if hasParts v then ks :: closed else closed) ms (skipSpace rest)
      | _ => throw .malformedSettings
end

/-! ## §5. Lines. -/

/-- What the lines so far have made. -/
structure Reading where
  /-- The section that entries go to. -/
  here : List Text := []
  /-- The sections that get no further header, and that keys with points do not lead through. -/
  closed : List (List Text) := []
  /-- The objects that keys with points made since the last header; it closes them. -/
  made : List (List Text) := []
  /-- The values with parts, which nothing is added to. -/
  whole : List (List Text) := []
  /-- The object of the document. -/
  members : List (Text × Json) := []

namespace Reading

/-- The objects that a row of keys under `here` makes on its way to the last key. -/
def onWay (here : List Text) : List Text → List (List Text)
  | [] | [_] => []
  | k :: ks => (here ++ [k]) :: onWay (here ++ [k]) ks

/-- An entry. -/
def enter (r : Reading) (ks : List Text) (v : Json) : Except Fault Reading := do
  let path := r.here ++ ks
  let way := onWay r.here ks
  if way.any (fun p => r.closed.any (fun q => q = p)) then throw .malformedSettings
  if isCovered r.whole path.dropLast then throw .malformedSettings
  let members ← orMalformed (atLast true (fun k => bind k v) path r.members)
  return { r with made := way ++ r.made, members,
                  whole := if hasParts v then path :: r.whole else r.whole }

/-- The header of a section. -/
def openSection (r : Reading) (ks : List Text) : Except Fault Reading := do
  let closed := r.made ++ r.closed
  if closed.any (fun p => p = ks) || isCovered r.whole ks then throw .malformedSettings
  let members ← orMalformed (within true some ks r.members)
  return { r with here := ks, closed := ks :: closed, made := [], members }

/-- The header of one more section in a list; the sections below the one before are forgotten. -/
def addSection (r : Reading) (ks : List Text) : Except Fault Reading := do
  if isCovered r.whole ks then throw .malformedSettings
  let apart (p : List Text) : Bool := !ks.isPrefixOf p
  let members ← orMalformed (atLast true extend ks r.members)
  return { here := ks, closed := ks :: (r.made ++ r.closed).filter apart, made := [],
           whole := r.whole.filter apart, members }

/-- The text behind the header whose keys end at `rest`, with as many closing brackets. -/
def behindHeader (brackets rest : Text) : Except Fault Text :=
  orMalformed (Text.dropHead? rest brackets >>= endOfLine?)

/-- Reads all lines of a text; every line uses up at least one character, so `fuel` is the length
of the text. -/
def lines (room : Nat) : Nat → Reading → Text → Except Fault Reading
  | 0, _, _ => .error .malformedSettings
  | fuel + 1, r, t =>
      match skipGaps t.length t with
      | [] => .ok r
      | '[' :: '[' :: rest => do
          let (ks, rest) ← orMalformed (keys? (rest.length + 1) rest)
          lines room fuel (← r.addSection ks) (← behindHeader "]]" rest)
      | '[' :: rest => do
          let (ks, rest) ← orMalformed (keys? (rest.length + 1) rest)
          lines room fuel (← r.openSection ks) (← behindHeader "]" rest)
      | t => do
          let (ks, rest) ← entryKeys t
          let (v, rest) ← value room (rest.length + 1) rest
          lines room fuel (← r.enter ks v) (← orMalformed (endOfLine? rest))

end Reading

/-- The object that a settings document writes, with values nested up to `deepest`. -/
def read (t : Text) (deepest : Nat) : Except Fault (List (Text × Json)) := do
  return (← Reading.lines deepest (t.length + 1) {} t).members

end EncodedQuery.Settings

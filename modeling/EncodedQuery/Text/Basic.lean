/-
  EncodedQuery.Text.Basic
  ───────────────────────
  **TEXT IS A LIST OF CODE POINTS.**

  Lengths, cursors and cuts of this library count code points, so text is the
  plain list of them and every law of `List` applies.  A string literal is read
  as such a list wherever one is expected.

  Held here: the questions asked of text (`startsWith`, `endsWith`,
  `contains`, `isOneOf`, `occurrences`), the cuts (`cut`, `join`, `firstItems`),
  the ends of lines, and decimal numerals of naturals and integers.
-/
import EncodedQuery.Text.CodePoint

namespace EncodedQuery

/-- A sequence of Unicode code points. -/
abbrev Text := List CodePoint

instance : Coe String Text := ⟨fun s => s.toList.map .char⟩

/-- The text of a string. -/
def Text.ofString (s : String) : Text := s

/-- The string of a text, which has none when it holds a half. -/
def Text.string? (t : Text) : Option String := (t.mapM CodePoint.toChar?).map String.ofList

/-- The text holds no half, so it can be encoded. -/
def Text.isEncodable (t : Text) : Bool := t.all CodePoint.isChar

/-- The first `n` items of a text or another list; for a negative `n`, all but the last `-n`. -/
def firstItems {α : Type} (n : Int) (items : List α) : List α :=
  if 0 ≤ n then items.take n.toNat else items.take (items.length - n.natAbs)

namespace Text

/-! ## §1. Searching. -/

/-- `t` begins with `head`. -/
def startsWith (t head : Text) : Bool := head.isPrefixOf t

/-- `t` ends with `tail`. -/
def endsWith (t tail : Text) : Bool := tail.isSuffixOf t

/-- `needle` occurs somewhere in `t`. -/
def contains : Text → Text → Bool
  | [], needle => needle.isEmpty
  | c :: rest, needle => needle.isPrefixOf (c :: rest) || contains rest needle

/-- `t` is one of the texts. -/
def isOneOf (t : Text) (texts : List Text) : Bool := texts.any (fun s => s = t)

/-- Occurrences counted from the left; after each one the scan goes on behind it. -/
def occurrences (t needle : Text) : Nat := go 0 t
where
  /-- `skip` code points still belong to the last occurrence. -/
  go : Nat → Text → Nat
    | _, [] => 0
    | skip + 1, _ :: rest => go skip rest
    | 0, c :: rest =>
        if needle.isPrefixOf (c :: rest) then 1 + go (needle.length - 1) rest else go 0 rest

/-- The rest of `t` behind `head`, when `t` begins with it. -/
def dropHead? (t head : Text) : Option Text :=
  if head.isPrefixOf t then some (t.drop head.length) else none

/-! ## §2. Cutting and joining. -/

/-- The pieces between the separators; there is always at least one. -/
def cut (sep : CodePoint) : Text → List Text
  | [] => [[]]
  | c :: rest =>
      if c = sep then [] :: cut sep rest
      else match cut sep rest with
        | [] => [[c]]
        | piece :: pieces => (c :: piece) :: pieces

/-- The pieces with `sep` between neighbours. -/
def join (sep : Text) (pieces : List Text) : Text := sep.intercalate pieces

/-- The text with a line feed for every end of line: a carriage return ends a line as well, and
with a line feed behind it the two are one end. -/
def withLineFeeds : Text → Text
  | '\r' :: '\n' :: rest => .char '\n' :: withLineFeeds rest
  | '\r' :: rest => .char '\n' :: withLineFeeds rest
  | c :: rest => c :: withLineFeeds rest
  | [] => []

/-! ## §3. Order. -/

/-- The order of two texts: by their first code points that differ, a head before its
extensions. -/
def compare : Text → Text → Ordering
  | [], [] => .eq
  | [], _ :: _ => .lt
  | _ :: _, [] => .gt
  | a :: as, b :: bs =>
      if a.toNat < b.toNat then .lt
      else if b.toNat < a.toNat then .gt
      else compare as bs

/-- `a` stands before or beside `b`. -/
def le (a b : Text) : Bool := compare a b ≠ .gt

/-! ## §4. Numerals. -/

/-- The decimal numeral of a natural number. -/
def ofNat (n : Nat) : Text := (Nat.toDigits 10 n).map .char

/-- The decimal numeral of an integer; only negative numbers carry a sign. -/
def ofInt : Int → Text
  | .ofNat n => ofNat n
  | .negSucc n => .char '-' :: ofNat (n + 1)

/-- `t` behind as many zeros as bring it to `width` code points. -/
def zeroPadded (width : Nat) (t : Text) : Text :=
  (List.replicate (width - t.length) '0' : Text) ++ t

/-- The numeral of `n` in at least two digits. -/
def twoDigits (n : Nat) : Text := zeroPadded 2 (ofNat n)

end Text

end EncodedQuery

/-
  EncodedQuery.Query.Scan
  ───────────────────────
  **SCANS OF A TEXT FROM ITS FRONT.**

  A scan looks at the front of a text: it fails, or it gives what it found and
  the text behind it.  Scans are put together without going back: the first
  alternative that succeeds is kept, whatever comes behind it, and a row ends
  where its next item fails.
-/
import EncodedQuery.Text.Basic

namespace EncodedQuery

/-- What a scan finds at the front of a text, and the text behind it. -/
abbrev Scan (α : Type) := Text → Option (α × Text)

namespace Scan

variable {α β : Type}

/-! ## §1. Single scans. -/

/-- A blank that may stand in front of an item. -/
def isGap (c : CodePoint) : Bool := c = ' ' ∨ c = '\t' ∨ c = '\n' ∨ c = '\r'

/-- The scan behind the gap at the front. -/
def behindGap (p : Scan α) : Scan α := fun t => p (t.dropWhile isGap)

/-- Exactly the characters of `token`, which stand for `a`. -/
def exactly (token : Text) (a : α) : Scan α :=
  behindGap (fun t => (Text.dropHead? t token).map (fun rest => (a, rest)))

/-- The end of the text. -/
def atEnd : Scan Unit := behindGap (fun t => if t.isEmpty then some ((), []) else none)

/-! ## §2. Scans put together. -/

/-- One scan, and behind it the one that its finding asks for. -/
def andThen (p : Scan α) (q : α → Scan β) : Scan β :=
  fun t => (p t).bind (fun (a, rest) => q a rest)

/-- The first alternative that succeeds. -/
def firstOf (ps : List (Scan α)) : Scan α := fun t => ps.findSome? (fun p => p t)

/-- Items in a row, at most `n` of them; the row ends where the next item fails. -/
def upTo (p : Scan α) : Nat → Scan (List α)
  | 0, t => some ([], t)
  | n + 1, t =>
      match p t with
      | none => some ([], t)
      | some (a, rest) => (upTo p n rest).map (fun (found, last) => (a :: found, last))

/-- All the items in a row; each one takes a character at least. -/
def many (p : Scan α) : Scan (List α) := fun t => upTo p t.length t

end Scan

end EncodedQuery

/-
  EncodedQuery.Text.Blank
  ───────────────────────
  **WHITE SPACE.**

  The code points with the Unicode property White_Space, and the four
  information separators U+001C to U+001F.  `strip` cuts them from both ends
  of a text, `words` cuts a text at them.
-/
import EncodedQuery.Text.Basic

namespace EncodedQuery.Text

/-! ## §1. The class. -/

/-- White space and the information separators. -/
def isBlank (c : CodePoint) : Bool :=
  let n := c.toNat
  (9 ≤ n && n ≤ 13) || (28 ≤ n && n ≤ 32) || n == 0x85 || n == 0xA0 || n == 0x1680 ||
    (0x2000 ≤ n && n ≤ 0x200A) || n == 0x2028 || n == 0x2029 || n == 0x202F || n == 0x205F ||
    n == 0x3000

/-! ## §2. Cutting the ends. -/

/-- Without the blanks at the front. -/
def stripLeft (t : Text) : Text := t.dropWhile isBlank

/-- Without the blanks at the back. -/
def stripRight (t : Text) : Text := (t.reverse.dropWhile isBlank).reverse

/-- Without the blanks at both ends. -/
def strip (t : Text) : Text := stripRight (stripLeft t)

/-! ## §3. Words. -/

/-- The maximal runs without a blank. -/
def words (t : Text) : List Text := (go t).filter (fun w => !w.isEmpty)
where
  /-- The pieces between single blanks, empty ones included. -/
  go : Text → List Text
    | [] => [[]]
    | c :: rest =>
        if isBlank c then [] :: go rest
        else match go rest with
          | [] => [[c]]
          | piece :: pieces => (c :: piece) :: pieces

end EncodedQuery.Text

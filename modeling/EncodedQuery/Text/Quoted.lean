/-
  EncodedQuery.Text.Quoted
  ────────────────────────
  **TEXT QUOTED INSIDE MESSAGES.**

  A message shows the text that it complains about between quotation marks, so
  that blanks and control characters stay visible.  Single marks are the rule;
  a text with a single mark and no double mark stands between double ones.
-/
import EncodedQuery.Text.Basic
import EncodedQuery.Text.Printable

namespace EncodedQuery.Text

/-- A numeral in lower case hexadecimal digits, at least `width` of them. -/
def hexPadded (width n : Nat) : Text := zeroPadded width ((Nat.toDigits 16 n).map .char)

/-- One code point between marks `mark`. -/
def quotedChar (mark c : CodePoint) : Text :=
  if c = mark ∨ c = '\\' then ['\\', c]
  else if c = '\n' then "\\n"
  else if c = '\r' then "\\r"
  else if c = '\t' then "\\t"
  else if isPrintable c then [c]
  else if c.toNat < 0x100 then "\\x" ++ hexPadded 2 c.toNat
  else if c.toNat < 0x10000 then "\\u" ++ hexPadded 4 c.toNat
  else "\\U" ++ hexPadded 8 c.toNat

/-- The mark that surrounds `t`. -/
def quoteMark (t : Text) : CodePoint := if .char '\'' ∈ t ∧ .char '"' ∉ t then '"' else '\''

/-- `t` between quotation marks. -/
def quoted (t : Text) : Text :=
  let mark := quoteMark t
  [mark] ++ t.flatMap (quotedChar mark) ++ [mark]

end EncodedQuery.Text

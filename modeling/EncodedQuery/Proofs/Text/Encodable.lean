/-
  EncodedQuery.Proofs.Text.Encodable
  ──────────────────────────────────
  **TEXTS THAT CAN BE ENCODED.**

  A text is encoded when no half of a surrogate pair is in it.  String literals
  and numerals hold none, and a text that is put together holds one only if a
  part of it does.

  Main results: `isEncodable_append`, `isEncodable_string`, `isEncodable_ofInt`.
-/
import EncodedQuery.Proofs.Text.Numeral

namespace EncodedQuery.Text

@[simp] theorem isEncodable_nil : isEncodable [] = true := rfl

@[simp] theorem isEncodable_append (a b : Text) :
    isEncodable (a ++ b) = (a.isEncodable && b.isEncodable) := List.all_append

/-- A string literal is of characters. -/
theorem isEncodable_string (s : String) : isEncodable s = true := by
  refine List.all_eq_true.mpr fun c hc => ?_
  obtain ⟨c, -, rfl⟩ := List.mem_map.mp hc
  rfl

theorem isChar_of_isAsciiDigit {c : CodePoint} (h : isAsciiDigit c = true) : c.isChar = true := by
  obtain ⟨d, hd, rfl⟩ := exists_digit h
  rfl

theorem isEncodable_ofNat (n : Nat) : (ofNat n).isEncodable = true :=
  List.all_eq_true.mpr fun c hc => isChar_of_isAsciiDigit (isAsciiDigit_of_mem_ofNat n c hc)

theorem isEncodable_twoDigits (n : Nat) : (twoDigits n).isEncodable = true :=
  List.all_eq_true.mpr fun c hc => isChar_of_isAsciiDigit (isAsciiDigit_of_mem_zeroPadded 2 n c hc)

theorem isEncodable_ofInt (n : Int) : (ofInt n).isEncodable = true := by
  rw [ofInt_eq, isEncodable_append, isEncodable_ofNat, Bool.and_true]
  split
  · exact isEncodable_string "-"
  · exact isEncodable_string ""

end EncodedQuery.Text

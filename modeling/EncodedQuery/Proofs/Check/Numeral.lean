/-
  EncodedQuery.Proofs.Check.Numeral
  ─────────────────────────────────
  **THE CHARACTERS OF NUMERALS.**

  The forms of numbers that the check knows are put together from digits, signs, a
  point and the letter of an exponent.

  Main result: `numeralChars_of_isDecimalText`.
-/
import EncodedQuery.Check.Condition
import Mathlib.Data.List.TakeWhile

namespace EncodedQuery.Check

/-- A digit, a sign, a point, or the letter of an exponent. -/
def isNumeralChar (c : CodePoint) : Bool := Text.isDigit c || decide (c ∈ ("+-.eE" : Text))

/-- All characters are those of numerals. -/
def NumeralChars (t : Text) : Prop := ∀ c ∈ t, isNumeralChar c = true

theorem numeralChars_cons {c : CodePoint} {t : Text} (hc : c ∈ ("+-.eE" : Text))
    (ht : NumeralChars t) :
    NumeralChars (c :: t) := by
  refine List.forall_mem_cons.mpr ⟨?_, ht⟩
  rw [isNumeralChar, decide_eq_true hc, Bool.or_true]

theorem numeralChars_of_digits {t : Text} (h : ∀ c ∈ t, Text.isDigit c = true) :
    NumeralChars t := by
  intro c hc
  rw [isNumeralChar, h c hc, Bool.true_or]

theorem numeralChars_of_unsigned {t : Text} (h : NumeralChars (unsigned t)) : NumeralChars t := by
  unfold unsigned at h
  split at h
  · exact numeralChars_cons (by decide) h
  · exact numeralChars_cons (by decide) h
  · exact h

theorem numeralChars_of_isIntegerText {t : Text} (h : isIntegerText t = true) : NumeralChars t := by
  unfold isIntegerText isDigits at h
  rw [Bool.and_eq_true, List.all_eq_true] at h
  exact numeralChars_of_unsigned (numeralChars_of_digits h.2)

theorem numeralChars_of_isExponentText {t : Text} (h : isExponentText t = true) :
    NumeralChars t := by
  unfold isExponentText at h
  split at h
  · exact nofun
  next c rest =>
    rw [Bool.and_eq_true, decide_eq_true_eq] at h
    refine numeralChars_cons ?_ (numeralChars_of_isIntegerText h.2)
    rcases h.1 with rfl | rfl <;> decide

/-- Digits at the front of such a rest. -/
theorem numeralChars_of_dropWhile {t : Text} (h : NumeralChars (t.dropWhile Text.isDigit)) :
    NumeralChars t := by
  unfold NumeralChars
  rw [← List.takeWhile_append_dropWhile (p := Text.isDigit) (l := t)]
  refine List.forall_mem_append.mpr ⟨numeralChars_of_digits ?_, h⟩
  exact fun c hc => List.mem_takeWhile_imp hc

/-- **A decimal number is written in the characters of numerals.** -/
theorem numeralChars_of_isDecimalText {t : Text} (h : isDecimalText t = true) : NumeralChars t := by
  refine numeralChars_of_unsigned (numeralChars_of_dropWhile ?_)
  unfold isDecimalText at h
  dsimp only at h
  split at h
  next rest hrest =>
    rw [Bool.and_eq_true] at h
    rw [hrest]
    refine numeralChars_cons (by decide) (numeralChars_of_dropWhile ?_)
    exact numeralChars_of_isExponentText h.2
  next =>
    rw [Bool.and_eq_true] at h
    exact numeralChars_of_isExponentText h.2

end EncodedQuery.Check

/-
  EncodedQuery.Proofs.Number.Whole
  ────────────────────────────────
  **WHOLE NUMBERS, WRITTEN AND READ.**

  A whole number is written with a sign, if it is negative, and digits: there is no
  blank, no low line, and nothing behind them.  So it is read as the number it is,
  unless it has more digits than are read.

  Main results:
    • `readInt_ofInt` — a whole number is read as what was written.
-/
import EncodedQuery.Number.Numeral
import EncodedQuery.Proofs.Text.Numeral
import Mathlib.Data.List.TakeWhile

namespace EncodedQuery.Number

/-! ## §1. Digits. -/

/-- What a digit is when a numeral is read: no blank, no sign and no low line. -/
theorem of_isAsciiDigit {c : CodePoint} (h : Text.isAsciiDigit c = true) :
    Text.isDigit c = true ∧ isBlank c = false ∧ c ≠ '_' ∧ c ≠ '-' ∧ c ≠ '+' := by
  have hall : ∀ d < 10, Text.isDigit (Text.digit d) = true ∧ isBlank (Text.digit d) = false ∧
      Text.digit d ≠ '_' ∧ Text.digit d ≠ '-' ∧ Text.digit d ≠ '+' := by decide
  obtain ⟨d, hd, rfl⟩ := Text.exists_digit h
  exact hall d hd

variable {ds : Text} (hds : ∀ c ∈ ds, Text.isAsciiDigit c = true)
include hds

/-- Digits have no low lines to leave out. -/
theorem withoutLowLines?_of_digits (afterDigit : Bool) :
    withoutLowLines?.go afterDigit ds = some ds := by
  induction ds generalizing afterDigit with
  | nil => rw [withoutLowLines?.go]
  | cons d ds ih =>
      obtain ⟨hd, hrest⟩ := List.forall_mem_cons.mp hds
      rw [withoutLowLines?.go, ih hrest]
      · rfl
      · exact (of_isAsciiDigit hd).2.2.1

/-- Digits are read as far as they go. -/
theorem takeWhile_of_digits : ds.takeWhile (fun c => Text.isDigit c || c = '_') = ds :=
  List.takeWhile_eq_self_iff.mpr fun c hc => by rw [(of_isAsciiDigit (hds c hc)).1, Bool.true_or]

/-- Nothing is stripped from digits, nor from a sign with digits behind it. -/
theorem strip_of_digits (sign : Bool) :
    strip ((if sign then "-" else "") ++ ds) = (if sign then "-" else "") ++ ds := by
  have hblank : ∀ c ∈ (if sign then "-" else "") ++ ds, isBlank c = false := by
    intro c hc
    rcases List.mem_append.mp hc with hc | hc
    · cases sign
      · cases hc
      · rw [List.mem_singleton.mp hc]
        decide
    · exact (of_isAsciiDigit (hds c hc)).2.1
  have hdrop : ∀ s : Text, (∀ c ∈ s, isBlank c = false) → s.dropWhile isBlank = s := by
    intro s hs
    cases s with
    | nil => rfl
    | cons c rest => rw [List.dropWhile_cons, hs c List.mem_cons_self, if_neg Bool.false_ne_true]
  rw [strip, hdrop _ hblank, hdrop _ (fun c hc => hblank c (List.mem_reverse.mp hc)),
    List.reverse_reverse]

/-- A sign is told from the digits behind it. -/
theorem signed_of_digits (sign : Bool) :
    signed ((if sign then "-" else "") ++ ds) = (sign, ds) := by
  cases sign with
  | true => rfl
  | false =>
      cases ds with
      | nil => rfl
      | cons d ds =>
          obtain ⟨-, -, -, hminus, hplus⟩ := of_isAsciiDigit (hds d List.mem_cons_self)
          show signed (d :: ds) = _
          unfold signed
          split
          next heq => exact absurd (List.cons.inj heq).1 hminus
          next heq => exact absurd (List.cons.inj heq).1 hplus
          next => rfl

omit hds

/-! ## §2. Whole numbers. -/

/-- A number can be written if it has no more digits than the longest. -/
theorem isWritable_iff_length {n : Int} :
    isWritable n = true ↔ (Text.ofNat n.natAbs).length ≤ longestWhole := by
  have hlength : ∀ k, 0 < k → ((Text.ofNat n.natAbs).length ≤ k ↔ n.natAbs < tenTo k) :=
    fun _ hk => Text.length_ofNat_le_iff hk
  exact decide_eq_true_iff.trans (hlength longestWhole (by decide)).symm

/-- A number with no more digits than may be written can be written. -/
theorem isWritable_of_lt_tenTo {n : Int} {k : Nat} (hk : k ≤ longestWhole)
    (h : n.natAbs < tenTo k) : isWritable n = true := by
  have hle : ∀ m, k ≤ m → tenTo k ≤ tenTo m := fun _ hm => Nat.pow_le_pow_right (by decide) hm
  exact decide_eq_true (Nat.lt_of_lt_of_le h (hle _ hk))

/-- A number of one digit can be written. -/
theorem isWritable_of_lt {n : Int} (h : n.natAbs < 10) : isWritable n = true :=
  isWritable_of_lt_tenTo (k := 1) (by decide) h

/-- **A whole number is read as what was written**, if it has no more digits than are read. -/
theorem readInt_ofInt (n : Int) :
    readInt (Text.ofInt n) =
      if isWritable n then .ok n else .error (.tooLong (Text.ofNat n.natAbs).length) := by
  have hdigits := Text.isAsciiDigit_of_mem_ofNat n.natAbs
  have hform : Text.ofInt n
      = (if decide (n < 0) then "-" else "") ++ Text.ofNat n.natAbs := by
    rw [Text.ofInt_eq]
    simp only [decide_eq_true_eq]
  have hlong : longestWhole < (Text.ofNat n.natAbs).length ↔ ¬ isWritable n = true :=
    Nat.not_le.symm.trans (not_congr isWritable_iff_length.symm)
  have hempty : (Text.ofNat n.natAbs).isEmpty = false :=
    List.isEmpty_eq_false_iff.mpr (Text.ofNat_ne_nil _)
  have hsigned : (if decide (n < 0) = true then -(n.natAbs : Int) else n.natAbs) = n := by
    simp only [decide_eq_true_eq]
    split <;> omega
  rw [readInt, hform, strip_of_digits hdigits, signed_of_digits hdigits]
  dsimp only
  rw [takeWhile_of_digits hdigits, withoutLowLines?, withoutLowLines?_of_digits hdigits]
  dsimp only
  -- nothing is behind the digits, so that only their number can be in the way
  by_cases hwritable : isWritable n = true
  · rw [if_neg (fun h => hlong.mp h hwritable), hempty,
      Text.digitsValue_ofNat, hsigned, if_pos hwritable]
    simp
  · rw [if_pos (hlong.mpr hwritable), if_neg hwritable]

end EncodedQuery.Number

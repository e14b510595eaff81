/-
  EncodedQuery.Proofs.Text.Numeral
  ────────────────────────────────
  **NUMERALS AND THE DIGITS IN THEM.**

  The numeral of a natural number is the numeral of its tens followed by its
  ones, and padding with zeros keeps this up where the tens run out.  What a
  numeral is read as follows from that, digit by digit.

  Main results:
    • `zeroPadded_succ` — a padded numeral ends in the ones of its number,
    • `digitsValue_zeroPadded` — it is read as that number,
    • `head_ofNat` — only the numeral of zero begins with a zero,
    • `length_ofNat_le_iff` — how long a numeral gets,
    • `exists_ofInt_eq` — a whole number is written as its digits, a sign before them if need be.
-/
import EncodedQuery.Text.Digit
import Mathlib.Data.Nat.Digits.Defs

namespace EncodedQuery.Text

/-! ## §1. Single digits. -/

theorem digitValue?_digit : ∀ d < 10, digitValue? (digit d) = some d := by decide

theorem isAsciiDigit_digit : ∀ d < 10, isAsciiDigit (digit d) = true := by decide

/-- There are no other ones. -/
theorem exists_digit {c : CodePoint} (h : isAsciiDigit c = true) : ∃ d < 10, digit d = c := by
  have hall : ∀ n < 58, 48 ≤ n → digit (n - 48) = CodePoint.ofNat n := by decide
  have hbounds : '0' ≤ c ∧ c ≤ '9' := by
    by_contra hnot
    rw [isAsciiDigit, asciiDigitValue?, if_neg hnot] at h
    cases h
  have hlow : 48 ≤ c.toNat := hbounds.1
  have hhigh : c.toNat ≤ 57 := hbounds.2
  refine ⟨c.toNat - 48, by omega, ?_⟩
  rw [hall _ (Nat.lt_succ_of_le hhigh) hlow, CodePoint.ofNat_toNat]

/-- Only zero is written as a zero. -/
theorem digit_eq_zero_iff : ∀ d < 10, (digit d = '0' ↔ d = 0) := by decide

/-! ## §2. Numerals. -/

theorem ofNat_of_lt {n : Nat} (h : n < 10) : ofNat n = [digit n] := by
  rw [ofNat, Nat.toDigits_of_lt_base h]
  rfl

theorem ofNat_of_le {n : Nat} (h : 10 ≤ n) : ofNat n = ofNat (n / 10) ++ [digit (n % 10)] := by
  rw [ofNat, Nat.toDigits_of_base_le (by decide) h, List.map_append]
  rfl

theorem ofNat_ne_nil (n : Nat) : ofNat n ≠ [] :=
  List.map_eq_nil_iff.not.mpr Nat.toDigits_ne_nil

/-- Padded to one place, a numeral is itself. -/
theorem zeroPadded_one (n : Nat) : zeroPadded 1 (ofNat n) = ofNat n := by
  have hlen : 1 ≤ (ofNat n).length := List.length_pos_iff.mpr (ofNat_ne_nil n)
  rw [zeroPadded, Nat.sub_eq_zero_of_le hlen, List.replicate_zero, List.nil_append]

/-- **A padded numeral ends in the ones of its number**, and the tens stand before them. -/
theorem zeroPadded_succ (width n : Nat) :
    zeroPadded (width + 2) (ofNat n) =
      zeroPadded (width + 1) (ofNat (n / 10)) ++ [digit (n % 10)] := by
  by_cases h : n < 10
  · rw [ofNat_of_lt h, Nat.div_eq_of_lt h, Nat.mod_eq_of_lt h, ofNat_of_lt (by decide)]
    have hzeros :
        (List.replicate (width + 1) '0' : Text) = (List.replicate width '0' : Text) ++ "0" :=
      List.replicate_succ'
    simp [zeroPadded, hzeros, digit, Nat.digitChar]
  · rw [ofNat_of_le (Nat.le_of_not_lt h)]
    simp [zeroPadded]

theorem length_zeroPadded {width : Nat} :
    ∀ {n : Nat}, n < 10 ^ (width + 1) → (zeroPadded (width + 1) (ofNat n)).length = width + 1 := by
  induction width with
  | zero =>
      intro n h
      rw [zeroPadded_one, ofNat_of_lt (by simpa using h)]
      rfl
  | succ width ih =>
      intro n h
      rw [zeroPadded_succ, List.length_append, ih (by rw [pow_succ] at h; omega)]
      rfl

theorem twoDigits_eq {n : Nat} (h : n < 100) :
    twoDigits n = [digit (n / 10), digit (n % 10)] := by
  rw [twoDigits, zeroPadded_succ, zeroPadded_one, ofNat_of_lt (by omega)]
  rfl

theorem zeroPadded_four {n : Nat} (h : n < 10000) :
    zeroPadded 4 (ofNat n) = [digit (n / 1000), digit (n / 100 % 10),
      digit (n / 10 % 10), digit (n % 10)] := by
  rw [zeroPadded_succ, zeroPadded_succ, zeroPadded_succ, zeroPadded_one, ofNat_of_lt (by omega)]
  simp only [Nat.div_div_eq_div_mul, List.cons_append, List.nil_append]

/-! ## §3. Reading them. -/

theorem digitsValue_concat (ds : Text) {d : Nat} (h : d < 10) :
    digitsValue (ds ++ [digit d]) = 10 * digitsValue ds + d := by
  rw [digitsValue, List.foldl_append]
  simp only [List.foldl_cons, List.foldl_nil, digitValue?_digit d h, Option.getD_some]
  rfl

/-- **A numeral is read as its number.** -/
theorem digitsValue_ofNat (n : Nat) : digitsValue (ofNat n) = n := by
  induction n using Nat.strongRecOn with
  | ind n ih =>
      by_cases h : n < 10
      · rw [ofNat_of_lt h]
        exact (digitsValue_concat [] h).trans (by simp [digitsValue])
      · rw [ofNat_of_le (Nat.le_of_not_lt h), digitsValue_concat _ (Nat.mod_lt _ (by decide)),
          ih (n / 10) (by omega)]
        omega

/-- **So is a padded numeral.** -/
theorem digitsValue_zeroPadded (width n : Nat) : digitsValue (zeroPadded width (ofNat n)) = n := by
  rw [zeroPadded]
  induction width - (ofNat n).length with
  | zero => exact digitsValue_ofNat n
  | succ zeros ih => exact ih

/-- All characters of a numeral are digits. -/
theorem isAsciiDigit_of_mem_ofNat (n : Nat) : ∀ c ∈ ofNat n, isAsciiDigit c = true := by
  induction n using Nat.strongRecOn with
  | ind n ih =>
      by_cases h : n < 10
      · rw [ofNat_of_lt h]
        intro c hc
        rw [List.mem_singleton.mp hc]
        exact isAsciiDigit_digit n h
      · rw [ofNat_of_le (Nat.le_of_not_lt h)]
        intro c hc
        rcases List.mem_append.mp hc with hc | hc
        · exact ih (n / 10) (by omega) c hc
        · rw [List.mem_singleton.mp hc]
          exact isAsciiDigit_digit _ (Nat.mod_lt _ (by decide))

theorem isAsciiDigit_of_mem_zeroPadded (width n : Nat) :
    ∀ c ∈ zeroPadded width (ofNat n), isAsciiDigit c = true := by
  intro c hc
  rcases List.mem_append.mp hc with hc | hc
  · rw [List.eq_of_mem_replicate hc]
    decide
  · exact isAsciiDigit_of_mem_ofNat n c hc

/-- **Only the numeral of zero begins with a zero.** -/
theorem head_ofNat {n : Nat} (h : 0 < n) : ∀ c ∈ (ofNat n).head?, c ≠ '0' := by
  induction n using Nat.strongRecOn with
  | ind n ih =>
      intro c hc
      by_cases hlt : n < 10
      · rw [ofNat_of_lt hlt] at hc
        cases hc
        rw [Ne, digit_eq_zero_iff n hlt]
        omega
      · obtain ⟨d, ds, htens⟩ := List.exists_cons_of_ne_nil (ofNat_ne_nil (n / 10))
        rw [ofNat_of_le (Nat.le_of_not_lt hlt), htens] at hc
        exact ih (n / 10) (by omega) (by omega) c (by rw [htens]; exact hc)

/-- No numeral but that of zero begins with a zero. -/
theorem ofNat_zero_or (n : Nat) : ofNat n = "0" ∨ ∀ c ∈ (ofNat n).head?, c ≠ '0' := by
  rcases Nat.eq_zero_or_pos n with rfl | hn
  · exact .inl rfl
  · exact .inr (head_ofNat hn)

/-- A numeral has at most so many digits if it is below that power of ten. -/
theorem length_ofNat_le_iff {n k : Nat} (hk : 0 < k) : (ofNat n).length ≤ k ↔ n < 10 ^ k := by
  rw [ofNat, List.length_map]
  exact Nat.length_toDigits_le_iff (by decide) hk

/-! ## §4. Signs. -/

/-- A whole number is written with its sign in front of its digits. -/
theorem ofInt_eq (n : Int) : ofInt n = (if n < 0 then "-" else "") ++ ofNat n.natAbs := by
  cases n with
  | ofNat m =>
      rw [if_neg (by simp)]
      rfl
  | negSucc m =>
      rw [if_pos (Int.negSucc_lt_zero m)]
      rfl

/-- It begins with a digit, or with a sign and a digit. -/
theorem exists_ofInt_eq (n : Int) :
    ∃ d ds, isAsciiDigit d = true ∧ (ofInt n = d :: ds ∨ ofInt n = .char '-' :: d :: ds) := by
  obtain ⟨d, ds, hds⟩ := List.exists_cons_of_ne_nil (ofNat_ne_nil n.natAbs)
  have hd := isAsciiDigit_of_mem_ofNat n.natAbs d (by rw [hds]; exact List.mem_cons_self)
  refine ⟨d, ds, hd, ?_⟩
  rw [ofInt_eq, hds]
  by_cases hneg : n < 0
  · exact .inr (by rw [if_pos hneg]; rfl)
  · exact .inl (by rw [if_neg hneg]; rfl)

end EncodedQuery.Text

/-
  EncodedQuery.Number.Rounding
  ────────────────────────────
  **ROUNDING TO SIGNIFICANT BITS.**

  A fraction is rounded to the nearest multiple of the power of two that leaves
  it 53 binary digits; a tie goes to the even multiple.  Fractions whose whole
  part has no more digits than that become whole.

  Main facts: `significant_of_lt` (a whole number of at most 53 bits stays as it
  is).
-/
import EncodedQuery.Number.Shortest

namespace EncodedQuery.Number

/-- `n / d` rounded to the nearest whole number, a tie to the even one. -/
def nearestQuotient (n d : Nat) : Nat :=
  let below := n / d
  let rest := n % d
  if 2 * rest < d ∨ (2 * rest = d ∧ below % 2 = 0) then below else below + 1

/-- `n / d` rounded to 53 significant bits. -/
def significant (n d : Nat) : Nat :=
  let unit := twoTo (Nat.log2 (n / d) - 52)
  nearestQuotient n (d * unit) * unit

/-- A quotient without a rest is not changed. -/
theorem nearestQuotient_one (n : Nat) : nearestQuotient n 1 = n := by
  simp [nearestQuotient, Nat.mod_one]

/-- A whole number of at most 53 bits is not changed. -/
theorem significant_of_lt {n : Nat} (h : n < 9007199254740992) : significant n 1 = n := by
  have log : Nat.log2 n - 52 = 0 := by
    have small : Nat.log2 n < 53 := by
      by_cases zero : n = 0
      · subst zero; decide
      · exact (Nat.log2_lt zero).2 h
    omega
  simp [significant, log, twoTo, nearestQuotient_one]

end EncodedQuery.Number

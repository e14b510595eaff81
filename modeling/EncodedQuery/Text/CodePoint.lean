/-
  EncodedQuery.Text.CodePoint
  ───────────────────────────
  **CODE POINTS.**

  A code point is a character, or one of the numbers that UTF-16 keeps for the
  halves of its pairs.  A half by itself stands for no character: text can hold
  it, but no encoding writes it.  A character literal is read as a code point
  wherever one is expected.

  Main facts: `ofNat_toNat`, `toNat_ofNat` (code points are the numbers below
  0x110000).
-/

namespace EncodedQuery

/-- A Unicode code point. -/
inductive CodePoint where
  /-- A character. -/
  | char (c : Char)
  /-- Half of a surrogate pair. -/
  | half (n : Fin 2048)
  deriving DecidableEq, Repr

namespace CodePoint

instance : Coe Char CodePoint := ⟨char⟩

/-- The number of a code point. -/
def toNat : CodePoint → Nat
  | char c => c.toNat
  | half n => 0xD800 + n

/-- The code point of a number; zero when there is none. -/
def ofNat (n : Nat) : CodePoint :=
  if h : 0xD800 ≤ n ∧ n < 0xE000 then half ⟨n - 0xD800, by omega⟩ else char (Char.ofNat n)

/-- Code points are ordered by their numbers. -/
instance : LE CodePoint := ⟨fun a b => a.toNat ≤ b.toNat⟩

instance (a b : CodePoint) : Decidable (a ≤ b) := inferInstanceAs (Decidable (a.toNat ≤ b.toNat))

/-- The number of bytes that encode a code point in the name of a file; a half that stands for a
byte takes one. -/
def byteSize : CodePoint → Nat
  | char c => c.utf8Size
  | half _ => 1

/-- The character that a code point is. -/
def toChar? : CodePoint → Option Char
  | char c => some c
  | half _ => none

/-- The code point is a character. -/
def isChar (c : CodePoint) : Bool := c.toChar?.isSome

/-- The code point can stand in the name of a file: a character, or a half that stands for a byte
which is part of no character. -/
def isNameable : CodePoint → Bool
  | char _ => true
  | half n => 0x480 ≤ n.val && n.val < 0x500

/-- A letter or a digit of ASCII. -/
def isAlphanum : CodePoint → Bool
  | char c => c.isAlphanum
  | half _ => false

@[simp] theorem toNat_char (c : Char) : (char c).toNat = c.toNat := rfl

/-- The numbers of characters are none of a half. -/
theorem not_half_toNat (c : Char) : ¬ (0xD800 ≤ c.toNat ∧ c.toNat < 0xE000) := by
  rcases c.valid with h | ⟨h, -⟩ <;> simp only [Char.toNat, UInt32.toNat] at * <;> omega

@[simp] theorem ofNat_toNat (c : CodePoint) : ofNat c.toNat = c := by
  cases c with
  | char c => rw [toNat, ofNat, dif_neg (not_half_toNat c), Char.ofNat_toNat]
  | half n =>
      have hn : 0xD800 ≤ 0xD800 + n.val ∧ 0xD800 + n.val < 0xE000 := by omega
      rw [toNat, ofNat, dif_pos hn]
      simp

theorem toNat_ofNat {n : Nat} (h : n < 0x110000) : (ofNat n).toNat = n := by
  unfold ofNat
  split
  next hn =>
    show 0xD800 + (n - 0xD800) = n
    omega
  next hn =>
    have hvalid : n.isValidChar := by
      unfold Nat.isValidChar
      omega
    rw [toNat, Char.ofNat, dif_pos hvalid]
    rfl

/-- Beyond the last code point there is none. -/
theorem ofNat_of_le {n : Nat} (h : 0x110000 ≤ n) : ofNat n = char '\x00' := by
  have hhalf : ¬ (0xD800 ≤ n ∧ n < 0xE000) := by omega
  have hvalid : ¬ n.isValidChar := by
    unfold Nat.isValidChar
    omega
  rw [ofNat, dif_neg hhalf, Char.ofNat, dif_neg hvalid]
  rfl

end CodePoint

end EncodedQuery

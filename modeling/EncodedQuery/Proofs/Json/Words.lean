/-
  EncodedQuery.Proofs.Json.Words
  ──────────────────────────────
  **WRITTEN SCALARS ARE ONE WORD EACH.**

  The reader cuts a text into words.  A scalar that the writer wrote is cut off
  as one word, whatever follows it; only a number needs something behind it that
  is no part of a number.

  Main results: `lexes_text`, `lexes_int`, `lexes_null`, `lexes_bool`.
-/
import EncodedQuery.Json.Reader
import EncodedQuery.Json.Writer
import EncodedQuery.Proofs.Number.Whole
import EncodedQuery.Proofs.Text.Pieces
import Mathlib.Tactic.IntervalCases

namespace EncodedQuery.Json

/-! ## §1. Cutting into words. -/

/-- The text is cut into these words, with any fuel that is enough. -/
def Lexes (t : Text) (ws : List Token) : Prop := ∀ fuel, t.length ≤ fuel → tokens fuel t = ws

theorem lexes_nil : Lexes [] [] := by
  intro fuel _
  cases fuel <;> rfl

/-- A blank between words. -/
def isGapChar (c : CodePoint) : Bool := c = ' ' || c = '\t' || c = '\n' || c = '\r'

theorem lexes_gap {c : CodePoint} {rest : Text} {ws : List Token} (hc : isGapChar c = true)
    (h : Lexes rest ws) : Lexes (c :: rest) ws := by
  intro fuel hfuel
  cases fuel with
  | zero => cases hfuel
  | succ fuel =>
      have hgap : c = ' ' ∨ c = '\t' ∨ c = '\n' ∨ c = '\r' := by
        simpa [isGapChar, or_assoc] using hc
      rw [tokens, if_pos hgap]
      exact h fuel (Nat.le_of_succ_le_succ hfuel)

/-- One word is cut off, and the rest is cut after it. -/
theorem lexes_cons {c : CodePoint} {t rest : Text} {w : Token} {ws : List Token}
    (hc : isGapChar c = false) (hw : token? (c :: t) = some (w, rest))
    (hle : rest.length ≤ t.length) (h : Lexes rest ws) : Lexes (c :: t) (w :: ws) := by
  intro fuel hfuel
  cases fuel with
  | zero => cases hfuel
  | succ fuel =>
      have hgap : ¬ (c = ' ' ∨ c = '\t' ∨ c = '\n' ∨ c = '\r') := by
        simpa [isGapChar, and_assoc] using hc
      rw [tokens, if_neg hgap, hw]
      dsimp only
      rw [h fuel (Nat.le_trans hle (Nat.le_of_succ_le_succ hfuel))]

/-! ## §2. Strings. -/

/-- An escape of four hexadecimal digits stands for its control character. -/
theorem escapeCode?_hexPadded {n : Nat} (h : n < 32) (rest : Text) :
    escapeCode? (Text.hexPadded 4 n ++ rest) = some (CodePoint.ofNat n, rest) := by
  interval_cases n <;> rfl

/-- **Each character is read back from the way it is written.** -/
theorem stringBody?_escapedChar (fuel : Nat) (c : CodePoint) (rest : Text) :
    stringBody? (fuel + 1) (escapedChar c ++ rest) =
      (stringBody? fuel rest).map (fun p => (c :: p.1, p.2)) := by
  unfold escapedChar
  split
  next h => subst h; cases hb : stringBody? fuel rest <;> simp [stringBody?, escapeLetter?, hb]
  next hquote =>
  split
  next h => subst h; cases hb : stringBody? fuel rest <;> simp [stringBody?, escapeLetter?, hb]
  next hslash =>
  split
  next h => subst h; cases hb : stringBody? fuel rest <;> simp [stringBody?, escapeLetter?, hb]
  next =>
  split
  next h => subst h; cases hb : stringBody? fuel rest <;> simp [stringBody?, escapeLetter?, hb]
  next =>
  split
  next h => subst h; cases hb : stringBody? fuel rest <;> simp [stringBody?, escapeLetter?, hb]
  next =>
  have hself : CodePoint.ofNat c.toNat = c := CodePoint.ofNat_toNat c
  split
  next h =>
    rw [h] at hself
    subst hself
    cases hb : stringBody? fuel rest <;> simp [stringBody?, escapeLetter?, hb]
    rfl
  next =>
  split
  next h =>
    rw [h] at hself
    subst hself
    cases hb : stringBody? fuel rest <;> simp [stringBody?, escapeLetter?, hb]
    rfl
  next =>
  split
  next h =>
    have hcode := escapeCode?_hexPadded h rest
    rw [hself] at hcode
    show ((escapeCode? (Text.hexPadded 4 c.toNat ++ rest)).bind fun p =>
      (stringBody? fuel p.2).bind fun q => some (p.1 :: q.1, q.2)) = _
    rw [hcode, Option.bind_some]
    cases stringBody? fuel rest <;> rfl
  next h =>
    rw [List.singleton_append, stringBody?.eq_def]
    have hplain : ¬ (c.toNat < 32 ∨ c = '\\') := by simp [h, hslash]
    dsimp only
    split
    next heq => cases heq
    next heq => exact absurd (List.cons.inj heq).1 hquote
    next heq => exact absurd (List.cons.inj heq).1 hslash
    next heq => exact absurd (List.cons.inj heq).1 hslash
    next heq =>
      obtain ⟨rfl, rfl⟩ := List.cons.inj heq
      rw [if_neg hplain]
      cases stringBody? fuel rest <;> rfl

/-- A string is read up to its closing mark. -/
theorem stringBody?_written (t rest : Text) :
    ∀ fuel, t.length < fuel →
      stringBody? fuel (t.flatMap escapedChar ++ .char '"' :: rest) = some (t, rest) := by
  induction t with
  | nil =>
      intro fuel hfuel
      obtain ⟨fuel, rfl⟩ := Nat.exists_eq_succ_of_ne_zero (Nat.ne_of_gt hfuel)
      rfl
  | cons c t ih =>
      intro fuel hfuel
      obtain ⟨fuel, rfl⟩ := Nat.exists_eq_succ_of_ne_zero (Nat.ne_of_gt (Nat.zero_lt_of_lt hfuel))
      rw [List.flatMap_cons, List.append_assoc, stringBody?_escapedChar,
        ih fuel (Nat.lt_of_succ_lt_succ hfuel)]
      rfl

theorem length_le_length_flatMap (t : Text) : t.length ≤ (t.flatMap escapedChar).length := by
  have hone : ∀ c, 1 ≤ (escapedChar c).length := by
    intro c
    unfold escapedChar
    repeat' split
    all_goals simp [Text.hexPadded]
  induction t with
  | nil => exact Nat.le_refl _
  | cons c t ih =>
      rw [List.flatMap_cons, List.length_append, List.length_cons]
      have := hone c
      omega

/-- **A written string is one word.** -/
theorem lexes_text {t rest : Text} {ws : List Token} (h : Lexes rest ws) :
    Lexes (writtenText t ++ rest) (.scalar (text t) :: ws) := by
  have hlen := length_le_length_flatMap t
  have hform : writtenText t ++ rest =
      .char '"' :: (t.flatMap escapedChar ++ .char '"' :: rest) := by
    simp [writtenText]
  rw [hform]
  refine lexes_cons (by decide) ?_ ?_ h
  · show (stringBody? _ (t.flatMap escapedChar ++ .char '"' :: rest)).map _ = _
    rw [stringBody?_written t rest _ (by rw [List.length_append]; omega)]
    rfl
  · rw [List.length_append, List.length_cons]
    omega

/-! ## §3. Marks and names. -/

/-- A mark is a word of one character. -/
theorem lexes_mark {c : CodePoint} {w : Token} {rest : Text} {ws : List Token}
    (hc : isGapChar c = false) (hw : token? (c :: rest) = some (w, rest)) (h : Lexes rest ws) :
    Lexes (c :: rest) (w :: ws) := lexes_cons hc hw (Nat.le_refl _) h

theorem lexes_null {rest : Text} {ws : List Token} (h : Lexes rest ws) :
    Lexes (("null" : Text) ++ rest) (.scalar null :: ws) := by
  show Lexes (.char 'n' :: .char 'u' :: .char 'l' :: .char 'l' :: rest) _
  exact lexes_cons (by decide) rfl (by simp; omega) h

theorem lexes_bool {b : Bool} {rest : Text} {ws : List Token} (h : Lexes rest ws) :
    Lexes ((if b then "true" else "false" : Text) ++ rest) (.scalar (bool b) :: ws) := by
  cases b with
  | true =>
      show Lexes (.char 't' :: .char 'r' :: .char 'u' :: .char 'e' :: rest) _
      exact lexes_cons (by decide) rfl (by simp; omega) h
  | false =>
      show Lexes (.char 'f' :: .char 'a' :: .char 'l' :: .char 's' :: .char 'e' :: rest) _
      exact lexes_cons (by decide) rfl (by simp; omega) h

/-! ## §4. Whole numbers. -/

/-- What follows a number is no part of it. -/
def EndsNumber (rest : Text) : Prop :=
  ∀ c ∈ rest.head?, Text.isAsciiDigit c = false ∧ c ≠ '.' ∧ c ≠ 'e' ∧ c ≠ 'E'

theorem digitsOf_append {ds rest : Text} (hds : ∀ c ∈ ds, Text.isAsciiDigit c = true)
    (hrest : EndsNumber rest) : digitsOf (ds ++ rest) = (ds, rest) := by
  have hstop : rest.takeWhile Text.isAsciiDigit = [] ∧ rest.dropWhile Text.isAsciiDigit = rest := by
    cases rest with
    | nil => exact ⟨rfl, rfl⟩
    | cons c rest => simp [(hrest c rfl).1]
  rw [digitsOf, List.takeWhile_append_of_pos hds, List.dropWhile_append_of_pos hds, hstop.1,
    hstop.2, List.append_nil]

/-- **A whole number is read back, with its sign.** -/
theorem number?_ofInt {n : Int} {rest : Text} (hn : Number.isWritable n = true)
    (hrest : EndsNumber rest) : number? (Text.ofInt n ++ rest) = some (.scalar (int n), rest) := by
  have hlen : ¬ Number.longestWhole < (Text.ofNat n.natAbs).length :=
    Nat.not_lt.mpr (Number.isWritable_iff_length.mp hn)
  have hdigits := Text.isAsciiDigit_of_mem_ofNat n.natAbs
  have hvalue := Text.digitsValue_ofNat n.natAbs
  have hhead := Text.ofNat_zero_or n.natAbs
  obtain ⟨d, ds, hds⟩ := List.exists_cons_of_ne_nil (Text.ofNat_ne_nil n.natAbs)
  rw [Text.ofInt_eq]
  rw [hds] at hlen hdigits hvalue hhead ⊢
  have hd : d ≠ '-' := by
    rintro rfl
    exact absurd (hdigits '-' List.mem_cons_self) (by decide)
  unfold number?
  -- the sign
  split
  next negative body hsign =>
  have hbody : negative = decide (n < 0) ∧ body = (d :: ds) ++ rest := by
    by_cases hneg : n < 0
    · rw [if_pos hneg] at hsign
      cases hsign
      exact ⟨(decide_eq_true hneg).symm, rfl⟩
    · rw [if_neg hneg] at hsign
      split at hsign
      next heq => exact absurd (List.cons.inj heq).1 hd
      next =>
        cases hsign
        exact ⟨(decide_eq_false hneg).symm, rfl⟩
  obtain ⟨rfl, rfl⟩ := hbody
  -- the digits, of which a leading zero would be cut off alone
  split
  next whole rest' hwhole =>
  have hsplit : whole = d :: ds ∧ rest = rest' := by
    split at hwhole
    next heq =>
      cases hwhole
      have hzero : d = '0' := (List.cons.inj heq).1
      rcases hhead with hzeros | hnot
      · obtain ⟨rfl, rfl⟩ := List.cons.inj hzeros
        exact ⟨rfl, (List.cons.inj heq).2⟩
      · exact absurd hzero (hnot d rfl)
    next =>
      rw [digitsOf_append hdigits hrest] at hwhole
      cases hwhole
      exact ⟨rfl, rfl⟩
  obtain ⟨rfl, rfl⟩ := hsplit
  rw [if_neg (by simp)]
  -- neither a point nor an exponent follows
  split
  next fraction rest' hfraction =>
  have hnone : fraction = [] ∧ rest = rest' := by
    split at hfraction
    next heq => exact absurd rfl (hrest '.' rfl).2.1
    next =>
      cases hfraction
      exact ⟨rfl, rfl⟩
  obtain ⟨rfl, rfl⟩ := hnone
  split
  next exponent rest' hexponent =>
  have hnone : exponent = none ∧ rest = rest' := by
    split at hexponent
    next _ e more =>
      obtain ⟨_, _, he, hE⟩ := hrest e rfl
      rw [if_neg (by simp [he, hE])] at hexponent
      cases hexponent
      exact ⟨rfl, rfl⟩
    next =>
      cases hexponent
      exact ⟨rfl, rfl⟩
  obtain ⟨rfl, rfl⟩ := hnone
  have hsigned : (if decide (n < 0) = true then -(n.natAbs : Int) else n.natAbs) = n := by
    simp only [decide_eq_true_eq]
    split <;> omega
  simp only [List.isEmpty_nil, Option.isNone_none, Bool.and_self, if_true, if_neg hlen, hvalue,
    hsigned]

/-- No named value begins like a numeral. -/
theorem named?_ofInt (n : Int) (rest : Text) : named? (Text.ofInt n ++ rest) = none := by
  obtain ⟨d, ds, hd, hform⟩ := Text.exists_ofInt_eq n
  have hne : ∀ c, Text.isAsciiDigit c = false → c ≠ d := by
    rintro c hc rfl
    rw [hd] at hc
    cases hc
  have hn := hne 'n' rfl
  have ht := hne 't' rfl
  have hf := hne 'f' rfl
  have hN := hne 'N' rfl
  have hI := hne 'I' rfl
  have hminus := hne '-' rfl
  rcases hform with hform | hform <;> rw [hform] <;>
    simp [named?, namedValues, Text.dropHead?, hn, ht, hf, hN, hI, hminus]

/-- A numeral is no mark, no string and no named value. -/
theorem token?_ofInt (n : Int) (rest : Text) :
    token? (Text.ofInt n ++ rest) = number? (Text.ofInt n ++ rest) := by
  have hnamed := named?_ofInt n rest
  obtain ⟨d, ds, hd, hform⟩ := Text.exists_ofInt_eq n
  have hhead : ∀ c more, Text.ofInt n ++ rest = c :: more →
      c = '-' ∨ Text.isAsciiDigit c = true := by
    intro c more heq
    rcases hform with hform | hform <;> rw [hform] at heq <;> cases heq
    · exact .inr hd
    · exact .inl rfl
  generalize Text.ofInt n ++ rest = t at hnamed hhead
  unfold token?
  split
  case h_8 => rw [hnamed]; rfl
  all_goals
    rcases hhead _ _ rfl with heq | heq <;> cases heq

/-- **A whole number is one word**, if it can be written and ends where the text goes on. -/
theorem lexes_int {n : Int} {rest : Text} {ws : List Token} (hn : Number.isWritable n = true)
    (hrest : EndsNumber rest) (h : Lexes rest ws) :
    Lexes (Text.ofInt n ++ rest) (.scalar (int n) :: ws) := by
  have htoken := (token?_ofInt n rest).trans (number?_ofInt hn hrest)
  obtain ⟨d, ds, hd, hform⟩ := Text.exists_ofInt_eq n
  have hgap : isGapChar d = false := by
    cases hgap : isGapChar d with
    | false => rfl
    | true =>
        have hgaps : d = ' ' ∨ d = '\t' ∨ d = '\n' ∨ d = '\r' := by
          simpa [isGapChar, or_assoc] using hgap
        rcases hgaps with rfl | rfl | rfl | rfl <;> cases hd
  rcases hform with hform | hform <;> rw [hform] at htoken ⊢
  · exact lexes_cons hgap htoken (by simp) h
  · exact lexes_cons rfl htoken (by simp; omega) h

end EncodedQuery.Json

/-
  EncodedQuery.Proofs.Query.Plain
  ───────────────────────────────
  **TERMS WITH PLAIN FIELD NAMES.**

  Nothing marks the end of a field name in a query but the operator token
  behind it.  A plain name has no character that a token begins with, so no
  token begins inside of it, and none reaches over its end.  Behind the name the
  longest token is taken; the only tokens that a value can prolong are `<` and
  `>`, when the value begins with `=`.

  Main results:
    • `legible_of_plain` — a term with a plain name is read as itself,
    • `keepsSeparator_of_plain` — no separator is mistaken in front of it.
-/
import EncodedQuery.Proofs.Query.RoundTrip

namespace EncodedQuery.Term

/-! ## §1. Plain names. -/

/-- A letter in lower case or a low line. -/
def isPlainStart (c : CodePoint) : Bool := ('a' ≤ c ∧ c ≤ 'z') ∨ c = '_'

/-- A plain name: such a character, and then such characters, digits and dots. -/
def IsPlainName (s : Text) : Prop :=
  ∃ c rest, s = c :: rest ∧ isPlainStart c = true ∧ ∀ d ∈ rest, Operator.isPlainChar d = true

theorem isPlainChar_of_isPlainStart {c : CodePoint} (h : isPlainStart c = true) :
    Operator.isPlainChar c = true := by
  simp only [isPlainStart, Operator.isPlainChar, decide_eq_true_eq] at h ⊢
  rcases h with h | h
  · exact Or.inl h
  · exact Or.inr (Or.inl h)

theorem isNameStart_of_isPlainStart {c : CodePoint} (h : isPlainStart c = true) :
    isNameStart c = true := by
  simp only [isPlainStart, isNameStart, decide_eq_true_eq] at h ⊢
  exact Or.inr h

theorem isNameChar_of_isPlainChar {c : CodePoint} (h : Operator.isPlainChar c = true) :
    isNameChar c = true := by
  simp only [Operator.isPlainChar, isNameChar, isNameStart, decide_eq_true_eq] at h ⊢
  rcases h with h | h | h | h
  · exact Or.inl (Or.inr (Or.inl h))
  · exact Or.inl (Or.inr (Or.inr h))
  · exact Or.inr (Or.inl h)
  · exact Or.inr (Or.inr h)

theorem IsPlainName.isName {s : Text} (h : IsPlainName s) : IsName s := by
  obtain ⟨c, rest, hs, hstart, hrest⟩ := h
  exact ⟨c, rest, hs, isNameStart_of_isPlainStart hstart,
    fun d hd => isNameChar_of_isPlainChar (hrest d hd)⟩

theorem IsPlainName.isPlainChar {s : Text} (h : IsPlainName s) :
    ∀ c ∈ s, Operator.isPlainChar c = true := by
  obtain ⟨c, rest, rfl, hstart, hrest⟩ := h
  intro d hd
  rcases List.mem_cons.mp hd with rfl | hd
  · exact isPlainChar_of_isPlainStart hstart
  · exact hrest d hd

/-! ## §2. Where the name ends. -/

/-- No token begins inside of a plain name. -/
theorem not_tokenAt_of_plain {t : Term} (h : IsPlainName t.field) {p : Nat}
    (hp : p < t.field.length) : ¬ TokenAt t.body p := by
  rintro ⟨op, hop⟩
  have hdrop : t.body.drop p
      = t.field[p] :: (t.field.drop (p + 1) ++ (t.operator.token ++ t.value)) := by
    rw [body, List.append_assoc, List.drop_append_of_le_length (Nat.le_of_lt hp),
        List.drop_eq_getElem_cons hp, List.cons_append]
  rw [hdrop] at hop
  cases htok : op.token with
  | nil => exact absurd htok op.token_ne_nil
  | cons c rest =>
      rw [htok, List.cons_prefix_cons] at hop
      have hplain := h.isPlainChar t.field[p] (List.getElem_mem hp)
      have hhead := op.head_token c (by rw [htok]; rfl)
      rw [hop.1, hplain] at hhead
      exact absurd hhead (by decide)

/-- The token of a term is the longest one behind its name, unless its value makes `<` or `>`
a longer one. -/
theorem longestAt_body {t : Term}
    (h : t.operator = .lessThan ∨ t.operator = .greaterThan → ¬ ("=" : Text) <+: t.value) :
    LongestAt t.body t.field.length t.operator := by
  refine ⟨by rw [drop_body]; exact List.prefix_append _ _, ?_⟩
  intro other hother
  rw [drop_body] at hother
  by_contra hlen
  -- the other token is longer, so the operator's own token begins it
  have hown : t.operator.token <+: other.token :=
    List.prefix_of_prefix_length_le (List.prefix_append _ _) hother (by omega)
  rcases Operator.token_of_prefix hown with heq | ⟨hop, rfl⟩ | ⟨hop, rfl⟩
  · rw [heq] at hlen
    exact hlen (Nat.le_refl _)
  · refine h (Or.inl hop) ?_
    rw [hop] at hother
    exact (List.cons_prefix_cons.mp hother).2
  · refine h (Or.inr hop) ?_
    rw [hop] at hother
    exact (List.cons_prefix_cons.mp hother).2

/-- Only then: where the token is the longest one, the value does not make it a longer one. -/
theorem LongestAt.not_equals_prefix {t : Term} (h : LongestAt t.body t.field.length t.operator)
    (hop : t.operator = .lessThan ∨ t.operator = .greaterThan) : ¬ ("=" : Text) <+: t.value := by
  intro hvalue
  have hlonger : ∀ op : Operator, op.token = t.operator.token ++ ("=" : Text) → False := by
    intro op htoken
    have hlength := h.longest op (by
      rw [drop_body, htoken]
      exact (List.prefix_append_right_inj _).mpr hvalue)
    rw [htoken, List.length_append] at hlength
    exact absurd hlength (Nat.not_le.mpr (Nat.lt_succ_self _))
  rcases hop with hop | hop
  · exact hlonger .lessOrEqual (by rw [hop]; rfl)
  · exact hlonger .greaterOrEqual (by rw [hop]; rfl)

/-! ## §3. Terms with plain names. -/

/-- **A term with a plain name is read as itself.** -/
theorem legible_of_plain {t : Term} (hname : IsPlainName t.field) (hcaret : .char '^' ∉ t.value)
    (hvalue : t.operator = .lessThan ∨ t.operator = .greaterThan → ¬ ("=" : Text) <+: t.value) :
    t.Legible where
  reading := isReading_body_iff.mpr
    ⟨hname.isName, fun _ _ hp => not_tokenAt_of_plain hname hp, longestAt_body hvalue⟩
  caret := hcaret

/-- The letters of the longer separators are no plain characters. -/
theorem keepsSeparator_of_plain {t : Term} (h : IsPlainName t.field) : t.KeepsSeparator := by
  have hhead : ∀ c rest, Operator.isPlainChar c = false → ¬ c :: rest <+: t.field := by
    intro c rest hc hpre
    have hplain := h.isPlainChar c (hpre.subset List.mem_cons_self)
    rw [hc] at hplain
    exact absurd hplain (by decide)
  intro _
  exact ⟨hhead 'O' ['R'] (by decide), hhead 'N' ['Q'] (by decide)⟩

end EncodedQuery.Term

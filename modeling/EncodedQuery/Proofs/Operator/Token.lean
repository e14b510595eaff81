/-
  EncodedQuery.Proofs.Operator.Token
  ──────────────────────────────────
  **THE TOKENS OF THE OPERATORS.**

  Facts about the spellings, each checked on the finite table of operators: no
  spelling is empty, none holds a caret or a tab, none ends in a blank, and one
  spelling begins another only for the two pairs `<`, `<=` and `>`, `>=`.

  Main results:
    • `token_injective` — a spelling belongs to one operator,
    • `token_of_prefix` — which spellings begin another one,
    • `ofToken?_eq_some_iff` — an operator is found by its spelling and by no other text.
-/
import EncodedQuery.Operator.Basic

namespace EncodedQuery.Operator

/-! ## §1. The table. -/

theorem mem_byLength (op : Operator) : op ∈ byLength := by
  cases op <;> decide

theorem byLength_sorted :
    byLength.Pairwise (fun a b => b.token.length ≤ a.token.length) := by
  decide

/-! ## §2. Single spellings. -/

theorem token_ne_nil (op : Operator) : op.token ≠ [] := by
  cases op <;> decide

theorem caret_not_mem_token (op : Operator) : .char '^' ∉ op.token := by
  cases op <;> decide

theorem tab_not_mem_token (op : Operator) : .char '\t' ∉ op.token := by
  cases op <;> decide

/-- A character that no spelling begins with: a letter in lower case, a digit, a low line or a
dot. -/
def isPlainChar (c : CodePoint) : Bool :=
  ('a' ≤ c ∧ c ≤ 'z') ∨ c = '_' ∨ ('0' ≤ c ∧ c ≤ '9') ∨ c = '.'

theorem head_token (op : Operator) : ∀ c ∈ op.token.head?, isPlainChar c = false := by
  have table : ∀ op ∈ byLength, op.token.head?.any isPlainChar = false := by decide
  intro c hc
  have hany := table op (mem_byLength op)
  rw [Option.mem_def.mp hc] at hany
  exact hany

/-! ## §3. Two spellings. -/

/-- **Which spellings begin another one.** -/
theorem token_of_prefix {a b : Operator} (h : a.token <+: b.token) :
    a = b ∨ (a = lessThan ∧ b = lessOrEqual) ∨ (a = greaterThan ∧ b = greaterOrEqual) := by
  have table : ∀ a ∈ byLength, ∀ b ∈ byLength, a.token <+: b.token →
      a = b ∨ (a = lessThan ∧ b = lessOrEqual) ∨ (a = greaterThan ∧ b = greaterOrEqual) := by
    decide
  exact table a (mem_byLength a) b (mem_byLength b) h

theorem token_injective {a b : Operator} (h : a.token = b.token) : a = b := by
  rcases token_of_prefix (h ▸ List.prefix_refl a.token : a.token <+: b.token) with h' | h' | h'
  · exact h'
  · obtain ⟨rfl, rfl⟩ := h'
    exact absurd h (by decide)
  · obtain ⟨rfl, rfl⟩ := h'
    exact absurd h (by decide)

/-- An operator is found by its spelling. -/
theorem ofToken?_eq_some_iff {t : Text} {op : Operator} :
    ofToken? t = some op ↔ op.token = t := by
  unfold ofToken?
  constructor
  · intro h
    simpa using List.find?_some h
  · intro h
    cases hf : byLength.find? (fun op => op.token = t) with
    | none =>
        have hnone := List.find?_eq_none.mp hf op (mem_byLength op)
        exact absurd h (by simpa using hnone)
    | some found =>
        have hfound : found.token = t := by simpa using List.find?_some hf
        rw [token_injective (hfound.trans h.symm)]

@[simp] theorem ofToken?_token (op : Operator) : ofToken? op.token = some op :=
  ofToken?_eq_some_iff.mpr rfl

@[simp] theorem isOperatorIn_token (p : Operator → Bool) (op : Operator) :
    Text.isOperatorIn p op.token = p op := by
  rw [Text.isOperatorIn, ofToken?_token]
  rfl

end EncodedQuery.Operator

/-
  EncodedQuery.Proofs.Check.Balance
  ─────────────────────────────────
  **BALANCED PARENTHESES.**

  `Balanced` is the language of balanced parentheses, by its grammar.  The check
  counts the groups that are open.  With `n` of them open it lets those texts
  pass that close the groups one by one, with balanced stretches in front of each
  closing parenthesis and at the end (`Closes`).

  Main results:
    • `balancedFrom_iff` — with groups open, exactly the texts that close them pass,
    • `isBalanced_iff` — with none open, exactly the language does.
-/
import EncodedQuery.Check.Query

namespace EncodedQuery.Check

/-! ## §1. The language. -/

/-- What can be derived from `S → ε | ( S ) S`. -/
inductive Balanced : Text → Prop
  /-- Nothing is balanced. -/
  | nil : Balanced []
  /-- A group with a balanced inside, and something balanced behind it. -/
  | group {inner rest : Text} (hinner : Balanced inner) (hrest : Balanced rest) :
      Balanced (.char '(' :: inner ++ .char ')' :: rest)

/-- The parentheses of a text, without what stands between them. -/
def parentheses (t : Text) : Text := t.filter (fun c => c = '(' || c = ')')

/-- The text closes `n` groups that are open in front of it, and is balanced apart from that. -/
def Closes : Nat → Text → Prop
  | 0, t => Balanced t
  | n + 1, t => ∃ inner rest, t = inner ++ .char ')' :: rest ∧ Balanced inner ∧ Closes n rest

/-! ## §2. One parenthesis. -/

theorem Balanced.cases_of {t : Text} (h : Balanced t) :
    t = [] ∨ ∃ inner rest,
      t = .char '(' :: inner ++ .char ')' :: rest ∧ Balanced inner ∧ Balanced rest := by
  cases h with
  | nil => exact .inl rfl
  | group hinner hrest => exact .inr ⟨_, _, rfl, hinner, hrest⟩

theorem closes_nil_iff {n : Nat} : Closes n [] ↔ n = 0 := by
  cases n with
  | zero => exact iff_of_true .nil rfl
  | succ n =>
      refine iff_of_false ?_ (Nat.succ_ne_zero n)
      rintro ⟨inner, rest, heq, -⟩
      exact List.append_ne_nil_of_right_ne_nil inner (List.cons_ne_nil _ _) heq.symm

/-- An opening parenthesis opens one more group. -/
theorem closes_open_iff {n : Nat} {t : Text} : Closes n (.char '(' :: t) ↔ Closes (n + 1) t := by
  constructor
  · intro h
    cases n with
    | zero =>
        obtain heq | ⟨inner, rest, heq, hinner, hrest⟩ := Balanced.cases_of h
        · cases heq
        · exact ⟨inner, rest, (List.cons.inj heq).2, hinner, hrest⟩
    | succ n =>
        obtain ⟨first, later, heq, hfirst, hlater⟩ := h
        -- the parenthesis belongs to the balanced stretch in front of the first closing one
        obtain rfl | ⟨inner, rest, rfl, hinner, hrest⟩ := hfirst.cases_of
        · exact absurd (List.cons.inj heq).1 (by decide)
        · have ht : t = (inner ++ .char ')' :: rest) ++ .char ')' :: later := (List.cons.inj heq).2
          refine ⟨inner, rest ++ .char ')' :: later, ?_, hinner, rest, later, rfl, hrest, hlater⟩
          rw [ht, List.append_assoc, List.cons_append]
  · rintro ⟨inner, rest, rfl, hinner, hrest⟩
    cases n with
    | zero => exact .group hinner hrest
    | succ n =>
        obtain ⟨first, later, rfl, hfirst, hlater⟩ := hrest
        refine ⟨.char '(' :: inner ++ .char ')' :: first, later, ?_, .group hinner hfirst, hlater⟩
        rw [List.cons_append, List.cons_append, List.append_assoc, List.cons_append]

/-- A closing parenthesis closes one of them, if there is one. -/
theorem closes_close_iff {n : Nat} {t : Text} :
    Closes n (.char ')' :: t) ↔ ∃ m, n = m + 1 ∧ Closes m t := by
  constructor
  · intro h
    cases n with
    | zero =>
        obtain heq | ⟨inner, rest, heq, -⟩ := Balanced.cases_of h
        · cases heq
        · exact absurd (List.cons.inj heq).1 (by decide)
    | succ n =>
        obtain ⟨first, later, heq, hfirst, hlater⟩ := h
        obtain rfl | ⟨inner, rest, rfl, -⟩ := hfirst.cases_of
        · rw [(List.cons.inj heq).2]
          exact ⟨n, rfl, hlater⟩
        · exact absurd (List.cons.inj heq).1 (by decide)
  · rintro ⟨m, rfl, h⟩
    exact ⟨[], t, rfl, .nil, h⟩

/-! ## §3. The check. -/

/-- With groups open the check lets exactly those texts pass that close them, whatever stands
between the parentheses. -/
theorem balancedFrom_iff {n : Nat} {t : Text} :
    balancedFrom n t = true ↔ Closes n (parentheses t) := by
  induction t generalizing n with
  | nil =>
      show (n == 0) = true ↔ Closes n []
      rw [closes_nil_iff, beq_iff_eq]
  | cons c rest ih =>
      by_cases hopen : c = '('
      · subst hopen
        show balancedFrom (n + 1) rest = true ↔ Closes n (.char '(' :: parentheses rest)
        rw [ih, closes_open_iff]
      · by_cases hclose : c = ')'
        · subst hclose
          show balancedFrom n (.char ')' :: rest) = true ↔ Closes n (.char ')' :: parentheses rest)
          rw [closes_close_iff]
          cases n with
          | zero => exact iff_of_false Bool.false_ne_true nofun
          | succ n =>
              show balancedFrom n rest = true ↔ _
              rw [ih]
              constructor
              · exact fun h => ⟨n, rfl, h⟩
              · rintro ⟨m, heq, h⟩
                rwa [Nat.succ.inj heq]
        · have hskip : parentheses (c :: rest) = parentheses rest :=
            List.filter_cons_of_neg (by simp [hopen, hclose])
          have hstep : balancedFrom n (c :: rest) = balancedFrom n rest := by
            cases n <;> simp only [balancedFrom, if_neg hopen, if_neg hclose]
          rw [hskip, hstep, ih]

instance (t : Text) : Decidable (Balanced (parentheses t)) :=
  decidable_of_iff (isBalanced t = true) balancedFrom_iff

/-- **THE CHECK DECIDES THE LANGUAGE.**  A text passes exactly if its parentheses, without what
stands between them, can be derived from the grammar. -/
theorem isBalanced_iff (t : Text) : isBalanced t = true ↔ Balanced (parentheses t) :=
  balancedFrom_iff

/-- As many opening as closing ones are not enough. -/
example : Balanced (parentheses ("f(a(b))" : Text)) ∧ ¬ Balanced (parentheses (")(" : Text)) := by
  decide

end EncodedQuery.Check

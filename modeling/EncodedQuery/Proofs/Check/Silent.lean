/-
  EncodedQuery.Proofs.Check.Silent
  ────────────────────────────────
  **WHAT SILENCE SAYS ABOUT READING BACK.**

  A condition that the check is silent about should be read back as itself.  A
  condition on a plain name is, exactly when nothing in its literal is lost or
  mistaken (`Kept`): no caret ends it early, no tab is filled up with blanks, no
  blank at its end is cut, and no `=` at its front makes a longer operator.

  The check looks for carets and equals signs, though not for all types of
  fields, and it looks for neither tabs nor blanks.

  Main results:
    • `readsBack_iff` — when a condition is read back as itself,
    • `readsBack_iff_of_silent` — what is left of this for silent conditions.
-/
import EncodedQuery.Proofs.Check.Special
import EncodedQuery.Proofs.Condition.Encode

namespace EncodedQuery.Condition

/-! ## §1. Conditions that are read back. -/

/-- The text of the condition is read as one term with its field, operator and literal. -/
def ReadsBack (c : Condition) : Prop :=
  ∃ t, Term.parse c.encode = .ok [t] ∧ t.field = c.field.name ∧ t.operator.token = c.operator ∧
    t.value = c.literal

/-- The text ends with no blank of the literal, and the literal has no tab. -/
structure EndsClean (c : Condition) : Prop where
  /-- No tab is filled up. -/
  tab : .char '\t' ∉ c.literal
  /-- No blank is cut. -/
  last : ∀ x ∈ c.literal.getLast?, Text.isBlank x = false

/-- Nothing in the literal is lost or mistaken. -/
structure Kept (c : Condition) : Prop extends EndsClean c where
  /-- No caret ends the literal early. -/
  caret : .char '^' ∉ c.literal
  /-- The literal makes no longer token of `<` or `>`. -/
  equals : c.operator = ("<" : Text) ∨ c.operator = (">" : Text) → ¬ ("=" : Text) <+: c.literal

variable {table : Option Table} {c : Condition}

/-- **When a condition on a plain name is read back as itself.** -/
theorem readsBack_iff (hname : Term.IsPlainName c.field.name) (htoken : c.HasToken) :
    c.ReadsBack ↔ c.Kept := by
  constructor
  · rintro ⟨t, hparse, hfield, hoperator, hvalue⟩
    have hwritable := Term.writable_of_parse hparse
    have hlegible := hwritable.legible t (List.mem_singleton_self t)
    have hlongest := (Term.isReading_body_iff.mp hlegible.reading).2.2
    refine ⟨⟨?_, ?_⟩, ?_, ?_⟩
    · rw [← hvalue]
      exact hwritable.tab t (List.mem_singleton_self t)
    · rw [← hvalue]
      exact hwritable.last t rfl
    · rw [← hvalue]
      exact hlegible.caret
    · rw [← hvalue, ← hoperator]
      intro hop
      refine Term.LongestAt.not_equals_prefix hlongest ?_
      exact hop.imp (fun h => Operator.token_injective h) (fun h => Operator.token_injective h)
  · intro h
    have hplain : Chain.Plain [c] := by
      refine ⟨?_, ?_⟩
      · rw [List.forall_mem_singleton]
        exact ⟨hname, htoken, h.caret, h.tab, h.equals⟩
      · rintro d ⟨⟩
        exact h.last
    exact ⟨c.termAfter none, hplain.parse_eq, rfl, htoken.token_termAfter none, rfl⟩

/-! ## §2. Silent conditions. -/

/-- What the check says about a value is part of what it says about the condition. -/
theorem valueIssues_eq_nil (h : Check.condition table c = []) : Check.valueIssues c = [] := by
  unfold Check.condition at h
  dsimp only at h
  split at h
  · cases h
  · split at h
    · cases (List.append_eq_nil_iff.mp h).2
    · exact (List.append_eq_nil_iff.mp h).2

/-- **Silence and reading back.**  A condition on a plain name that the check is silent about is
read back as itself exactly when nothing in its literal is lost or mistaken.  Where the check looks
at the characters of values, and for ranges of days on any field, only tabs and blanks at the end
can be lost. -/
theorem readsBack_iff_of_silent (hname : Term.IsPlainName c.field.name) (htoken : c.HasToken)
    (hsilent : Check.condition table c = []) :
    (c.ReadsBack ↔ c.Kept) ∧
    (Check.isRange c = true ∨ Check.LooksAtValues c.field → (c.ReadsBack ↔ c.EndsClean)) := by
  refine ⟨readsBack_iff hname htoken, fun hlooks => ?_⟩
  rw [readsBack_iff hname htoken]
  refine ⟨fun h => h.toEndsClean, fun h => ⟨h, ?_, ?_⟩⟩
  · exact Check.ordinary_literal hlooks (valueIssues_eq_nil hsilent) '^' rfl
  · intro _ hequals
    have hmem : .char '=' ∈ c.literal :=
      hequals.subset (List.mem_singleton_self (CodePoint.char '='))
    exact Check.ordinary_literal hlooks (valueIssues_eq_nil hsilent) '=' rfl hmem

/-- Two numbers in a list. -/
def firstPriorities : Condition :=
  { field := { name := "priority", type := .integer }, operator := "IN", value := "1, 2" }

/-- The blank between two numbers is kept. -/
theorem readsBack_firstPriorities : firstPriorities.ReadsBack := by
  have hname : Term.IsPlainName firstPriorities.field.name :=
    ⟨'p', _, rfl, rfl, List.all_eq_true.mp rfl⟩
  have htoken : firstPriorities.HasToken := by
    unfold HasToken
    decide
  have hsilent : Check.condition none firstPriorities = [] := by decide +kernel
  have hlast : firstPriorities.literal.getLast?.all (fun x => !Text.isBlank x) := by decide +kernel
  refine ((readsBack_iff_of_silent hname htoken hsilent).2 (.inr trivial)).mpr
    ⟨by decide +kernel, fun x hx => ?_⟩
  rw [hx, Option.all_some, Bool.not_eq_true'] at hlast
  exact hlast

/-- A secret with a caret in it. -/
def secret : Condition :=
  { field := { name := "pw", type := .password }, operator := "=", value := "a^b=c" }

/-- A caret and an equals sign in a secret, and a blank and a tab in other values. -/
def lossy : List Condition :=
  [secret,
   { field := { name := "pw", type := .password }, operator := "<", value := "=5" },
   { field := { name := "priority", type := .integer }, operator := "=", value := "5 " },
   { field := { name := "note" }, operator := "=", value := "a\tb" }]

/-- Silent conditions that are not read back: none of the four parts of `Kept` follows from
silence. -/
theorem not_readsBack_of_mem_lossy :
    ∀ c ∈ lossy, Term.IsPlainName c.field.name ∧ c.HasToken ∧ Check.condition none c = [] ∧
      ¬ c.ReadsBack := by
  have hpw : Term.IsPlainName ("pw" : Text) := ⟨'p', _, rfl, rfl, List.all_eq_true.mp rfl⟩
  have hpriority : Term.IsPlainName ("priority" : Text) :=
    ⟨'p', _, rfl, rfl, List.all_eq_true.mp rfl⟩
  have hnote : Term.IsPlainName ("note" : Text) := ⟨'n', _, rfl, rfl, List.all_eq_true.mp rfl⟩
  have hnames : ∀ c ∈ lossy, Term.IsPlainName c.field.name := by
    rw [lossy, List.forall_mem_cons, List.forall_mem_cons, List.forall_mem_cons,
      List.forall_mem_singleton]
    exact ⟨hpw, hpw, hpriority, hnote⟩
  have hlossy : ∀ c ∈ lossy, c.operator ∈ Operator.byLength.map Operator.token ∧
      Check.condition none c = [] ∧
      (.char '^' ∈ c.literal ∨ .char '\t' ∈ c.literal ∨ c.literal.getLast?.any Text.isBlank = true ∨
        (c.operator = ("<" : Text) ∧ ("=" : Text) <+: c.literal)) := by
    decide +kernel
  intro c hc
  obtain ⟨htoken, hsilent, hlost⟩ := hlossy c hc
  refine ⟨hnames c hc, htoken, hsilent, fun hreads => ?_⟩
  have hkept := (readsBack_iff (hnames c hc) htoken).mp hreads
  rcases hlost with h | h | h | ⟨hop, h⟩
  · exact hkept.caret h
  · exact hkept.tab h
  · cases hlast : c.literal.getLast? with
    | none => rw [hlast] at h; cases h
    | some x =>
        rw [hlast, Option.any_some, hkept.last x hlast] at h
        cases h
  · exact hkept.equals (.inl hop) h

/-- **The check is silent about a secret that is not read back.** -/
theorem silent_not_readsBack :
    Term.IsPlainName secret.field.name ∧ secret.HasToken ∧ Check.condition none secret = [] ∧
      ¬ secret.ReadsBack :=
  not_readsBack_of_mem_lossy secret List.mem_cons_self

end EncodedQuery.Condition

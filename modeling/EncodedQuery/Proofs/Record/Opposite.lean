/-
  EncodedQuery.Proofs.Record.Opposite
  ───────────────────────────────────
  **OPERATORS AND THEIR OPPOSITES.**

  Two operators are opposites for a value when every record answers exactly one of
  them with yes, whatever the field holds.  Equality, emptiness and membership of
  a list have their opposites for every value.  The search for a text leaves
  out the percent signs of its value; the search for what does not contain a text
  keeps them, so the two are opposites only while there is no percent sign.

  Main results:
    • `exists_finds_both` — a percent sign lets a record answer both with yes,
    • `opposite_iff` — which operators are opposites for a value.
-/
import EncodedQuery.Proofs.Text.Case
import EncodedQuery.Proofs.Text.Pieces
import EncodedQuery.Record.Match

namespace EncodedQuery

variable {value : Text}

/-- Of two terms that differ in their operators alone, every record matches exactly one. -/
def Operator.Opposite (op op' : Operator) (value : Text) : Prop :=
  ∀ (r : Record) (join : Option Separator) (field : Text),
    (r.matchesTerm { join, field, operator := op, value } ^^
      r.matchesTerm { join, field, operator := op', value }) = true

namespace Record

/-! ## §1. Opposites for every value. -/

theorem opposite_equals : Operator.Opposite .equals .notEquals value := by
  intro r join field
  show ((decide (r.stored field = value) || decide (r.shown field = value)) ^^
    (decide (r.stored field ≠ value) && decide (r.shown field ≠ value))) = true
  rw [decide_not, decide_not, ← Bool.not_or, Bool.xor_not_self]

theorem opposite_isEmpty : Operator.Opposite .isEmpty .isNotEmpty value := by
  intro r join field
  show (decide (r.stored field = []) ^^ decide (r.stored field ≠ [])) = true
  rw [decide_not, Bool.xor_not_self]

theorem opposite_inList : Operator.Opposite .inList .notInList value :=
  fun _ _ _ => Bool.xor_not_self _

/-! ## §2. Searches for a text. -/

/-- A value without a percent sign is searched for as it stands. -/
theorem filter_lower_of_not_mem (h : .char '%' ∉ value) :
    (Text.lower value).filter (· ≠ .char '%') = Text.lower value := by
  have hlower : .char '%' ∉ Text.lower value := by
    rw [Text.mem_lower_iff (by decide) (by decide)]
    exact h
  exact List.filter_eq_self.mpr fun a ha => decide_eq_true fun heq => hlower (heq ▸ ha)

theorem opposite_contains_of_not_mem (h : .char '%' ∉ value) :
    Operator.Opposite .contains .doesNotContain value := by
  intro r join field
  show (either _ _ (fun t => Text.contains t ((Text.lower value).filter (· ≠ .char '%'))) ^^
    !either _ _ (fun t => Text.contains t (Text.lower value))) = true
  rw [filter_lower_of_not_mem h, Bool.xor_not_self]

/-- A field that holds one text. -/
theorem matchesTerm_of_text (join : Option Separator) (field : Text) (op : Operator) (t : Text) :
    matchesTerm [(field, .text t)] { join, field, operator := op, value } = holds t t op value := by
  have hlookup : Json.lookup? field [(field, Json.text t)] = some (.text t) := by
    simp [Json.lookup?]
  unfold matchesTerm stored shown
  rw [hlookup]
  rfl

/-- **With a percent sign in the value, some text is found by both searches**: the value without
the sign, in lower case, and none with it. -/
theorem exists_finds_both (h : .char '%' ∈ value) :
    ∃ t : Text, holds t t .contains value = true ∧ holds t t .doesNotContain value = true := by
  obtain ⟨t, ht⟩ := Text.exists_lower_eq_filter (x := '%') (by decide) (by decide) value
  refine ⟨t, ?_, ?_⟩
  · show either t t (fun s => Text.contains s ((Text.lower value).filter (· ≠ .char '%'))) = true
    rw [either, ht, Bool.or_self]
    exact Text.contains_iff.mpr List.infix_rfl
  · show (!either t t (fun s => Text.contains s (Text.lower value))) = true
    have hlower : .char '%' ∈ Text.lower value := by
      rw [Text.mem_lower_iff (by decide) (by decide)]
      exact h
    -- the percent sign would have to be in a text from which it is left out
    rw [either, ht, Bool.or_self, Bool.not_eq_true', ← Bool.not_eq_true, Text.contains_iff]
    intro hoccurs
    have hmem := List.mem_filter.mp (hoccurs.subset hlower)
    exact of_decide_eq_true hmem.2 rfl

/-- **WHICH OPERATORS ARE OPPOSITES.**  Whatever the value, every record matches exactly one of
equality and inequality, exactly one of emptiness and its negation, and exactly one of membership
and its negation.  That it matches exactly one of the two searches for a text is true of the values
without a percent sign, and of no others. -/
theorem opposite_iff (value : Text) :
    Operator.Opposite .equals .notEquals value ∧
      Operator.Opposite .isEmpty .isNotEmpty value ∧
      Operator.Opposite .inList .notInList value ∧
      (Operator.Opposite .contains .doesNotContain value ↔ .char '%' ∉ value) := by
  refine ⟨opposite_equals, opposite_isEmpty, opposite_inList, ?_, opposite_contains_of_not_mem⟩
  intro hopposite hmem
  obtain ⟨t, hfound, hmissed⟩ := exists_finds_both hmem
  have hone := hopposite [([], .text t)] none []
  rw [matchesTerm_of_text, matchesTerm_of_text, hfound, hmissed] at hone
  cases hone

/-- **A percent sign splits the two searches**: for `a%b` the record `ab` matches both, and the
record `a%b` matches neither. -/
theorem not_opposite_percent :
    let finds : Record → Operator → Bool := fun r op =>
      r.matchesTerm { join := none, field := "n", operator := op, value := "a%b" }
    let without : Record := [("n", .text "ab")]
    let verbatim : Record := [("n", .text "a%b")]
    finds without .contains = true ∧ finds without .doesNotContain = true ∧
      finds verbatim .contains = false ∧ finds verbatim .doesNotContain = false ∧
      ¬ Operator.Opposite .contains .doesNotContain "a%b" := by
  intro finds without verbatim
  have hwithout : finds without .contains = true ∧ finds without .doesNotContain = true := by
    decide +kernel
  have hverbatim : finds verbatim .contains = false ∧ finds verbatim .doesNotContain = false := by
    decide +kernel
  refine ⟨hwithout.1, hwithout.2, hverbatim.1, hverbatim.2, fun hopposite => ?_⟩
  have hone : (finds without .contains ^^ finds without .doesNotContain) = true :=
    hopposite without none "n"
  rw [hwithout.1, hwithout.2] at hone
  cases hone

end Record

end EncodedQuery

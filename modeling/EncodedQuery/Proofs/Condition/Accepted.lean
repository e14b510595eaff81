/-
  EncodedQuery.Proofs.Condition.Accepted
  ──────────────────────────────────────
  **CONDITIONS THAT A TABLE ACCEPTS.**

  A table accepts a condition when the field is one of its own, the operator is
  on offer for the type of the field, and the check finds no error.  The link of
  a condition plays no part in this.

  Main results:
    • `Accepts.relink` — links do not matter,
    • `index_eq_none_of_isError` — a verdict on accepted conditions has no error
      that points at one of them.
-/
import EncodedQuery.Check.Query

namespace EncodedQuery

/-- The condition can be committed to a filter of the table. -/
structure Table.Accepts (t : Table) (c : Condition) : Prop where
  /-- The field belongs to the table. -/
  field : c.field ∈ t.fields
  /-- The operator is on offer for the field. -/
  operator : ∃ e ∈ OperatorEntry.offered (some c.field.type), c.operator = e.token
  /-- The check finds no error. -/
  check : ∀ i ∈ Check.condition (some t) c, i.isError = false

namespace Check

/-- The check does not look at the link. -/
theorem condition_link (table : Option Table) (c : Condition) (link : Option Link) :
    condition table { c with link } = condition table c :=
  rfl

/-- The findings about single conditions carry the severity that the check gave them. -/
theorem exists_of_mem_conditionIssues {table : Option Table} {i : Issue} :
    ∀ {n : Nat} {cs : List Condition}, i ∈ conditionIssues table n cs →
      ∃ c ∈ cs, ∃ found ∈ condition table c, i.isError = found.isError
  | _, [], h => by cases h
  | n, c :: rest, h => by
      rcases List.mem_append.mp h with h | h
      · obtain ⟨found, hfound, rfl⟩ := List.mem_map.mp h
        exact ⟨c, List.mem_cons_self, found, hfound, rfl⟩
      · obtain ⟨d, hd, hfound⟩ := exists_of_mem_conditionIssues h
        exact ⟨d, List.mem_cons_of_mem c hd, hfound⟩

theorem index_of_mem_structureIssues {query : Text} {i : Issue} (h : i ∈ structureIssues query) :
    i.index = none := by
  unfold structureIssues at h
  split at h
  · cases h
  · simp only [List.mem_append] at h
    rcases h with ((h | h) | h) | h <;> split at h <;> simp_all

theorem index_of_mem_costIssues {cs : List Condition} {query : Text} {i : Issue}
    (h : i ∈ costIssues cs query) : i.index = none := by
  unfold costIssues at h
  simp only [List.mem_append] at h
  rcases h with (h | h) | h <;> split at h <;> simp_all

/-- **A verdict on conditions without errors has no error that points at one of them.** -/
theorem index_eq_none_of_isError {table : Option Table} {cs : List Condition}
    (h : ∀ c ∈ cs, ∀ i ∈ condition table c, i.isError = false) {i : Issue}
    (hi : i ∈ (conditions table cs).issues) (herror : i.isError = true) : i.index = none := by
  unfold conditions at hi
  split at hi
  · rw [List.mem_singleton.mp hi]
  · rcases List.mem_append.mp hi with hi | hi
    · rcases List.mem_append.mp hi with hi | hi
      · obtain ⟨c, hc, found, hfound, heq⟩ := exists_of_mem_conditionIssues hi
        rw [heq, h c hc found hfound] at herror
        cases herror
      · exact index_of_mem_structureIssues hi
    · exact index_of_mem_costIssues hi

end Check

theorem Table.Accepts.relink {t : Table} {c : Condition} (h : t.Accepts c) (link : Option Link) :
    t.Accepts { c with link } :=
  ⟨h.field, h.operator, by rw [Check.condition_link]; exact h.check⟩

end EncodedQuery

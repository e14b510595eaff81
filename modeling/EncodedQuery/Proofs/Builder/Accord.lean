/-
  EncodedQuery.Proofs.Builder.Accord
  ──────────────────────────────────
  **STAGE, CHOSEN PARTS AND PICKERS ARE IN ACCORD.**

  A builder learns that a picker is done by looking whether it still takes keys,
  and a stage relies on the parts that were chosen before it.  Both work because
  in every state that a new builder gets to exactly the picker of its stage is
  open, and everything that the stage needs is there.

  Main result: `Reachable.in_accord`.
-/
import EncodedQuery.Proofs.Builder.Invariant

namespace EncodedQuery.Builder

/-- **Accord.**  In every state that a new builder gets to, a picker is open exactly in its stage,
and the picker for a record offers the records that the field refers to; a field is chosen when an
operator is asked for, and a field with an operator that needs a value when a value is; a condition
waits exactly while its link is asked for; the filter is complete exactly in the last stage, when
no keys are taken and at least one condition is committed; and a builder that takes no keys is not
changed by any. -/
theorem Reachable.in_accord {table : Table} {settings : Settings} {resolver : Resolver}
    {b : Builder} (h : Reachable table settings resolver b) :
    (b.calendar.active = true ↔ b.stage = .calendar) ∧
    (b.rangePicker.active = true ↔ b.stage = .rangePicker) ∧
    (b.reference.active = true ↔ b.stage = .reference) ∧
    (b.stage = .reference → ∃ f, b.field = some f ∧ b.reference.table = f.reference) ∧
    (b.stage = .operator → b.field.isSome) ∧
    (b.stage ∈ [.value, .choice, .reference, .calendar, .rangePicker, .rangeText] →
      b.field.isSome ∧ ∃ e, b.operator = some e ∧ e.requiresValue = true) ∧
    (b.pending.isSome ↔ b.stage = .link) ∧
    (b.stage = .finished ↔ b.finished = true) ∧
    (b.stage = .finished → b.active = false ∧ b.conditions.conditions ≠ []) ∧
    (b.active = false → ∀ now k, b.update now k = .ok b) := by
  have hc := h.inOrder.coherent
  refine ⟨hc.calendar, hc.rangePicker, hc.reference, hc.referenceTable, hc.operator, ?_,
    hc.pending, hc.finished.symm, hc.left, fun ha now k => update_of_inactive ha now k⟩
  intro hs
  refine hc.value ?_
  revert hs
  show b.stage ∈ _ → b.stage.takesValue = true
  cases b.stage <;> decide

/-- While a day is picked, the calendar is open and no other picker is. -/
theorem in_accord_calendar :
    ∃ b, Reachable oneDay {} noSearches b ∧ b.stage = .calendar ∧ b.calendar.active = true ∧
      b.rangePicker.active = false ∧ b.field.isSome ∧ b.pending = none := by
  obtain ⟨b, hb, hs⟩ := exists_reachable oneDay {} noSearches ides [.enter, .enter]
    (fun b => decide (b.stage = .calendar)) (by decide +kernel)
  replace hs : b.stage = .calendar := of_decide_eq_true hs
  obtain ⟨hcalendar, hrange, _, _, _, hvalue, hpending, _⟩ := hb.in_accord
  refine ⟨b, hb, hs, hcalendar.mpr hs, ?_, (hvalue (by simp [hs])).1, ?_⟩
  · simpa [hs] using hrange
  · simpa [hs] using hpending

end EncodedQuery.Builder

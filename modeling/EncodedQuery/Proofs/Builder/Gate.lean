/-
  EncodedQuery.Proofs.Builder.Gate
  ────────────────────────────────
  **NOTHING IS COMMITTED UNCHECKED.**

  There is one way into the committed conditions: a key completes a condition on
  a field of the table with an operator on offer, and the check finds no error
  in it.  The first condition is committed by that key, a later one by the key
  that chooses its link, possibly after other conditions were removed.

  Main results:
    • `Reachable.commits_only_accepted` — what is committed, how it is linked,
      and what a single event can do to it,
    • `InOrder.rejected`, `InOrder.accepted` — what becomes of a completed
      condition.
-/
import EncodedQuery.Proofs.Builder.Invariant

namespace EncodedQuery.Builder

/-! ## §1. Single events. -/

/-- What an event can make of the committed conditions. -/
inductive Effect (b : Builder) : Event → Chain → Prop
  /-- They stay as they are. -/
  | unchanged {e : Event} : Effect b e b.conditions
  /-- An accepted condition, completed by this key or an earlier one, goes to their end. -/
  | appended {now : Instant} {k : Key} {c : Condition} (link : Option Link)
      (hc : b.completed? now k = some c ∨ b.pending = some c) (ha : b.table.Accepts c) :
      Effect b (.message (.key now k)) (b.conditions.append c link)
  /-- The last one is removed. -/
  | lastRemoved {now : Instant} {c : Condition} {rest : Chain}
      (hp : b.conditions.pop? = some (c, rest)) :
      Effect b (.message (.key now (.ctrl 'd'))) rest
  /-- All of them are dropped. -/
  | emptied {now : Instant} {k : Key} (hk : k = .ctrl 'x' ∨ (k = .esc ∧ b.stage = .field)) :
      Effect b (.message (.key now k)) .empty

section
variable {table : Table} {b b' : Builder} (hb : b.InOrder table) {now : Instant} {k : Key}
  {c : Condition}
include hb

/-- **What an event does to the committed conditions.** -/
theorem InOrder.effect {e : Event} (h : b.after e = .ok b') : b.Effect e b'.conditions := by
  rcases core_after h with hcore | ⟨now, k, rfl, hkey⟩
  · rw [show b'.conditions = b.conditions from congrArg Core.conditions hcore]
    exact .unchanged
  · rcases (hb.step hkey).conditions_cases with heq | ⟨c, link, hc, heq⟩ | ⟨rfl, c, hp⟩ | ⟨hk, heq⟩
    · rw [show b'.conditions = b.conditions from heq]
      exact .unchanged
    · rw [show b'.conditions = b.conditions.append c link from heq]
      rcases hc with ⟨hc, hr⟩ | hc
      · have hs := hb.step hkey
        rw [hc] at hs
        exact .appended link (.inl hc) (hb.sound.accepts_of_step hs hr)
      · exact .appended link (.inr hc) (hb.sound.pending c hc)
    · exact .lastRemoved hp
    · rw [show b'.conditions = .empty from heq]
      exact .emptied hk

/-- **A rejected condition leaves everything where it was**: the committed conditions, the stage,
the chosen field, and the condition that waits. -/
theorem InOrder.rejected (h : b.update now k = .ok b') (hc : b.completed? now k = some c)
    (hr : (Check.condition (some table) c).any Issue.isError = true) :
    b'.conditions = b.conditions ∧ b'.stage = b.stage ∧ b'.field = b.field ∧
      b'.pending = b.pending := by
  have hs := hb.step h
  rw [hc] at hs
  rw [← hb.table] at hr
  exact hs.of_rejects hr

/-- **An accepted condition is committed, if it is the first one, or waits for its link.** -/
theorem InOrder.accepted (h : b.update now k = .ok b') (hc : b.completed? now k = some c)
    (hr : ¬ (Check.condition (some table) c).any Issue.isError = true) :
    (b.conditions.conditions = [] ∧ b'.conditions = b.conditions.append c none) ∨
    (b.conditions.conditions ≠ [] ∧ b'.conditions = b.conditions ∧ b'.pending = some c ∧
      b'.stage = .link) := by
  have hs := hb.step h
  rw [hc] at hs
  rw [← hb.table] at hr
  exact hs.of_not_rejects hr

end

/-! ## §2. Every reachable state. -/

/-- **The gate.**  In every state that a new builder gets to, what is committed was accepted by
the table and is linked, no verdict has an error that points at it, and a single event leaves it
alone, appends one accepted condition, removes the last one, or drops everything.  A value that is
rejected changes neither it nor the stage. -/
theorem Reachable.commits_only_accepted {table : Table} {settings : Settings}
    {resolver : Resolver} {b : Builder} (h : Reachable table settings resolver b) :
    (∀ c ∈ b.conditions.conditions, table.Accepts c) ∧
    b.conditions.Linked ∧
    (∀ v ∈ b.revalidate.validation, ∀ i ∈ v.issues, i.isError = true → i.index = none) ∧
    ∀ e b', b.after e = .ok b' →
      b.Effect e b'.conditions ∧
      ∀ now k c, e = .message (.key now k) → b.completed? now k = some c →
        if (Check.condition (some table) c).any Issue.isError then
          b'.conditions = b.conditions ∧ b'.stage = b.stage ∧ b'.field = b.field ∧
            b'.pending = b.pending
        else
          (b.conditions.conditions = [] ∧ b'.conditions = b.conditions.append c none) ∨
          (b.conditions.conditions ≠ [] ∧ b'.conditions = b.conditions ∧ b'.pending = some c ∧
            b'.stage = .link) := by
  have hb := h.inOrder
  have hcommitted : ∀ c ∈ b.conditions.conditions, table.Accepts c := by
    rw [← hb.table]
    exact hb.sound.committed
  refine ⟨hcommitted, hb.sound.linked, ?_, ?_⟩
  · intro v hv i hi herror
    cases hv
    rw [hb.table] at hi
    exact Check.index_eq_none_of_isError (fun c hc => (hcommitted c hc).check) hi herror
  · intro e b' hafter
    refine ⟨hb.effect hafter, ?_⟩
    rintro now k c rfl hc
    split
    next hr => exact hb.rejected hafter hc hr
    next hr => exact hb.accepted hafter hc hr

/-- Two conditions joined by "or": both are accepted, and only the first has a link. -/
theorem commits_only_accepted_state_or_state :
    ∃ b, Reachable oneField {} noSearches b ∧
      b.conditions.conditions.map Condition.link = [some .or, none] ∧
      (∀ c ∈ b.conditions.conditions, oneField.Accepts c) ∧ b.conditions.Linked := by
  obtain ⟨b, hb, hlinks⟩ := exists_reachable oneField {} noSearches ides
    [.enter, .enter, .char '1', .enter, .enter, .enter, .char '2', .enter, .char 'o']
    (fun b => decide (b.conditions.conditions.map Condition.link = [some .or, none]))
    (by decide +kernel)
  have hgate := hb.commits_only_accepted
  exact ⟨b, hb, of_decide_eq_true hlinks, hgate.1, hgate.2.1⟩

end EncodedQuery.Builder

/-
  EncodedQuery.Proofs.Builder.Session
  ───────────────────────────────────
  **WHAT CAN HAPPEN TO A BUILDER.**

  Two kinds of message reach a builder: a key, read together with the clock, and
  the answer to a search.  Beside these the owner of the builder collects the
  answers that wait in the inbox, and searches make their requests and leave
  their answers there at any time.

  A state is reachable when a new builder gets there by such steps.  A history
  is freer: the owner may also load a filter, and turn the builder on and off.
-/
import EncodedQuery.Builder.Update

namespace EncodedQuery.Builder

/-! ## §1. Messages and events. -/

/-- A message to a builder. -/
inductive Message where
  /-- A key, pressed at an instant. -/
  | key (now : Instant) (k : Key)
  /-- The answer to a search. -/
  | answer (r : SearchResult)

/-- The builder after a message. -/
def receive (b : Builder) : Message → Except Fault Builder
  | .key now k => b.update now k
  | .answer r => .ok (b.deliver r)

/-- An event in a session. -/
inductive Event where
  /-- A message arrives. -/
  | message (m : Message)
  /-- The answers in the inbox are delivered. -/
  | poll
  /-- A search makes its request. -/
  | ask (q : Request)
  /-- A search leaves an answer in the inbox. -/
  | post (a : SearchResult)

/-- The builder after an event. -/
def after (b : Builder) : Event → Except Fault Builder
  | .message m => b.receive m
  | .poll => .ok b.poll.2
  | .ask q =>
      let resolver := { b.reference.resolver with requests := b.reference.resolver.requests ++ [q] }
      .ok { b with reference := { b.reference with resolver } }
  | .post a =>
      .ok { b with reference := { b.reference with resolver := b.reference.resolver.post a } }

/-- A builder that takes no keys stays as it is. -/
theorem update_of_inactive {b : Builder} (h : b.active = false) (now : Instant) (k : Key) :
    b.update now k = .ok b := by
  simp [update, h]

/-- A key that is taken is one that works in every stage, or one of the stage. -/
theorem update_cases {b : Builder} (ha : b.active = true) {now : Instant} {k : Key} {b' : Builder}
    (h : b.update now k = .ok b') :
    b.globalKey? now k = some b' ∨
    (b.globalKey? now k = none ∧ b.stageKey now k = .ok b' ∧ b.described b' = .ok b') := by
  unfold update at h
  rw [ha] at h
  cases hg : b.globalKey? now k with
  | some b₁ =>
      rw [hg] at h
      cases h
      exact .inl rfl
  | none =>
      rw [hg] at h
      refine .inr ⟨rfl, ?_⟩
      cases hstage : b.stageKey now k with
      | error f =>
          rw [hstage] at h
          cases h
      | ok b₁ =>
          rw [hstage] at h
          replace h : b.described b₁ = .ok b' := h
          have heq : b₁ = b' := by
            unfold described at h
            split at h <;> cases h
            rfl
          rw [heq] at h ⊢
          exact ⟨rfl, h⟩

/-- A key that adds no condition commits none. -/
theorem described_of_length_le {b b' : Builder}
    (h : b'.conditions.conditions.length ≤ b.conditions.conditions.length) :
    b.described b' = .ok b' := by
  rw [described, if_neg (fun hlt => absurd hlt.1 (Nat.not_lt.mpr h))]

/-! ## §2. Reachable states. -/

/-- The states that a new builder gets to. -/
inductive Reachable (table : Table) (settings : Settings) (resolver : Resolver) : Builder → Prop
  /-- A new builder. -/
  | created {now : Instant} {b : Builder} (h : create table settings resolver now = .ok b) :
      Reachable table settings resolver b
  /-- One more event. -/
  | event {b b' : Builder} {e : Event} (hb : Reachable table settings resolver b)
      (h : b.after e = .ok b') : Reachable table settings resolver b'

/-- The states that a new builder gets to when its owner also loads filters and turns it on and
off. -/
inductive History (table : Table) (settings : Settings) (resolver : Resolver) : Builder → Prop
  /-- A new builder. -/
  | created {now : Instant} {b : Builder} (h : create table settings resolver now = .ok b) :
      History table settings resolver b
  /-- One more event. -/
  | event {b b' : Builder} {e : Event} (hb : History table settings resolver b)
      (h : b.after e = .ok b') : History table settings resolver b'
  /-- A filter is loaded. -/
  | loaded {b : Builder} (hb : History table settings resolver b) (s : Chain) :
      History table settings resolver (b.setConditions s)
  /-- The builder is turned on or off. -/
  | turned {b : Builder} (hb : History table settings resolver b) (on : Bool) :
      History table settings resolver (b.setActive on)

/-- Every reachable state is part of a history. -/
theorem Reachable.history {table : Table} {settings : Settings} {resolver : Resolver} {b : Builder}
    (h : Reachable table settings resolver b) : History table settings resolver b := by
  induction h with
  | created h => exact .created h
  | event _ h ih => exact ih.event h

end EncodedQuery.Builder

/-
  EncodedQuery.Proofs.Fault
  ─────────────────────────
  **OPERATIONS THAT FAIL.**

  An operation made of several fails when the first one does, or when what
  follows it does.
-/
import EncodedQuery.Fault

namespace EncodedQuery

variable {α β : Type}

/-- The operation fails, for whatever cause. -/
def Fails (x : Except Fault α) : Prop := ∃ f, x = .error f

@[simp] theorem fails_error (f : Fault) : Fails (.error f : Except Fault α) := ⟨f, rfl⟩

@[simp] theorem not_fails_ok (a : α) : ¬ Fails (.ok a : Except Fault α) := nofun

@[simp] theorem not_fails_pure (a : α) : ¬ Fails (pure a : Except Fault α) := nofun

/-- An operation that does not fail has a result. -/
theorem exists_ok_of_not_fails {x : Except Fault α} (h : ¬ Fails x) : ∃ a, x = .ok a := by
  cases x with
  | error f => exact absurd (fails_error f) h
  | ok a => exact ⟨a, rfl⟩

/-- A test of the result shows that there is one. -/
theorem exists_ok_of_any {x : Except Fault α} {p : α → Bool} (h : x.toOption.any p = true) :
    ∃ a, x = .ok a ∧ p a = true := by
  cases x with
  | error f => cases h
  | ok a => exact ⟨a, rfl, h⟩

/-- An operation made of two has a result when both have one. -/
theorem exists_of_bind_eq_ok {ε : Type} {x : Except ε α} {f : α → Except ε β} {b : β}
    (h : x >>= f = .ok b) : ∃ a, x = .ok a ∧ f a = .ok b := by
  cases x with
  | error e => cases h
  | ok a => exact ⟨a, rfl, h⟩

theorem fails_bind_iff (x : Except Fault α) (f : α → Except Fault β) :
    Fails (x >>= f) ↔ Fails x ∨ ∃ a, x = .ok a ∧ Fails (f a) := by
  cases x with
  | error e => exact iff_of_true (fails_error e) (.inl (fails_error e))
  | ok a =>
      constructor
      · exact fun h => .inr ⟨a, rfl, h⟩
      · rintro (h | ⟨a', heq, h⟩)
        · exact absurd h (not_fails_ok a)
        · cases heq
          exact h

/-- When what follows fails whatever the result, the operation fails as the two do apart. -/
theorem fails_bind_iff_or {x : Except Fault α} {f : α → Except Fault β} {p : Prop}
    (h : ∀ a, Fails (f a) ↔ p) : Fails (x >>= f) ↔ Fails x ∨ p := by
  rw [fails_bind_iff]
  cases x with
  | error e => exact iff_of_true (.inl (fails_error e)) (.inl (fails_error e))
  | ok a => simp [h]

/-- What is done with a result in the end does not matter. -/
@[simp] theorem fails_bind_pure_iff (x : Except Fault α) (f : α → β) :
    Fails (x >>= fun a => pure (f a)) ↔ Fails x := by
  rw [fails_bind_iff]
  simp only [not_fails_pure, and_false, exists_false, or_false]

@[simp] theorem fails_map_iff (x : Except Fault α) (f : α → β) : Fails (x.map f) ↔ Fails x := by
  cases x <;> simp [Except.map]

/-- What every step of a run keeps, the run keeps. -/
theorem of_foldlM {P : α → Prop} {step : α → β → Except Fault α}
    (hstep : ∀ {a a' : α} {b : β}, P a → step a b = .ok a' → P a') :
    ∀ {l : List β} {a a' : α}, P a → l.foldlM step a = .ok a' → P a'
  | [], _, _, ha, h => by
      cases h
      exact ha
  | b :: l, a, a', ha, h => by
      rw [List.foldlM_cons] at h
      obtain ⟨a₁, h₁, h⟩ := exists_of_bind_eq_ok h
      exact of_foldlM hstep (hstep ha h₁) h

/-- What is written item by item is read back item by item. -/
theorem mapM_map_eq_ok {f : β → Except Fault α} {g : α → β} :
    ∀ {xs : List α}, (∀ x ∈ xs, f (g x) = .ok x) → (xs.map g).mapM f = .ok xs
  | [], _ => rfl
  | x :: xs, h => by
      obtain ⟨hx, hxs⟩ := List.forall_mem_cons.mp h
      rw [List.map_cons, List.mapM_cons, hx, mapM_map_eq_ok hxs]
      rfl

/-- A row is not read when one of its items is not. -/
theorem fails_mapM {f : α → Except Fault β} :
    ∀ {xs : List α}, (∃ x ∈ xs, Fails (f x)) → Fails (xs.mapM f)
  | [], ⟨_, hx, _⟩ => absurd hx List.not_mem_nil
  | x :: xs, ⟨y, hy, hfails⟩ => by
      rw [List.mapM_cons, fails_bind_iff]
      cases hx : f x with
      | error e => exact .inl (fails_error e)
      | ok b =>
          have hrest : y ∈ xs := by
            rcases List.mem_cons.mp hy with rfl | hmem
            · rw [hx] at hfails
              exact absurd hfails (not_fails_ok b)
            · exact hmem
          refine .inr ⟨b, rfl, ?_⟩
          exact (fails_bind_pure_iff _ _).mpr (fails_mapM ⟨y, hrest, hfails⟩)

theorem fails_mapM_iff {f : α → Except Fault β} {xs : List α} :
    Fails (xs.mapM f) ↔ ∃ x ∈ xs, Fails (f x) := by
  refine ⟨fun h => ?_, fails_mapM⟩
  induction xs with
  | nil => exact absurd h (not_fails_pure [])
  | cons x xs ih =>
      rw [List.mapM_cons, fails_bind_iff] at h
      rcases h with h | ⟨b, -, h⟩
      · exact ⟨x, List.mem_cons_self, h⟩
      · obtain ⟨y, hy, hfails⟩ := ih ((fails_bind_pure_iff _ _).mp h)
        exact ⟨y, List.mem_cons_of_mem x hy, hfails⟩

/-- Operations that agree in what is seen of their results fail in the same way, or both have
results that look the same. -/
theorem cases_of_map_eq {x y : Except Fault α} {f : α → β} (h : x.map f = y.map f) :
    (∃ e, x = .error e ∧ y = .error e) ∨ ∃ a b, x = .ok a ∧ y = .ok b ∧ f a = f b := by
  cases x with
  | error e =>
      cases y with
      | error e' =>
          cases h
          exact .inl ⟨e, rfl, rfl⟩
      | ok b => cases h
  | ok a =>
      cases y with
      | error e => cases h
      | ok b => exact .inr ⟨a, b, rfl, rfl, Except.ok.inj h⟩

end EncodedQuery

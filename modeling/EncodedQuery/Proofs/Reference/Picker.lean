/-
  EncodedQuery.Proofs.Reference.Picker
  ────────────────────────────────────
  **A PICKER FOR A RECORD FROM KEY TO KEY.**

  The searches of a picker are numbered and leave requests and answers behind,
  but a picker looks at none of this: it only asks whether a search was started
  at all.  With its searches at rest a picker is the same whatever was searched
  for before.

  Main results:
    • `table_update` — no key changes the table that is searched,
    • `stilled_update` — what a key does depends on no earlier search,
    • `sameMake_update` — no key changes how a picker was made.
-/
import EncodedQuery.Reference.Picker
import EncodedQuery.Proofs.Widget.PickList

namespace EncodedQuery

/-! ## §1. Searches at rest. -/

namespace Resolver

/-- Searches that were never used, where records are found and from what length on. -/
def still (r : Resolver) : Resolver := { source := r.source, minLength := r.minLength }

@[simp] theorem still_run (r : Resolver) (job : SearchJob) : (r.run job).still = r.still := by
  unfold run
  split
  · rfl
  · split <;> rfl

@[simp] theorem still_submit (r : Resolver) (job : SearchJob) : (r.submit job).still = r.still := by
  unfold submit
  dsimp only
  split
  · rfl
  · exact still_run _ _

@[simp] theorem still_search (r : Resolver) (table text : Text) :
    (r.search table text).2.still = r.still := by
  unfold search
  dsimp only
  split
  · rfl
  · exact still_submit _ _

/-- Whether a search is started depends on no earlier search. -/
theorem isSome_search (r : Resolver) (table text : Text) :
    (r.search table text).1.isSome = (r.still.search table text).1.isSome := by
  unfold search
  dsimp only [cancel, still]
  split <;> rfl

end Resolver

namespace ReferencePicker

/-- The picker with its searches at rest. -/
def stilled (p : ReferencePicker) : ReferencePicker := { p with resolver := p.resolver.still }

@[simp] theorem input_stilled (p : ReferencePicker) : p.stilled.input = p.input := rfl

@[simp] theorem results_stilled (p : ReferencePicker) : p.stilled.results = p.results := rfl

/-- What is seen of a picker does not depend on its searches. -/
theorem eq_of_stilled_eq {p q : ReferencePicker} (h : p.stilled = q.stilled) :
    p.active = q.active ∧ p.completed = q.completed ∧ p.value = q.value ∧ p.table = q.table := by
  cases p
  cases q
  simp_all [stilled]

/-! ## §2. Keys. -/

@[simp] theorem table_startSearch (p : ReferencePicker) : p.startSearch.table = p.table := by
  unfold startSearch
  dsimp only
  split <;> rfl

@[simp] theorem table_confirm (p : ReferencePicker) : p.confirm.table = p.table := by
  unfold confirm
  dsimp only
  split
  · rfl
  · split <;> rfl

@[simp] theorem table_updateInput (p : ReferencePicker) (k : Key) :
    (p.updateInput k).table = p.table := by
  unfold updateInput
  dsimp only
  split
  · rfl
  · exact table_startSearch _

/-- No key changes the table that is searched. -/
@[simp] theorem table_update (p : ReferencePicker) (k : Key) : (p.update k).table = p.table := by
  unfold update
  repeat' split
  all_goals first | rfl | exact table_confirm p | exact table_updateInput p k

@[simp] theorem table_handleResult (p : ReferencePicker) (r : SearchResult) :
    (p.handleResult r).table = p.table := by
  unfold handleResult
  split <;> rfl

@[simp] theorem active_handleResult (p : ReferencePicker) (r : SearchResult) :
    (p.handleResult r).active = p.active := by
  unfold handleResult
  split <;> rfl

/-! ## §3. Earlier searches. -/

theorem stilled_startSearch (p : ReferencePicker) :
    p.startSearch.stilled = p.stilled.startSearch.stilled := by
  have hsome := p.resolver.isSome_search p.table p.input.value
  have hstill := p.resolver.still_search p.table p.input.value
  have hstill' := p.resolver.still.still_search p.table p.input.value
  unfold startSearch
  dsimp only [stilled]
  cases h : (p.resolver.search p.table p.input.value).1 <;>
    cases h' : (p.resolver.still.search p.table p.input.value).1 <;>
    simp only [h, h', Option.isSome_none, Option.isSome_some, reduceCtorEq] at hsome <;>
    simp only [hstill, hstill'] <;> rfl

/-- A choice between pickers may be compared branch by branch. -/
theorem stilled_ite {c : Prop} [Decidable c] {p q p' q' : ReferencePicker}
    (hp : p.stilled = p'.stilled) (hq : q.stilled = q'.stilled) :
    (if c then p else q).stilled = (if c then p' else q').stilled := by
  split
  · exact hp
  · exact hq

theorem stilled_confirm (p : ReferencePicker) : p.confirm.stilled = p.stilled.confirm.stilled := by
  unfold confirm
  simp only [input_stilled, results_stilled]
  split
  · rfl
  · exact stilled_ite rfl rfl

theorem stilled_updateInput (p : ReferencePicker) (k : Key) :
    (p.updateInput k).stilled = (p.stilled.updateInput k).stilled := by
  unfold updateInput
  refine stilled_ite rfl ?_
  exact stilled_startSearch { p with input := (p.input.handle k).1, focusList := false }

/-- **What a key does to a picker depends on no earlier search.** -/
theorem stilled_update (p : ReferencePicker) (k : Key) :
    (p.update k).stilled = (p.stilled.update k).stilled := by
  unfold update
  refine stilled_ite rfl (stilled_ite rfl (stilled_ite (stilled_confirm p) ?_))
  refine stilled_ite (stilled_ite rfl rfl) (stilled_ite rfl ?_)
  exact stilled_updateInput p k

theorem stilled_handleResult (p : ReferencePicker) (r : SearchResult) :
    (p.handleResult r).stilled = p.stilled.handleResult r := by
  unfold handleResult
  dsimp only [stilled]
  split <;> rfl

/-! ## §4. Opening afresh. -/

/-- Both pickers were made in the same way. -/
structure SameMake (p p' : ReferencePicker) : Prop where
  /-- Where records are found. -/
  resolver : p'.resolver.still = p.resolver.still
  /-- The search box, once it is emptied. -/
  input : p'.input.reset = p.input.reset
  /-- The list of candidates, once it is filled. -/
  results : p'.results.setItems = p.results.setItems

theorem SameMake.refl (p : ReferencePicker) : SameMake p p := ⟨rfl, rfl, rfl⟩

theorem SameMake.trans {p p' p'' : ReferencePicker} (h : SameMake p p') (h' : SameMake p' p'') :
    SameMake p p'' :=
  ⟨h'.resolver.trans h.resolver, h'.input.trans h.input, h'.results.trans h.results⟩

theorem sameMake_activate (p : ReferencePicker) (table : Text) : SameMake p (p.activate table) :=
  ⟨rfl, rfl, rfl⟩

theorem sameMake_deactivate (p : ReferencePicker) : SameMake p p.deactivate := ⟨rfl, rfl, rfl⟩

theorem sameMake_startSearch (p : ReferencePicker) : SameMake p p.startSearch := by
  have hstill := p.resolver.still_search p.table p.input.value
  unfold startSearch
  dsimp only
  split <;> exact ⟨hstill, rfl, rfl⟩

theorem sameMake_confirm (p : ReferencePicker) : SameMake p p.confirm := by
  unfold confirm
  dsimp only
  split
  · exact ⟨rfl, rfl, rfl⟩
  · split <;> exact ⟨rfl, rfl, rfl⟩

theorem sameMake_updateInput (p : ReferencePicker) (k : Key) : SameMake p (p.updateInput k) := by
  have hinput : (p.input.handle k).1.reset = p.input.reset := TextInput.reset_handle _ _
  unfold updateInput
  dsimp only
  split
  · exact ⟨rfl, hinput, rfl⟩
  · have htyped : SameMake p { p with input := (p.input.handle k).1, focusList := false } :=
      ⟨rfl, hinput, rfl⟩
    exact htyped.trans (sameMake_startSearch _)

/-- **No key changes how a picker was made.** -/
theorem sameMake_update (p : ReferencePicker) (k : Key) : SameMake p (p.update k) := by
  unfold update
  split
  · exact .refl p
  · split
    · exact ⟨rfl, rfl, rfl⟩
    · split
      · exact sameMake_confirm p
      · split
        · split <;> exact ⟨rfl, rfl, rfl⟩
        · split
          · exact ⟨rfl, rfl, funext fun items => by simp⟩
          · exact sameMake_updateInput p k

/-- No answer does. -/
theorem sameMake_handleResult (p : ReferencePicker) (r : SearchResult) :
    SameMake p (p.handleResult r) := by
  unfold handleResult
  split <;> exact ⟨rfl, rfl, rfl⟩

/-- The picker opened afresh, its searches at rest. -/
def renewed (p : ReferencePicker) (table : Text) : ReferencePicker := (p.activate table).stilled

/-- Pickers of one make are the same once they are opened afresh. -/
theorem SameMake.renewed_eq {p p' : ReferencePicker} (h : SameMake p p') :
    p'.renewed = p.renewed := by
  funext table
  simp [renewed, activate, stilled, h.resolver, h.input, h.results]

end ReferencePicker

end EncodedQuery

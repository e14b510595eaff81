/-
  EncodedQuery.Proofs.Reference.Listed
  ────────────────────────────────────
  **WHAT IS LISTED WAS FOUND BY THE LAST ANSWER.**

  The candidates of a picker are those of the last answer that it was given,
  until they are taken away: by a failure, by a text too short to be searched
  for, or when the picker is opened again.  They stay while a search for another
  text is under way.  So what is listed was found for the text in the box, unless
  an answer is still awaited; then it was found for an earlier text, by a search
  that has been superseded.

  Main results: `Lists.update`, `lists_handleResult`, `Lists.of_completed`.
-/
import EncodedQuery.Proofs.Reference.Picker
import EncodedQuery.Proofs.Reference.Workers

namespace EncodedQuery.ReferencePicker

/-! ## §1. Lists and answers. -/

/-- The picker lists what the answer found. -/
structure Shows (p : ReferencePicker) (a : SearchResult) : Prop where
  /-- Its candidates are the listed ones. -/
  outcome : a.outcome = .ok p.candidates
  /-- It was found in the table of the picker. -/
  table : a.table = p.table
  /-- It was found by a search of this picker. -/
  le : a.sequence ≤ p.resolver.sequence
  /-- While an answer is awaited, that search has been superseded. -/
  superseded : p.searching = true → a.sequence < p.resolver.sequence
  /-- Otherwise it was found for the text in the box. -/
  text : p.searching = false → a.text = Text.strip p.input.value

/-- What is listed was found by the last answer, if there was any. -/
structure Lists (p : ReferencePicker) (last : Option SearchResult) : Prop where
  /-- The rows stand for the candidates. -/
  items : p.results.items = p.candidates.map candidateItem
  /-- They are in order. -/
  valid : p.results.Valid
  /-- The candidates come from the answer. -/
  shown : p.candidates ≠ [] → ∃ a ∈ last, p.Shows a

variable {p q : ReferencePicker} {last : Option SearchResult}

/-- A picker without candidates lists nothing. -/
theorem lists_of_empty (hcandidates : p.candidates = [])
    (hresults : ∃ l : PickList Candidate, p.results = l.setItems []) : p.Lists last := by
  obtain ⟨l, hl⟩ := hresults
  refine ⟨?_, ?_, fun hne => absurd hcandidates hne⟩
  · rw [hl, hcandidates]
    rfl
  · rw [hl]
    exact PickList.valid_setItems _ _

theorem lists_new (resolver : Resolver) (window : Int) : (new resolver window).Lists last :=
  lists_of_empty rfl ⟨_, rfl⟩

theorem lists_activate (p : ReferencePicker) (table : Text) : (p.activate table).Lists last :=
  lists_of_empty rfl ⟨_, rfl⟩

/-- A new number makes no difference to what is listed, nor does a move of the cursor. -/
theorem Lists.of_eq (h : p.Lists last) (hitems : q.results.items = p.results.items)
    (hvalid : q.results.Valid) (hcandidates : q.candidates = p.candidates)
    (htable : q.table = p.table) (hinput : q.input.value = p.input.value)
    (hsearching : q.searching = p.searching)
    (hle : p.resolver.sequence ≤ q.resolver.sequence) : q.Lists last where
  items := by rw [hitems, hcandidates, h.items]
  valid := hvalid
  shown := by
    rw [hcandidates]
    intro hne
    obtain ⟨a, ha, hshows⟩ := h.shown hne
    refine ⟨a, ha, ?_, ?_, Nat.le_trans hshows.le hle, ?_, ?_⟩
    · rw [hcandidates]
      exact hshows.outcome
    · rw [htable]
      exact hshows.table
    · rw [hsearching]
      exact fun hs => Nat.lt_of_lt_of_le (hshows.superseded hs) hle
    · rw [hsearching, hinput]
      exact hshows.text

/-! ## §2. Steps. -/

theorem Lists.deactivate (h : p.Lists last) : p.deactivate.Lists last :=
  h.of_eq rfl h.valid rfl rfl rfl rfl (Nat.le_succ _)

theorem Lists.cancel (h : p.Lists last) :
    ({ p with resolver := p.resolver.cancel } : ReferencePicker).Lists last :=
  h.of_eq rfl h.valid rfl rfl rfl rfl (Nat.le_succ _)

/-- A search for another text supersedes the one whose candidates are listed. -/
theorem Lists.search (h : p.Lists last) (input : TextInput) (focusList : Bool) :
    (startSearch { p with input, focusList }).Lists last := by
  have hsequence := p.resolver.sequence_search p.table input.value
  unfold startSearch
  dsimp only
  split
  · -- the candidates stay, but their search is behind the number of the new one
    refine ⟨h.items, h.valid, fun hne => ?_⟩
    obtain ⟨a, ha, hshows⟩ := h.shown hne
    have hlt : a.sequence < (p.resolver.search p.table input.value).2.sequence := by
      rw [hsequence]
      exact Nat.lt_succ_of_le hshows.le
    exact ⟨a, ha, hshows.outcome, hshows.table, Nat.le_of_lt hlt, fun _ => hlt, nofun⟩
  · exact lists_of_empty rfl ⟨_, rfl⟩

theorem Lists.updateInput (h : p.Lists last) (k : Key) : (p.updateInput k).Lists last := by
  unfold ReferencePicker.updateInput
  dsimp only
  split
  next heq => exact h.of_eq rfl h.valid rfl rfl heq rfl (Nat.le_refl _)
  next => exact h.search _ _

theorem Lists.confirm (h : p.Lists last) : p.confirm.Lists last := by
  unfold ReferencePicker.confirm
  dsimp only
  split
  · exact h.of_eq rfl h.valid rfl rfl rfl rfl (Nat.le_succ _)
  · split
    · exact h.of_eq rfl h.valid rfl rfl rfl rfl (Nat.le_refl _)
    · exact h.of_eq rfl h.valid rfl rfl rfl rfl (Nat.le_succ _)

/-- **A key keeps what is listed the candidates of the last answer.** -/
theorem Lists.update (h : p.Lists last) (k : Key) : (p.update k).Lists last := by
  unfold ReferencePicker.update
  split
  · exact h
  · split
    · exact h.of_eq rfl h.valid rfl rfl rfl rfl (Nat.le_succ _)
    · split
      · exact h.confirm
      · split
        · split
          · exact h
          · exact h.of_eq rfl h.valid rfl rfl rfl rfl (Nat.le_refl _)
        · split
          · exact h.of_eq (PickList.items_handle _ _) (h.valid.handle k) rfl rfl rfl rfl
              (Nat.le_refl _)
          · exact h.updateInput k

/-- **An answer to the current search, given to the picker, is the last one.** -/
theorem lists_handleResult {a : SearchResult} (htable : a.table = p.table)
    (htext : a.text = Text.strip p.input.value) (hnow : a.sequence = p.resolver.sequence) :
    (p.handleResult a).Lists (some a) := by
  unfold handleResult
  split
  · exact lists_of_empty rfl ⟨_, rfl⟩
  next cs hcs =>
    refine ⟨rfl, PickList.valid_setItems _ _, fun _ => ⟨a, rfl, ?_⟩⟩
    exact ⟨hcs, htable, Nat.le_of_eq hnow, nofun, fun _ => htext⟩

/-! ## §3. What is confirmed. -/

@[simp] theorem active_startSearch (p : ReferencePicker) : p.startSearch.active = p.active := by
  unfold startSearch
  dsimp only
  split <;> rfl

@[simp] theorem active_updateInput (p : ReferencePicker) (k : Key) :
    (p.updateInput k).active = p.active := by
  unfold updateInput
  dsimp only
  split
  · rfl
  · exact active_startSearch _

/-- Only two keys close an open picker. -/
theorem active_update (ha : p.active = true) {k : Key} (hesc : k ≠ .esc) (henter : k ≠ .enter) :
    (p.update k).active = true := by
  unfold update
  rw [ha, Bool.not_true, if_neg Bool.false_ne_true, if_neg hesc, if_neg henter]
  split
  · split
    · exact ha
    · rfl
  · split
    · rfl
    · exact (active_updateInput p k).trans ha

/-- A choice that is confirmed is the candidate under the cursor, or the typed text. -/
theorem confirm_cases (hclosed : p.confirm.active ≠ p.active) :
    (∃ item, p.results.selected = some item ∧ p.confirm.value = item.value.identifier) ∨
      p.confirm.value = Text.strip p.input.value := by
  cases hitem : p.results.selected with
  | some item => exact .inl ⟨item, rfl, by simp [confirm, hitem, deactivate]⟩
  | none =>
      by_cases hempty : (Text.strip p.input.value).isEmpty = true
      · exact absurd (by simp [confirm, hitem, hempty]) hclosed
      · exact .inr (by simp [confirm, hitem, hempty, deactivate])

/-- **What is confirmed** is the text in the box, or a candidate that was found for it, unless an
answer is awaited: then it may be a candidate that was found by a superseded search. -/
theorem Lists.of_completed (h : p.Lists last) (ha : p.active = true) {k : Key}
    (hclosed : (p.update k).active = false) (hdone : (p.update k).completed = true) :
    k = .enter ∧ ((p.update k).value = Text.strip p.input.value ∨
      ∃ a ∈ last, p.Shows a ∧ ∃ d ∈ a.candidates, (p.update k).value = d.identifier) := by
  have hactive : (p.update k).active ≠ p.active := by simp [hclosed, ha]
  have henter : k = .enter := by
    by_contra henter
    by_cases hesc : k = .esc
    · subst hesc
      simp [ReferencePicker.update, ReferencePicker.deactivate, ha] at hdone
    · exact hactive ((active_update ha hesc henter).trans ha.symm)
  subst henter
  have hkey : p.update .enter = p.confirm := by
    simp [ReferencePicker.update, ha]
  rw [hkey] at hactive ⊢
  refine ⟨rfl, ?_⟩
  rcases confirm_cases hactive with ⟨item, hitem, hvalue⟩ | htyped
  · -- the row under the cursor stands for a candidate, and candidates come from the answer
    have hmem := h.valid.mem_of_selected hitem
    rw [h.items] at hmem
    obtain ⟨d, hd, rfl⟩ := List.mem_map.mp hmem
    obtain ⟨a, ha, hshows⟩ := h.shown (List.ne_nil_of_mem hd)
    refine .inr ⟨a, ha, hshows, d, ?_, hvalue⟩
    rw [SearchResult.candidates, hshows.outcome]
    exact hd
  · exact .inl htyped

end EncodedQuery.ReferencePicker

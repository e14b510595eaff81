/-
  EncodedQuery.Proofs.Builder.Verdict
  ───────────────────────────────────
  **THE SHOWN VERDICT IS UP TO DATE.**

  A builder keeps its last verdict on the committed conditions, and shows it or
  not.  Whatever changes the conditions while verdicts are shown renews the
  verdict, or drops it together with all conditions.  While verdicts are hidden
  the last one may age; it is renewed when they are shown again.

  Main results:
    • `UpToDate.update`, `UpToDate.after` — a key, an event keeps the verdict up
      to date,
    • `History.shows_verdict` — the shown verdict is the one on the committed
      conditions, whatever happened to the builder.
-/
import EncodedQuery.Proofs.Builder.Fresh
import EncodedQuery.Proofs.Builder.Invariant

namespace EncodedQuery

/-- A verdict names the query of the conditions that it is on. -/
theorem Check.query_conditions (table : Option Table) (s : Chain) :
    (Check.conditions table s.conditions).query = s.encode := by
  unfold Check.conditions
  split
  next h => rw [Chain.encode, List.isEmpty_iff.mp h, Chain.encodeList]
  next => rfl

namespace Builder

/-! ## §1. The verdict that is due. -/

/-- The verdict on the committed conditions as they are. -/
def dueVerdict (b : Builder) : Verdict := Check.conditions (some b.table) b.conditions.conditions

/-- While verdicts are shown, the last one is the one on the committed conditions; there may be
none only while nothing is committed. -/
def UpToDate (b : Builder) : Prop :=
  b.showValidation = true →
    b.validation = some b.dueVerdict ∨ (b.validation = none ∧ b.conditions.conditions = [])

theorem upToDate_revalidate (b : Builder) : b.revalidate.UpToDate := fun _ => .inl rfl

/-- A verdict that is shown is renewed, and one that is not shown may be of any age. -/
theorem upToDate_refreshValidation (b : Builder) : b.refreshValidation.UpToDate := by
  unfold refreshValidation
  split
  next => exact upToDate_revalidate b
  next hidden => exact fun shown => absurd shown hidden

theorem upToDate_new (table : Table) (settings : Settings) (resolver : Resolver) (now : Instant) :
    (new table settings resolver now).UpToDate := fun _ => .inr ⟨rfl, rfl⟩

/-! ## §2. Committing. -/

/-! Widgets, texts and stages play no part in it: where an operation leaves table, conditions and
verdict alone, what was up to date still is, by the very same proof. -/

section
variable {b : Builder} (h : b.UpToDate)
include h

theorem UpToDate.commit (link : Option Link) : (b.commit link).UpToDate := by
  unfold Builder.commit
  split
  · exact h
  · exact upToDate_refreshValidation _

theorem UpToDate.reopenPicker : b.reopenPicker.UpToDate := by
  unfold Builder.reopenPicker
  split <;> exact h

theorem UpToDate.submit (c : Condition) : (b.submit c).UpToDate := by
  unfold Builder.submit
  dsimp only
  split
  next first _ _ =>
    have hrejected : UpToDate { b with error := first.format } := h
    exact hrejected.reopenPicker
  next =>
    split
    · refine UpToDate.commit ?_ none
      exact h
    · exact h

theorem UpToDate.submitValue (value : Text) : (b.submitValue value).UpToDate := by
  unfold Builder.submitValue
  split
  · exact h.submit _
  · exact h

theorem UpToDate.submitRange (start stop : Instant) : (b.submitRange start stop).UpToDate := by
  unfold Builder.submitRange
  split
  · exact h.submit _
  · exact h

/-! ## §3. Choosing an operator, and leaving. -/

theorem UpToDate.openValue (now : Instant) (f : Field) (e : OperatorEntry) :
    (b.openValue now f e).UpToDate := by
  unfold Builder.openValue
  dsimp only
  split
  · split <;> exact h
  · split
    · exact h
    · split
      · exact h
      · split <;> exact h

theorem UpToDate.chooseOperator (now : Instant) (e : OperatorEntry) :
    (b.chooseOperator now e).UpToDate := by
  have hchosen : UpToDate { b with operator := some e, error := [] } := h
  unfold Builder.chooseOperator
  dsimp only
  split
  · exact hchosen
  · split
    · exact hchosen.openValue now _ e
    · exact hchosen.submitValue _

theorem UpToDate.setActive (on : Bool) : (b.setActive on).UpToDate := by
  unfold Builder.setActive
  split <;> exact h

theorem UpToDate.finish : b.finish.UpToDate := by
  unfold Builder.finish
  split
  · exact h
  · refine UpToDate.setActive ?_ false
    exact h

/-! ## §4. Keys that work in every stage. -/

theorem UpToDate.toggleDateMode (now : Instant) : (b.toggleDateMode now).UpToDate := by
  unfold Builder.toggleDateMode
  dsimp only
  generalize (if (!b.useAdvancedDate) = true then ("Calendar picker" : Text)
    else "Text date entry") = message
  split
  · split
    · refine UpToDate.chooseOperator ?_ now _
      exact h
    · exact h
  · exact h

theorem UpToDate.globalKey {now : Instant} {k : Key} {b' : Builder}
    (hk : b.globalKey? now k = some b') : b'.UpToDate := by
  unfold globalKey? at hk
  split at hk <;> cases hk
  · exact h
  -- showing the verdict, asking for one and removing a condition renew it
  · exact upToDate_refreshValidation _
  · exact upToDate_revalidate b
  · exact upToDate_refreshValidation _
  -- starting over drops it with the conditions
  · exact fun _ => .inr ⟨rfl, rfl⟩
  · exact h.toggleDateMode now

/-! ## §5. Keys of the stages. -/

theorem UpToDate.fieldKey (k : Key) : (b.fieldKey k).UpToDate := by
  unfold Builder.fieldKey
  split
  · split <;> exact h
  · exact fun _ => .inr ⟨rfl, rfl⟩
  · exact h.finish
  · exact h

theorem UpToDate.operatorKey (now : Instant) (k : Key) : (b.operatorKey now k).UpToDate := by
  unfold Builder.operatorKey
  split
  · split
    · exact h
    · exact h.chooseOperator now _
  · exact h
  · exact h

theorem UpToDate.valueKey (k : Key) : (b.valueKey k).UpToDate := by
  unfold Builder.valueKey
  split
  · exact h.submitValue _
  · exact h
  · exact h

theorem UpToDate.choiceKey (k : Key) : (b.choiceKey k).UpToDate := by
  unfold Builder.choiceKey
  split
  · exact h.submitValue _
  · split
    · exact h
    · split <;> exact h

theorem UpToDate.referenceKey (k : Key) : (b.referenceKey k).UpToDate := by
  have hpassed : UpToDate { b with reference := b.reference.update k } := h
  unfold Builder.referenceKey
  dsimp only
  split
  · exact hpassed
  · split
    · exact hpassed.submitValue _
    · exact hpassed

theorem UpToDate.calendarKey {now : Instant} {k : Key} {b' : Builder}
    (hk : b.calendarKey now k = .ok b') : b'.UpToDate := by
  unfold Builder.calendarKey at hk
  obtain ⟨c, _, hk⟩ := exists_of_bind_eq_ok hk
  cases hk
  have hpassed : UpToDate { b with calendar := c } := h
  dsimp only
  split
  · exact hpassed
  · split
    · exact hpassed.submitValue _
    · exact hpassed

theorem UpToDate.rangePickerKey {now : Instant} {k : Key} {b' : Builder}
    (hk : b.rangePickerKey now k = .ok b') : b'.UpToDate := by
  unfold Builder.rangePickerKey at hk
  obtain ⟨p, _, hk⟩ := exists_of_bind_eq_ok hk
  cases hk
  have hpassed : UpToDate { b with rangePicker := p } := h
  dsimp only
  split
  · exact hpassed
  · split
    · exact hpassed.submitRange _ _
    · exact hpassed

theorem UpToDate.confirmRangeText : b.confirmRangeText.UpToDate := by
  unfold Builder.confirmRangeText
  dsimp only
  split
  · exact h
  · exact h
  · generalize (if .char ':' ∈ Text.strip b.stopInput.value then _ else _) = stop
    split
    · exact h.submitRange _ _
    · exact h

theorem UpToDate.rangeTextKey (k : Key) : (b.rangeTextKey k).UpToDate := by
  unfold Builder.rangeTextKey
  split
  · exact h
  · split
    · exact h.confirmRangeText
    · exact h
  · exact h
  · split <;> exact h

theorem UpToDate.linkKey (k : Key) : (b.linkKey k).UpToDate := by
  unfold Builder.linkKey
  split
  case h_7 => exact h
  all_goals exact h.commit _

theorem UpToDate.stageKey {now : Instant} {k : Key} {b' : Builder}
    (hk : b.stageKey now k = .ok b') : b'.UpToDate := by
  unfold Builder.stageKey at hk
  split at hk
  · cases hk; exact h.fieldKey k
  · cases hk; exact h.operatorKey now k
  · cases hk; exact h.valueKey k
  · cases hk; exact h.choiceKey k
  · cases hk; exact h.referenceKey k
  · exact h.calendarKey hk
  · exact h.rangePickerKey hk
  · cases hk; exact h.rangeTextKey k
  · cases hk; exact h.linkKey k
  · cases hk; exact h

/-! ## §6. Every step of a history. -/

/-- **A key keeps the verdict up to date.** -/
theorem UpToDate.update {now : Instant} {k : Key} {b' : Builder}
    (hk : b.update now k = .ok b') : b'.UpToDate := by
  cases ha : b.active with
  | false =>
      rw [update_of_inactive ha] at hk
      cases hk
      exact h
  | true =>
      rcases update_cases ha hk with hglobal | ⟨_, hstage, _⟩
      · exact h.globalKey hglobal
      · exact h.stageKey hstage

theorem UpToDate.deliver (r : SearchResult) : (b.deliver r).UpToDate := by
  unfold Builder.deliver
  split <;> exact h

omit h in
theorem upToDate_foldl_deliver (answers : List SearchResult) :
    ∀ b : Builder, b.UpToDate → (answers.foldl Builder.deliver b).UpToDate := by
  induction answers with
  | nil => exact fun _ h => h
  | cons r rest ih => exact fun b h => ih _ (h.deliver r)

/-- **So does every event.** -/
theorem UpToDate.after {e : Event} {b' : Builder} (he : b.after e = .ok b') : b'.UpToDate := by
  cases e with
  | message m =>
      cases m with
      | key now k => exact h.update he
      | answer r =>
          cases he
          exact h.deliver r
  | poll =>
      cases he
      refine upToDate_foldl_deliver _ _ ?_
      exact h
  | ask | post =>
      cases he
      exact h

end

/-! ## §7. Histories. -/

section
variable {table : Table} {settings : Settings} {resolver : Resolver} {b : Builder}

theorem History.upToDate (h : History table settings resolver b) : b.UpToDate := by
  induction h with
  | created h =>
      unfold create at h
      split at h <;> cases h
      exact upToDate_new table settings resolver _
  | event _ h ih => exact ih.after h
  | loaded _ s _ => exact upToDate_refreshValidation _
  | turned _ on ih => exact ih.setActive on

/-- A builder works on its table all the time. -/
theorem History.table_eq (h : History table settings resolver b) : b.table = table :=
  congrArg Frame.table (h.frame_eq ides)

/-- **The shown verdict is up to date.**  Whatever keys, answers, loaded filters and turns a builder
has seen, while verdicts are shown there is one as soon as a condition is committed, and it is the
verdict on the committed conditions as they are; it names their query. -/
theorem History.shows_verdict (h : History table settings resolver b)
    (hshown : b.showValidation = true) :
    (b.conditions.conditions ≠ [] → b.validation.isSome) ∧
    ∀ v ∈ b.validation,
      v = Check.conditions (some table) b.conditions.conditions ∧ v.query = b.query := by
  rw [← h.table_eq]
  rcases h.upToDate hshown with hdue | ⟨hnone, hempty⟩
  · rw [hdue]
    refine ⟨fun _ => rfl, ?_⟩
    rintro v ⟨⟩
    exact ⟨rfl, Check.query_conditions _ _⟩
  · rw [hnone]
    exact ⟨fun hne => absurd hempty hne, nofun⟩

/-- Verdicts are shown, hidden while a second condition is committed and removed, and shown again
while a third one waits for its link: the verdict is on the first condition alone. -/
theorem shows_verdict_after_hiding :
    ∃ b, History oneField {} noSearches b ∧ b.showValidation = true ∧ b.stage = .link ∧
      b.validation.isSome ∧ ∀ v ∈ b.validation, v.query = "state=1" := by
  obtain ⟨b, hb, hrun⟩ := exists_reachable oneField {} noSearches ides
    [.ctrl 'v', .enter, .enter, .char '1', .enter, .ctrl 'v', .enter, .enter, .char '2', .enter,
     .char 'o', .ctrl 'd', .enter, .enter, .char '3', .enter, .ctrl 'v']
    (fun b => b.showValidation && decide (b.stage = .link) && decide (b.query = "state=1"))
    (by decide +kernel)
  simp only [Bool.and_eq_true, decide_eq_true_eq] at hrun
  obtain ⟨⟨hshown, hstage⟩, hquery⟩ := hrun
  obtain ⟨hsome, hverdict⟩ := hb.history.shows_verdict hshown
  refine ⟨b, hb.history, hshown, hstage, hsome fun hempty => ?_, fun v hv => ?_⟩
  · rw [query, Chain.encode, hempty] at hquery
    cases hquery
  · rw [(hverdict v hv).2, hquery]

end

end Builder

end EncodedQuery

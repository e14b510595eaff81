/-
  EncodedQuery.Proofs.Builder.Moves
  ─────────────────────────────────
  **WHAT A BUILDER DOES TO ITS PICKERS.**

  A builder opens its pickers, passes keys on to them and closes them; it never
  reaches into them.  What one such step keeps of a picker, every key for the
  builder keeps.  The picker for a record is moreover opened only while it is
  closed: an open one has its stage to itself.

  Main result: `moves_key`.
-/
import Mathlib.Logic.Relation
import EncodedQuery.Proofs.Builder.Core
import EncodedQuery.Proofs.Builder.Session

namespace EncodedQuery

open Relation (ReflTransGen)

/-! ## §1. Steps of a picker. -/

/-- What a builder does to the picker for a range. -/
inductive RangePicker.Step : RangePicker → RangePicker → Prop
  /-- It passes a key on. -/
  | key {p p' : RangePicker} {now : Instant} {k : Key} (h : p.update now k = .ok p') : Step p p'
  /-- It opens the picker afresh. -/
  | activate (p : RangePicker) (now : Instant) : Step p (p.activate now)
  /-- It opens the picker again, after its range was rejected. -/
  | reopen (p : RangePicker) : Step p p.reopen
  /-- It closes the picker. -/
  | deactivate (p : RangePicker) : Step p p.deactivate

/-- What a builder does to the picker for a record. -/
inductive ReferencePicker.Step : ReferencePicker → ReferencePicker → Prop
  /-- It passes a key on. -/
  | key (p : ReferencePicker) (k : Key) : Step p (p.update k)
  /-- It opens the picker, which is closed, for a table. -/
  | activate {p : ReferencePicker} (h : p.active = false) (table : Text) : Step p (p.activate table)
  /-- It closes the picker. -/
  | deactivate (p : ReferencePicker) : Step p p.deactivate
  /-- It gives up the searches that are under way. -/
  | cancel (p : ReferencePicker) : Step p { p with resolver := p.resolver.cancel }

namespace Builder

/-- From one builder to the other the pickers have changed step by step. -/
structure Moves (b b' : Builder) : Prop where
  /-- The picker for a range. -/
  rangePicker : ReflTransGen RangePicker.Step b.rangePicker b'.rangePicker
  /-- The picker for a record. -/
  reference : ReflTransGen ReferencePicker.Step b.reference b'.reference

theorem Moves.refl (b : Builder) : Moves b b := ⟨.refl, .refl⟩

theorem Moves.trans {b b' b'' : Builder} (h : Moves b b') (h' : Moves b' b'') : Moves b b'' :=
  ⟨h.rangePicker.trans h'.rangePicker, h.reference.trans h'.reference⟩

/-! ## §2. Committing and leaving. -/

section
variable (b : Builder)

theorem moves_refreshValidation : Moves b b.refreshValidation := by
  unfold refreshValidation
  split <;> exact ⟨.refl, .refl⟩

theorem moves_clearScratch : Moves b b.clearScratch where
  rangePicker := .single (.deactivate _)
  reference := by
    show ReflTransGen ReferencePicker.Step b.reference
      (if b.reference.active then b.reference.deactivate else b.reference)
    split
    · exact .single (.deactivate _)
    · exact .refl

theorem moves_commit (link : Option Link) : Moves b (b.commit link) := by
  unfold commit
  split
  · exact .refl b
  next c _ =>
    have hcleared := moves_clearScratch { b with conditions := b.conditions.append c link }
    refine .trans ?_ (moves_refreshValidation _)
    exact ⟨hcleared.rangePicker, hcleared.reference⟩

theorem moves_setActive (on : Bool) : Moves b (b.setActive on) := by
  unfold setActive
  split
  · exact ⟨.refl, .refl⟩
  · exact ⟨.refl, .single (.cancel _)⟩

theorem moves_cancel : Moves b b.cancel := by
  have hcleared := moves_clearScratch { b with conditions := Chain.empty }
  refine .trans ?_ (moves_setActive _ false)
  exact ⟨hcleared.rangePicker, hcleared.reference⟩

theorem moves_finish : Moves b b.finish := by
  unfold finish
  split
  · exact ⟨.refl, .refl⟩
  · refine .trans ?_ (moves_setActive _ false)
    exact ⟨.refl, .refl⟩

theorem moves_removeLast : Moves b b.removeLast := by
  unfold removeLast
  refine .trans ?_ (moves_refreshValidation _)
  split <;> exact ⟨.refl, .refl⟩

theorem moves_reset : Moves b b.reset := by
  have hcleared := moves_clearScratch { b with conditions := Chain.empty }
  exact ⟨hcleared.rangePicker, hcleared.reference⟩

end

/-! ## §3. Opening a picker. -/

section
variable {b : Builder}

theorem moves_reopenPicker (h : b.reference.active = false) : Moves b b.reopenPicker := by
  unfold reopenPicker
  split
  · exact ⟨.refl, .refl⟩
  · exact ⟨.single (.reopen _), .refl⟩
  · exact ⟨.refl, .single (.activate h _)⟩
  · exact .refl b

theorem moves_submit (h : b.reference.active = false) (c : Condition) : Moves b (b.submit c) := by
  unfold submit
  dsimp only
  split
  · refine .trans ?_ (moves_reopenPicker ?_)
    · exact ⟨.refl, .refl⟩
    · exact h
  · split
    · refine .trans ?_ (moves_commit _ none)
      exact ⟨.refl, .refl⟩
    · exact ⟨.refl, .refl⟩

theorem moves_submitValue (h : b.reference.active = false) (value : Text) :
    Moves b (b.submitValue value) := by
  unfold submitValue
  split
  · exact moves_submit h _
  · exact .refl b

theorem moves_submitRange (h : b.reference.active = false) (start stop : Instant) :
    Moves b (b.submitRange start stop) := by
  unfold submitRange
  split
  · exact moves_submit h _
  · exact .refl b

theorem moves_openValue (h : b.reference.active = false) (now : Instant) (f : Field)
    (e : OperatorEntry) : Moves b (b.openValue now f e) := by
  unfold openValue
  dsimp only
  split
  · split
    · exact ⟨.single (.activate _ now), .refl⟩
    · exact ⟨.refl, .refl⟩
  · split
    · exact ⟨.refl, .refl⟩
    · split
      · exact ⟨.refl, .single (.activate h _)⟩
      · split <;> exact ⟨.refl, .refl⟩

theorem moves_chooseOperator (h : b.reference.active = false) (now : Instant)
    (e : OperatorEntry) : Moves b (b.chooseOperator now e) := by
  have hchosen : Moves b { b with operator := some e, error := [] } := ⟨.refl, .refl⟩
  unfold chooseOperator
  dsimp only
  split
  · exact hchosen
  · split
    · refine hchosen.trans (moves_openValue ?_ now _ e)
      exact h
    · refine hchosen.trans (moves_submitValue ?_ _)
      exact h

theorem moves_toggleDateMode (h : b.stage ≠ .reference → b.reference.active = false)
    (now : Instant) : Moves b (b.toggleDateMode now) := by
  unfold toggleDateMode
  dsimp only
  generalize (if (!b.useAdvancedDate) = true then ("Calendar picker" : Text)
    else "Text date entry") = message
  split
  · split
    next hasks =>
      -- a date is asked for, so no record is
      have hstage : b.stage ≠ .reference := by
        intro heq
        simp [asksForDate, heq, Stage.isDate] at hasks
      refine .trans ?_ (moves_chooseOperator ?_ now _)
      · exact ⟨.single (.deactivate _), .refl⟩
      · exact h hstage
    next => exact ⟨.refl, .refl⟩
  · exact ⟨.refl, .refl⟩

theorem moves_globalKey {now : Instant} {k : Key} {b' : Builder}
    (h : b.stage ≠ .reference → b.reference.active = false)
    (hg : b.globalKey? now k = some b') : Moves b b' := by
  unfold globalKey? at hg
  split at hg <;> cases hg
  · exact ⟨.refl, .refl⟩
  · refine .trans ?_ (moves_refreshValidation _)
    exact ⟨.refl, .refl⟩
  · exact ⟨.refl, .refl⟩
  · exact moves_removeLast b
  · exact moves_reset b
  · exact moves_toggleDateMode h now

/-! ## §4. Keys of the stages. -/

theorem moves_fieldKey (b : Builder) (k : Key) : Moves b (b.fieldKey k) := by
  unfold fieldKey
  split
  · split <;> exact ⟨.refl, .refl⟩
  · exact moves_cancel b
  · exact moves_finish b
  · exact ⟨.refl, .refl⟩

theorem moves_operatorKey (h : b.reference.active = false) (now : Instant) (k : Key) :
    Moves b (b.operatorKey now k) := by
  unfold operatorKey
  split
  · split
    · exact .refl b
    · exact moves_chooseOperator h now _
  · exact ⟨.refl, .refl⟩
  · exact ⟨.refl, .refl⟩

theorem moves_valueKey (h : b.reference.active = false) (k : Key) : Moves b (b.valueKey k) := by
  unfold valueKey
  split
  · exact moves_submitValue h _
  · exact ⟨.refl, .refl⟩
  · exact ⟨.refl, .refl⟩

theorem moves_choiceKey (h : b.reference.active = false) (k : Key) : Moves b (b.choiceKey k) := by
  unfold choiceKey
  split
  · exact moves_submitValue h _
  · split
    · exact ⟨.refl, .refl⟩
    · split <;> exact ⟨.refl, .refl⟩

theorem moves_referenceKey (b : Builder) (k : Key) : Moves b (b.referenceKey k) := by
  have hkey : Moves b { b with reference := b.reference.update k } := ⟨.refl, .single (.key _ k)⟩
  unfold referenceKey
  dsimp only
  split
  · exact hkey
  next hclosed =>
    split
    · exact hkey.trans (moves_submitValue (Bool.eq_false_iff.mpr hclosed) _)
    · exact hkey.trans ⟨.refl, .refl⟩

theorem moves_calendarKey (h : b.reference.active = false) {now : Instant} {k : Key}
    {b' : Builder} (hk : b.calendarKey now k = .ok b') : Moves b b' := by
  unfold calendarKey at hk
  cases hc : b.calendar.update now k with
  | error f =>
      rw [hc] at hk
      cases hk
  | ok c =>
      rw [hc] at hk
      cases hk
      have hset : Moves b { b with calendar := c } := ⟨.refl, .refl⟩
      dsimp only
      split
      · exact hset
      · split
        · refine hset.trans (moves_submitValue ?_ _)
          exact h
        · exact ⟨.refl, .refl⟩

theorem moves_rangePickerKey (h : b.reference.active = false) {now : Instant} {k : Key}
    {b' : Builder} (hk : b.rangePickerKey now k = .ok b') : Moves b b' := by
  unfold rangePickerKey at hk
  cases hp : b.rangePicker.update now k with
  | error f =>
      rw [hp] at hk
      cases hk
  | ok p =>
      rw [hp] at hk
      cases hk
      have hkey : Moves b { b with rangePicker := p } := ⟨.single (.key hp), .refl⟩
      dsimp only
      split
      · exact hkey
      · split
        · refine hkey.trans (moves_submitRange ?_ _ _)
          exact h
        · exact hkey.trans ⟨.refl, .refl⟩

theorem moves_confirmRangeText (h : b.reference.active = false) : Moves b b.confirmRangeText := by
  unfold confirmRangeText
  dsimp only
  split
  · exact ⟨.refl, .refl⟩
  · exact ⟨.refl, .refl⟩
  · generalize (if .char ':' ∈ Text.strip b.stopInput.value then _ else _) = stop
    split
    · exact moves_submitRange h _ _
    · exact ⟨.refl, .refl⟩

theorem moves_rangeTextKey (h : b.reference.active = false) (k : Key) :
    Moves b (b.rangeTextKey k) := by
  unfold rangeTextKey
  split
  · exact ⟨.refl, .refl⟩
  · split
    · exact moves_confirmRangeText h
    · exact ⟨.refl, .refl⟩
  · exact ⟨.refl, .refl⟩
  · split <;> exact ⟨.refl, .refl⟩

theorem moves_linkKey (b : Builder) (k : Key) : Moves b (b.linkKey k) := by
  unfold linkKey
  split
  case h_7 => exact ⟨.refl, .refl⟩
  all_goals exact moves_commit b _

theorem moves_stageKey {now : Instant} {k : Key} {b' : Builder}
    (h : b.stage ≠ .reference → b.reference.active = false)
    (hs : b.stageKey now k = .ok b') : Moves b b' := by
  unfold stageKey at hs
  split at hs
  next => cases hs; exact moves_fieldKey b k
  next hstage => cases hs; exact moves_operatorKey (h (by simp [hstage])) now k
  next hstage => cases hs; exact moves_valueKey (h (by simp [hstage])) k
  next hstage => cases hs; exact moves_choiceKey (h (by simp [hstage])) k
  next => cases hs; exact moves_referenceKey b k
  next hstage => exact moves_calendarKey (h (by simp [hstage])) hs
  next hstage => exact moves_rangePickerKey (h (by simp [hstage])) hs
  next hstage => cases hs; exact moves_rangeTextKey (h (by simp [hstage])) k
  next => cases hs; exact moves_linkKey b k
  next => cases hs; exact .refl b

/-- **A key changes the pickers only step by step.** -/
theorem moves_key (hc : b.core.Coherent) {now : Instant} {k : Key} {b' : Builder}
    (h : b.update now k = .ok b') : Moves b b' := by
  have hclosed : b.stage ≠ .reference → b.reference.active = false := by
    intro hstage
    exact Bool.eq_false_iff.mpr (mt hc.reference.mp hstage)
  cases ha : b.active with
  | false =>
      rw [update_of_inactive ha] at h
      cases h
      exact .refl b
  | true =>
      rcases update_cases ha h with hg | ⟨_, hstage, _⟩
      · exact moves_globalKey hclosed hg
      · exact moves_stageKey hclosed hstage

end

end Builder

end EncodedQuery

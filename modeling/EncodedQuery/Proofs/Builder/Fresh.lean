/-
  EncodedQuery.Proofs.Builder.Fresh
  ─────────────────────────────────
  **STARTING A CONDITION.**

  A condition is started by a new builder, after a commit, after everything was
  dropped, and after a filter was loaded.  In all four cases nothing is chosen,
  no error is shown, and the list of fields is as it is in a new builder.

  Main results:
    • `Fresh.blank` — nothing is left on the way to the next condition,
    • `Fresh.frame_eq` — the widgets open as those of a new builder do.
-/
import EncodedQuery.Proofs.Builder.Frame
import EncodedQuery.Proofs.Condition.Linked

namespace EncodedQuery.Builder

/-! ## §1. Builders in which nothing is chosen. -/

/-- Nothing is chosen, and the list of fields was filled again. -/
structure Blank (b : Builder) : Prop where
  /-- A field is asked for. -/
  stage : b.stage = .field
  /-- No field is chosen. -/
  field : b.field = none
  /-- No operator is chosen. -/
  operator : b.operator = none
  /-- No error is shown. -/
  error : b.error = []
  /-- The list of fields was filled again. -/
  fieldList : b.fieldList = b.fieldList.setItems b.fieldList.items

theorem Blank.refreshValidation {b : Builder} (h : b.Blank) : b.refreshValidation.Blank := by
  unfold Builder.refreshValidation
  split <;> exact ⟨h.stage, h.field, h.operator, h.error, h.fieldList⟩

theorem blank_new (table : Table) (settings : Settings) (resolver : Resolver) (now : Instant) :
    (new table settings resolver now).Blank := ⟨rfl, rfl, rfl, rfl, rfl⟩

theorem blank_commit {b : Builder} {c : Condition} (h : b.pending = some c) (link : Option Link) :
    (b.commit link).Blank := by
  unfold commit
  rw [h]
  exact Blank.refreshValidation ⟨rfl, rfl, rfl, rfl, rfl⟩

theorem blank_reset (b : Builder) : b.reset.Blank := ⟨rfl, rfl, rfl, rfl, rfl⟩

theorem blank_cancel {b : Builder} (hs : b.stage = .field) : b.cancel.Blank :=
  ⟨hs, rfl, rfl, rfl, rfl⟩

theorem blank_setConditions (b : Builder) (s : Chain) : (b.setConditions s).Blank :=
  Blank.refreshValidation ⟨rfl, rfl, rfl, rfl, rfl⟩

/-! ## §2. After a commit. -/

/-- If there are more conditions than before, nothing is chosen. -/
def BlankIfGrown (b b' : Builder) : Prop :=
  b.conditions.conditions.length < b'.conditions.conditions.length → b'.Blank

theorem blankIfGrown_of_le {b b' : Builder}
    (h : b'.conditions.conditions.length ≤ b.conditions.conditions.length) : BlankIfGrown b b' :=
  fun hlt => absurd hlt (Nat.not_lt.mpr h)

theorem blankIfGrown_of_eq {b b' : Builder} (h : b'.conditions = b.conditions) :
    BlankIfGrown b b' :=
  blankIfGrown_of_le (Nat.le_of_eq (by rw [h]))

@[simp] theorem conditions_reopenPicker (b : Builder) :
    b.reopenPicker.conditions = b.conditions := by
  unfold reopenPicker
  split <;> rfl

@[simp] theorem conditions_refreshValidation (b : Builder) :
    b.refreshValidation.conditions = b.conditions := by
  unfold refreshValidation
  split <;> rfl

section
variable (b : Builder)

theorem blankIfGrown_submit (c : Condition) : BlankIfGrown b (b.submit c) := by
  unfold submit
  dsimp only
  split
  · exact blankIfGrown_of_eq (by simp)
  · split
    · exact fun _ => blank_commit rfl none
    · exact blankIfGrown_of_eq rfl

theorem blankIfGrown_submitValue (value : Text) : BlankIfGrown b (b.submitValue value) := by
  unfold submitValue
  split
  · exact blankIfGrown_submit b _
  · exact blankIfGrown_of_eq rfl

theorem blankIfGrown_submitRange (start stop : Instant) :
    BlankIfGrown b (b.submitRange start stop) := by
  unfold submitRange
  split
  · exact blankIfGrown_submit b _
  · exact blankIfGrown_of_eq rfl

@[simp] theorem conditions_openValue (now : Instant) (f : Field) (e : OperatorEntry) :
    (b.openValue now f e).conditions = b.conditions := by
  unfold openValue
  repeat' split
  all_goals rfl

theorem blankIfGrown_chooseOperator (now : Instant) (e : OperatorEntry) :
    BlankIfGrown b (b.chooseOperator now e) := by
  unfold chooseOperator
  dsimp only
  split
  · exact blankIfGrown_of_eq rfl
  · split
    · exact blankIfGrown_of_eq (by simp)
    · exact blankIfGrown_submitValue { b with operator := some e, error := [] } _

theorem blankIfGrown_commit (link : Option Link) : BlankIfGrown b (b.commit link) := by
  cases hp : b.pending with
  | none =>
      unfold commit
      rw [hp]
      exact blankIfGrown_of_eq rfl
  | some c => exact fun _ => blank_commit hp link

variable {b} {now : Instant} {k : Key} {b' : Builder}

theorem blankIfGrown_globalKey (h : b.globalKey? now k = some b') : BlankIfGrown b b' := by
  unfold globalKey? at h
  split at h <;> cases h
  · exact blankIfGrown_of_eq rfl
  · exact blankIfGrown_of_eq (by simp)
  · exact blankIfGrown_of_eq rfl
  · -- the last condition is removed, if there is one
    unfold removeLast
    refine blankIfGrown_of_le ?_
    rw [conditions_refreshValidation]
    split
    · exact Nat.le_refl _
    next hp => exact Chain.length_le_of_pop? hp
  · exact fun _ => blank_reset b
  · unfold toggleDateMode
    dsimp only
    generalize (if (!b.useAdvancedDate) = true then ("Calendar picker" : Text)
      else "Text date entry") = message
    split
    · split
      · exact blankIfGrown_chooseOperator { b with
          useAdvancedDate := !b.useAdvancedDate, message
          calendar := b.calendar.deactivate, rangePicker := b.rangePicker.deactivate } now _
      · exact blankIfGrown_of_eq rfl
    · exact blankIfGrown_of_eq rfl

theorem blankIfGrown_stageKey (h : b.stageKey now k = .ok b') : BlankIfGrown b b' := by
  -- conditions grow by a commit alone, and a commit clears everything
  unfold stageKey at h
  split at h
  · cases h
    unfold fieldKey
    split
    · split <;> exact blankIfGrown_of_eq rfl
    · exact blankIfGrown_of_le (Nat.zero_le _)
    · unfold finish
      split <;> exact blankIfGrown_of_eq rfl
    · exact blankIfGrown_of_eq rfl
  · cases h
    unfold operatorKey
    split
    · split
      · exact blankIfGrown_of_eq rfl
      · exact blankIfGrown_chooseOperator b now _
    · exact blankIfGrown_of_eq rfl
    · exact blankIfGrown_of_eq rfl
  · cases h
    unfold valueKey
    split
    · exact blankIfGrown_submitValue b _
    · exact blankIfGrown_of_eq rfl
    · exact blankIfGrown_of_eq rfl
  · cases h
    unfold choiceKey
    split
    · exact blankIfGrown_submitValue b _
    · repeat' split
      all_goals exact blankIfGrown_of_eq rfl
  · cases h
    unfold referenceKey
    dsimp only
    split
    · exact blankIfGrown_of_eq rfl
    · split
      · exact blankIfGrown_submitValue { b with reference := b.reference.update k } _
      · exact blankIfGrown_of_eq rfl
  · unfold calendarKey at h
    cases hc : b.calendar.update now k with
    | error f => rw [hc] at h; cases h
    | ok c =>
        rw [hc] at h
        cases h
        dsimp only
        split
        · exact blankIfGrown_of_eq rfl
        · split
          · exact blankIfGrown_submitValue { b with calendar := c } _
          · exact blankIfGrown_of_eq rfl
  · unfold rangePickerKey at h
    cases hp : b.rangePicker.update now k with
    | error f => rw [hp] at h; cases h
    | ok p =>
        rw [hp] at h
        cases h
        dsimp only
        split
        · exact blankIfGrown_of_eq rfl
        · split
          · exact blankIfGrown_submitRange { b with rangePicker := p } _ _
          · exact blankIfGrown_of_eq rfl
  · cases h
    unfold rangeTextKey
    split
    · exact blankIfGrown_of_eq rfl
    · split
      · unfold confirmRangeText
        dsimp only
        split
        · exact blankIfGrown_of_eq rfl
        · exact blankIfGrown_of_eq rfl
        · generalize (if .char ':' ∈ Text.strip b.stopInput.value then _ else _) = stop
          split
          · exact blankIfGrown_submitRange b _ _
          · exact blankIfGrown_of_eq rfl
      · exact blankIfGrown_of_eq rfl
    · exact blankIfGrown_of_eq rfl
    · split <;> exact blankIfGrown_of_eq rfl
  · cases h
    unfold linkKey
    split
    case h_7 => exact blankIfGrown_of_eq rfl
    all_goals exact blankIfGrown_commit b _
  · cases h
    exact blankIfGrown_of_eq rfl

/-- **After a key that commits a condition nothing is chosen.** -/
theorem blank_of_grown (h : b.update now k = .ok b')
    (hlt : b.conditions.conditions.length < b'.conditions.conditions.length) : b'.Blank := by
  cases ha : b.active with
  | false =>
      rw [update_of_inactive ha] at h
      cases h
      exact absurd hlt (Nat.lt_irrefl _)
  | true =>
      rcases update_cases ha h with hg | ⟨_, hstage, _⟩
      · exact blankIfGrown_globalKey hg hlt
      · exact blankIfGrown_stageKey hstage hlt

end

/-! ## §3. Where conditions start. -/

/-- The builder is new, or a condition was just committed, or everything was just dropped, or a
filter was just loaded, whatever happened to it before. -/
inductive Fresh (table : Table) (settings : Settings) (resolver : Resolver) : Builder → Prop
  /-- A new builder. -/
  | created {now : Instant} {b : Builder} (h : create table settings resolver now = .ok b) :
      Fresh table settings resolver b
  /-- The last key committed a condition. -/
  | committed {b b' : Builder} {now : Instant} {k : Key}
      (hb : History table settings resolver b) (h : b.update now k = .ok b')
      (hlt : b.conditions.conditions.length < b'.conditions.conditions.length) :
      Fresh table settings resolver b'
  /-- The last key dropped everything. -/
  | restarted {b b' : Builder} {now : Instant} (hb : History table settings resolver b)
      (h : b.update now (.ctrl 'x') = .ok b') : Fresh table settings resolver b'
  /-- A filter was loaded. -/
  | loaded {b : Builder} (hb : History table settings resolver b) (s : Chain) :
      Fresh table settings resolver (b.setConditions s)

section
variable {table : Table} {settings : Settings} {resolver : Resolver} {b : Builder}

/-- **In a builder that takes keys nothing is chosen where a condition starts.** -/
theorem Fresh.blank (h : Fresh table settings resolver b) (ha : b.active = true) : b.Blank := by
  cases h with
  | created h =>
      unfold create at h
      split at h <;> cases h
      exact blank_new _ _ _ _
  | committed _ h hlt => exact blank_of_grown h hlt
  | @restarted b₀ _ now _ h =>
      cases ha₀ : b₀.active with
      | false =>
          rw [update_of_inactive ha₀] at h
          cases h
          rw [ha] at ha₀
          cases ha₀
      | true =>
          rw [update, ha₀] at h
          cases h
          exact blank_reset b₀
  | loaded _ s => exact blank_setConditions _ s

/-- The widgets of a builder open as those of a new one do, whatever happened to it. -/
theorem History.frame_eq (h : History table settings resolver b) (now : Instant) :
    b.frame = (new table settings resolver now).frame := by
  induction h with
  | created h =>
      unfold create at h
      split at h <;> cases h
      exact frame_new rfl _ _
  | event _ h ih => exact (keeps_after h).frame.trans ih
  | loaded _ s ih => exact (keeps_setConditions _ s).frame.trans ih
  | turned _ on ih => exact (keeps_setActive _ on).frame.trans ih

/-- A condition starts in the course of a history. -/
theorem Fresh.history (h : Fresh table settings resolver b) :
    History table settings resolver b := by
  cases h with
  | created h => exact .created h
  | committed hb h _ => exact hb.event (e := .message (.key _ _)) h
  | @restarted _ _ now hb h => exact hb.event (e := .message (.key now (.ctrl 'x'))) h
  | loaded hb s => exact hb.loaded s

/-- **So do those of a builder in which a condition starts.** -/
theorem Fresh.frame_eq (h : Fresh table settings resolver b) (now : Instant) :
    b.frame = (new table settings resolver now).frame :=
  h.history.frame_eq now

end

end EncodedQuery.Builder

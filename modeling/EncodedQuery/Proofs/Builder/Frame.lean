/-
  EncodedQuery.Proofs.Builder.Frame
  ─────────────────────────────────
  **WHAT USE LEAVES UNCHANGED.**

  A builder keeps its widgets from condition to condition and fills them again
  when they are shown.  Its frame is every widget as it is when it is opened
  afresh, as a function of what it is opened with.  No key, answer or loaded
  filter changes the frame, whatever it does to the widgets themselves, and the
  lists from which field and operator are chosen stay in order.  Nor does any of
  them bring a fraction of a second into the picker for a range.

  Main results:
    • `keeps_after`, `keeps_setConditions`, `keeps_setActive` — every step of a
      history keeps frame and lists,
    • `frame_new` — the frame does not depend on when a builder is made.
-/
import EncodedQuery.Proofs.Builder.Session
import EncodedQuery.Proofs.Picker.Whole
import EncodedQuery.Proofs.Reference.Picker

namespace EncodedQuery.Builder

/-! ## §1. Frames. -/

/-- The widgets of a builder, each as it is when it is opened afresh. -/
@[ext]
structure Frame where
  /-- The table. -/
  table : Table
  /-- The fields. -/
  fieldList : PickList Field
  /-- The operators, under a heading. -/
  operatorList : Text → List (PickItem OperatorEntry) → PickList OperatorEntry
  /-- The values of a choice field, under a heading, for one or several choices. -/
  choiceList : Text → Bool → List (PickItem Choice) → PickList Choice
  /-- The links. -/
  linkList : PickList Link
  /-- The value line, with what it shows while it is empty. -/
  valueInput : Text → TextInput
  /-- The line of the start of a range. -/
  startInput : TextInput
  /-- The line of the end of a range. -/
  stopInput : TextInput
  /-- The calendar at an instant, under a heading, with or without a time. -/
  calendar : Instant → Text → Bool → Calendar
  /-- The picker for a range at an instant. -/
  rangePicker : Instant → RangePicker
  /-- The picker for a record of a table. -/
  reference : Text → ReferencePicker

/-- The frame of a builder. -/
def frame (b : Builder) : Frame where
  table := b.table
  fieldList := b.fieldList.setItems b.fieldList.items
  operatorList := fun title items => b.operatorList.refill title b.operatorList.multi items
  choiceList := b.choiceList.refill
  linkList := b.linkList.setItems b.linkList.items
  valueInput := b.valueInput.cleared
  startInput := b.startInput.reset
  stopInput := b.stopInput.reset
  calendar := b.calendar.renewed
  rangePicker := b.rangePicker.renewed
  reference := b.reference.renewed

/-- The lists from which field and operator are chosen are in order, and so is the picker for a
range. -/
def WellListed (b : Builder) : Prop :=
  b.fieldList.Valid ∧ b.operatorList.Valid ∧ b.rangePicker.IsWhole

/-- Frame and lists are kept from one builder to the other. -/
structure Keeps (b b' : Builder) : Prop where
  /-- The frames are the same. -/
  frame : b'.frame = b.frame
  /-- The lists stay in order. -/
  lists : b.WellListed → b'.WellListed

theorem Keeps.refl (b : Builder) : Keeps b b := ⟨rfl, id⟩

theorem Keeps.trans {b b' b'' : Builder} (h : Keeps b b') (h' : Keeps b' b'') : Keeps b b'' :=
  ⟨h'.frame.trans h.frame, h'.lists ∘ h.lists⟩

/-! ## §2. One widget. -/

section
variable (b : Builder)

theorem keeps_fieldList {l : PickList Field} (h : l.setItems l.items =
      b.fieldList.setItems b.fieldList.items) (hv : b.fieldList.Valid → l.Valid) :
    Keeps b { b with fieldList := l } :=
  ⟨by simp only [Builder.frame, h], fun hl => ⟨hv hl.1, hl.2⟩⟩

theorem keeps_operatorList {l : PickList OperatorEntry} (h : l.refill = b.operatorList.refill)
    (hm : l.multi = b.operatorList.multi) (hv : b.operatorList.Valid → l.Valid) :
    Keeps b { b with operatorList := l } :=
  ⟨by simp only [Builder.frame, h, hm], fun hl => ⟨hl.1, hv hl.2.1, hl.2.2⟩⟩

theorem keeps_choiceList {l : PickList Choice} (h : l.refill = b.choiceList.refill) :
    Keeps b { b with choiceList := l } :=
  ⟨by simp only [Builder.frame, h], id⟩

theorem keeps_linkList {l : PickList Link} (h : l.setItems l.items =
      b.linkList.setItems b.linkList.items) : Keeps b { b with linkList := l } :=
  ⟨by simp only [Builder.frame, h], id⟩

theorem keeps_valueInput {i : TextInput} (h : i.cleared = b.valueInput.cleared) :
    Keeps b { b with valueInput := i } :=
  ⟨by simp only [Builder.frame, h], id⟩

theorem keeps_startInput {i : TextInput} (h : i.reset = b.startInput.reset) :
    Keeps b { b with startInput := i } :=
  ⟨by simp only [Builder.frame, h], id⟩

theorem keeps_stopInput {i : TextInput} (h : i.reset = b.stopInput.reset) :
    Keeps b { b with stopInput := i } :=
  ⟨by simp only [Builder.frame, h], id⟩

theorem keeps_calendar {c : Calendar} (h : c.renewed = b.calendar.renewed) :
    Keeps b { b with calendar := c } :=
  ⟨by simp only [Builder.frame, h], id⟩

theorem keeps_rangePicker {p : RangePicker} (h : b.rangePicker.SameMake p)
    (hw : b.rangePicker.IsWhole → p.IsWhole) : Keeps b { b with rangePicker := p } :=
  ⟨by simp only [Builder.frame, h.renewed_eq], fun hl => ⟨hl.1, hl.2.1, hw hl.2.2⟩⟩

theorem keeps_rangePicker_deactivate : Keeps b { b with rangePicker := b.rangePicker.deactivate } :=
  keeps_rangePicker b (RangePicker.sameMake_deactivate _) RangePicker.IsWhole.deactivate

theorem keeps_reference {p : ReferencePicker} (h : b.reference.SameMake p) :
    Keeps b { b with reference := p } :=
  ⟨by simp only [Builder.frame, h.renewed_eq], id⟩

/-! ## §3. Committing. -/

theorem keeps_refreshValidation : Keeps b b.refreshValidation := by
  unfold refreshValidation
  split <;> exact ⟨rfl, id⟩

theorem keeps_clearScratch : Keeps b b.clearScratch := by
  -- an open picker for a record is closed, which cancels its searches; its make stays
  have hreference : b.reference.SameMake
      (if b.reference.active then b.reference.deactivate else b.reference) := by
    split
    · exact ReferencePicker.sameMake_deactivate _
    · exact .refl _
  have h₁ := keeps_reference b hreference
  have h₂ := h₁.trans (keeps_rangePicker_deactivate _)
  exact ⟨h₂.frame, fun hl => ⟨PickList.valid_setItems _ _, (h₂.lists hl).2⟩⟩

theorem keeps_commit (link : Option Link) : Keeps b (b.commit link) := by
  unfold commit
  split
  · exact .refl b
  next c _ =>
    have happend : Keeps b { b with conditions := b.conditions.append c link } := ⟨rfl, id⟩
    have hcleared := happend.trans (keeps_clearScratch _)
    refine .trans ?_ (keeps_refreshValidation _)
    exact ⟨hcleared.frame, hcleared.lists⟩

theorem keeps_reopenPicker : Keeps b b.reopenPicker := by
  unfold reopenPicker
  split
  · exact ⟨rfl, id⟩
  · exact keeps_rangePicker b (RangePicker.sameMake_reopen _) RangePicker.IsWhole.reopen
  · exact keeps_reference b (ReferencePicker.sameMake_activate _ _)
  · exact .refl b

theorem keeps_submit (c : Condition) : Keeps b (b.submit c) := by
  unfold submit
  dsimp only
  split
  · refine .trans ?_ (keeps_reopenPicker _)
    exact ⟨rfl, id⟩
  · split
    · refine .trans ?_ (keeps_commit _ none)
      exact ⟨rfl, id⟩
    · exact ⟨rfl, id⟩

theorem keeps_submitValue (value : Text) : Keeps b (b.submitValue value) := by
  unfold submitValue
  split
  · exact keeps_submit b _
  · exact .refl b

theorem keeps_submitRange (start stop : Instant) : Keeps b (b.submitRange start stop) := by
  unfold submitRange
  split
  · exact keeps_submit b _
  · exact .refl b

/-! ## §4. Choosing field and operator. -/

theorem keeps_chooseField (f : Field) : Keeps b (b.chooseField f) :=
  ⟨rfl, fun hl => ⟨hl.1, PickList.valid_setItems _ _, hl.2.2⟩⟩

theorem keeps_openValue (now : Instant) (f : Field) (e : OperatorEntry) :
    Keeps b (b.openValue now f e) := by
  unfold openValue
  dsimp only
  split
  · split
    · have h := keeps_rangePicker b (RangePicker.sameMake_activate b.rangePicker now)
        (fun hw => hw.activate now)
      exact ⟨h.frame, h.lists⟩
    · exact ⟨rfl, id⟩
  · split
    · exact ⟨rfl, id⟩
    · split
      · have h := keeps_reference b (ReferencePicker.sameMake_activate b.reference f.reference)
        exact ⟨h.frame, h.lists⟩
      · split <;> exact ⟨rfl, id⟩

theorem keeps_chooseOperator (now : Instant) (e : OperatorEntry) :
    Keeps b (b.chooseOperator now e) := by
  unfold chooseOperator
  dsimp only
  have hchosen : Keeps b { b with operator := some e, error := [] } := ⟨rfl, id⟩
  split
  · exact hchosen
  · split
    · exact hchosen.trans (keeps_openValue _ now _ e)
    · exact hchosen.trans (keeps_submitValue _ _)

/-! ## §5. Leaving, and keys that work in every stage. -/

theorem keeps_setActive (active : Bool) : Keeps b (b.setActive active) := by
  unfold setActive
  split
  · exact ⟨rfl, id⟩
  · have h := keeps_reference b (p := { b.reference with resolver := b.reference.resolver.cancel })
      ⟨rfl, rfl, rfl⟩
    exact ⟨h.frame, h.lists⟩

theorem keeps_cancel : Keeps b b.cancel := by
  have hempty : Keeps b { b with conditions := Chain.empty } := ⟨rfl, id⟩
  have hcleared := hempty.trans (keeps_clearScratch _)
  refine .trans ?_ (keeps_setActive _ false)
  exact ⟨hcleared.frame, hcleared.lists⟩

theorem keeps_finish : Keeps b b.finish := by
  unfold finish
  split
  · exact ⟨rfl, id⟩
  · refine .trans ?_ (keeps_setActive _ false)
    exact ⟨rfl, id⟩

theorem keeps_removeLast : Keeps b b.removeLast := by
  unfold removeLast
  refine .trans ?_ (keeps_refreshValidation _)
  split <;> exact ⟨rfl, id⟩

theorem keeps_reset : Keeps b b.reset := by
  have hempty : Keeps b { b with conditions := Chain.empty } := ⟨rfl, id⟩
  have hcleared := hempty.trans (keeps_clearScratch _)
  exact ⟨hcleared.frame, hcleared.lists⟩

theorem keeps_toggleDateMode (now : Instant) : Keeps b (b.toggleDateMode now) := by
  unfold toggleDateMode
  dsimp only
  generalize (if (!b.useAdvancedDate) = true then ("Calendar picker" : Text)
    else "Text date entry") = message
  split
  · split
    · have h := keeps_rangePicker_deactivate b
      refine .trans ?_ (keeps_chooseOperator _ now _)
      exact ⟨h.frame, h.lists⟩
    · exact ⟨rfl, id⟩
  · exact ⟨rfl, id⟩

variable {b}

theorem keeps_globalKey {now : Instant} {k : Key} {b' : Builder}
    (h : b.globalKey? now k = some b') : Keeps b b' := by
  unfold globalKey? at h
  split at h <;> cases h
  · exact ⟨rfl, id⟩
  · refine .trans ?_ (keeps_refreshValidation _)
    exact ⟨rfl, id⟩
  · exact ⟨rfl, id⟩
  · exact keeps_removeLast b
  · exact keeps_reset b
  · exact keeps_toggleDateMode b now

/-! ## §6. Keys of the stages. -/

variable (b)

theorem keeps_fieldKey (k : Key) : Keeps b (b.fieldKey k) := by
  unfold fieldKey
  split
  · split
    · exact ⟨rfl, id⟩
    · exact keeps_chooseField b _
  · exact keeps_cancel b
  · exact keeps_finish b
  · exact keeps_fieldList b (by simp) (fun hv => hv.handle _)

theorem keeps_operatorKey (now : Instant) (k : Key) : Keeps b (b.operatorKey now k) := by
  unfold operatorKey
  split
  · split
    · exact .refl b
    · exact keeps_chooseOperator b now _
  · exact ⟨rfl, id⟩
  · exact keeps_operatorList b (by simp) (by simp) (fun hv => hv.handle _)

theorem keeps_valueKey (k : Key) : Keeps b (b.valueKey k) := by
  unfold valueKey
  split
  · exact keeps_submitValue b _
  · exact ⟨rfl, id⟩
  · exact keeps_valueInput b (by simp)

theorem keeps_choiceKey (k : Key) : Keeps b (b.choiceKey k) := by
  unfold choiceKey
  split
  · exact keeps_submitValue b _
  · split
    · exact keeps_choiceList b (by simp)
    · split
      · exact ⟨rfl, id⟩
      · exact keeps_choiceList b (by simp)

theorem keeps_referenceKey (k : Key) : Keeps b (b.referenceKey k) := by
  have h := keeps_reference b (ReferencePicker.sameMake_update b.reference k)
  unfold referenceKey
  dsimp only
  split
  · exact h
  · split
    · exact h.trans (keeps_submitValue _ _)
    · exact h.trans ⟨rfl, id⟩

theorem keeps_confirmRangeText : Keeps b b.confirmRangeText := by
  unfold confirmRangeText
  dsimp only
  split
  · exact ⟨rfl, id⟩
  · exact ⟨rfl, id⟩
  · generalize (if .char ':' ∈ Text.strip b.stopInput.value then _ else _) = stop
    split
    · exact keeps_submitRange b _ _
    · exact ⟨rfl, id⟩

theorem keeps_rangeTextKey (k : Key) : Keeps b (b.rangeTextKey k) := by
  unfold rangeTextKey
  split
  · exact ⟨rfl, id⟩
  · split
    · exact keeps_confirmRangeText b
    · exact ⟨rfl, id⟩
  · exact ⟨rfl, id⟩
  · split
    · exact keeps_stopInput b (by simp)
    · exact keeps_startInput b (by simp)

theorem keeps_linkKey (k : Key) : Keeps b (b.linkKey k) := by
  unfold linkKey
  split
  case h_7 => exact keeps_linkList b (by simp)
  all_goals exact keeps_commit b _

variable {b}

theorem keeps_calendarKey {now : Instant} {k : Key} {b' : Builder}
    (h : b.calendarKey now k = .ok b') : Keeps b b' := by
  unfold calendarKey at h
  cases hc : b.calendar.update now k with
  | error f => rw [hc] at h; cases h
  | ok c =>
      rw [hc] at h
      cases h
      have hset := keeps_calendar b (Calendar.sameMake_update hc).renewed_eq
      dsimp only
      split
      · exact hset
      · split
        · exact hset.trans (keeps_submitValue _ _)
        · exact hset.trans ⟨rfl, id⟩

theorem keeps_rangePickerKey {now : Instant} {k : Key} {b' : Builder}
    (h : b.rangePickerKey now k = .ok b') : Keeps b b' := by
  unfold rangePickerKey at h
  cases hp : b.rangePicker.update now k with
  | error f => rw [hp] at h; cases h
  | ok p =>
      rw [hp] at h
      cases h
      have hset := keeps_rangePicker b (RangePicker.sameMake_update hp) (fun hw => hw.update hp)
      dsimp only
      split
      · exact hset
      · split
        · exact hset.trans (keeps_submitRange _ _ _)
        · exact hset.trans ⟨rfl, id⟩

theorem keeps_stageKey {now : Instant} {k : Key} {b' : Builder}
    (h : b.stageKey now k = .ok b') : Keeps b b' := by
  unfold stageKey at h
  split at h
  · cases h; exact keeps_fieldKey b k
  · cases h; exact keeps_operatorKey b now k
  · cases h; exact keeps_valueKey b k
  · cases h; exact keeps_choiceKey b k
  · cases h; exact keeps_referenceKey b k
  · exact keeps_calendarKey h
  · exact keeps_rangePickerKey h
  · cases h; exact keeps_rangeTextKey b k
  · cases h; exact keeps_linkKey b k
  · cases h; exact .refl b

end

/-! ## §7. Every step of a history. -/

theorem keeps_update {b b' : Builder} {now : Instant} {k : Key} (h : b.update now k = .ok b') :
    Keeps b b' := by
  cases ha : b.active with
  | false =>
      rw [update, ha] at h
      cases h
      exact .refl b
  | true =>
      rcases update_cases ha h with hg | ⟨_, hstage, _⟩
      · exact keeps_globalKey hg
      · exact keeps_stageKey hstage

theorem keeps_deliver (b : Builder) (r : SearchResult) : Keeps b (b.deliver r) := by
  unfold deliver
  split
  · exact keeps_reference b (ReferencePicker.sameMake_handleResult _ _)
  · exact .refl b

theorem keeps_foldl_deliver (answers : List SearchResult) :
    ∀ b : Builder, Keeps b (answers.foldl deliver b) := by
  -- the builder changes with every answer
  induction answers with
  | nil => exact .refl
  | cons r rest ih => exact fun b => (keeps_deliver b r).trans (ih _)

theorem keeps_poll (b : Builder) : Keeps b b.poll.2 :=
  .trans (keeps_reference b (p := { b.reference with resolver := b.reference.resolver.poll.2 })
    ⟨rfl, rfl, rfl⟩) (keeps_foldl_deliver _ _)

/-- **No event changes the frame.** -/
theorem keeps_after {b b' : Builder} {e : Event} (h : b.after e = .ok b') : Keeps b b' := by
  cases e with
  | message m =>
      cases m with
      | key now k => exact keeps_update h
      | answer r =>
          cases h
          exact keeps_deliver b r
  | poll =>
      cases h
      exact keeps_poll b
  | ask | post =>
      cases h
      exact keeps_reference b ⟨rfl, rfl, rfl⟩

/-- **Nor does a filter that is loaded.** -/
theorem keeps_setConditions (b : Builder) (s : Chain) : Keeps b (b.setConditions s) := by
  have hloaded : Keeps b { b with conditions := Chain.ofList s.conditions } := ⟨rfl, id⟩
  have hcleared := hloaded.trans (keeps_clearScratch _)
  refine .trans ?_ (keeps_refreshValidation _)
  exact ⟨hcleared.frame, hcleared.lists⟩

/-- A new builder has its lists in order. -/
theorem wellListed_new (table : Table) (settings : Settings) (resolver : Resolver)
    (now : Instant) : (new table settings resolver now).WellListed :=
  ⟨PickList.valid_setItems _ _, PickList.valid_setItems _ _, RangePicker.isWhole_new _ _ _ _⟩

/-- **The frame does not depend on when a builder is made**, nor on its searches. -/
theorem frame_new {table : Table} {settings : Settings} {resolver resolver' : Resolver}
    (h : resolver.still = resolver'.still) (now now' : Instant) :
    (new table settings resolver now).frame = (new table settings resolver' now').frame := by
  have hreference : (ReferencePicker.new resolver (min settings.maxVisibleItems 10)).SameMake
      (ReferencePicker.new resolver' (min settings.maxVisibleItems 10)) := ⟨h.symm, rfl, rfl⟩
  simp only [frame, new, hreference.renewed_eq]
  rfl

end EncodedQuery.Builder

/-
  EncodedQuery.Proofs.Builder.Choices
  ───────────────────────────────────
  **THE LIST OF CHOICES.**

  While a value of a list is asked for, field and operator stay as they were
  chosen, and the list is that of the choices of the field.  Only the keys of this
  stage reach into the list, and it is filled anew whenever the stage is entered.
  So what is marked are choices of the field, and nothing is marked unless the
  operator takes a list of values.

  Main result: `History.listsChoices`.
-/
import EncodedQuery.Proofs.Builder.Frame
import EncodedQuery.Proofs.Widget.Window

namespace EncodedQuery.Builder

/-! ## §1. What leaves the list alone. -/

/-- From one builder to the other the list of choices stays as it is, and a value of a list is asked
for only where it was asked for before, of the same field and for the same operator. -/
structure KeepsChoices (b b' : Builder) : Prop where
  /-- The list is the same. -/
  list : b'.choiceList = b.choiceList
  /-- The stage is not entered, and in it nothing else is chosen. -/
  stage : b'.stage = .choice → b.stage = .choice ∧ b'.field = b.field ∧ b'.operator = b.operator

/-- Stage, field, operator and list are the same. -/
theorem keepsChoices_of_same {b b' : Builder} (hlist : b'.choiceList = b.choiceList)
    (hstage : b'.stage = b.stage) (hfield : b'.field = b.field)
    (hoperator : b'.operator = b.operator) : KeepsChoices b b' :=
  ⟨hlist, fun h => ⟨hstage.symm.trans h, hfield, hoperator⟩⟩

theorem KeepsChoices.refl (b : Builder) : KeepsChoices b b := keepsChoices_of_same rfl rfl rfl rfl

theorem KeepsChoices.trans {b b' b'' : Builder} (h : KeepsChoices b b') (h' : KeepsChoices b' b'') :
    KeepsChoices b b'' where
  list := h'.list.trans h.list
  stage := by
    intro hs
    obtain ⟨hs', hfield', hoperator'⟩ := h'.stage hs
    obtain ⟨hs, hfield, hoperator⟩ := h.stage hs'
    exact ⟨hs, hfield'.trans hfield, hoperator'.trans hoperator⟩

/-- Nothing is said about what is chosen in the other stages. -/
theorem keepsChoices_of_stage {b b' : Builder} (hlist : b'.choiceList = b.choiceList)
    (hs : b'.stage ≠ .choice) : KeepsChoices b b' := ⟨hlist, fun h => absurd h hs⟩

section
variable (b : Builder)

theorem keepsChoices_refreshValidation : KeepsChoices b b.refreshValidation := by
  unfold refreshValidation
  split
  · exact keepsChoices_of_same rfl rfl rfl rfl
  · exact .refl b

theorem keepsChoices_commit (link : Option Link) : KeepsChoices b (b.commit link) := by
  unfold commit
  split
  · exact .refl b
  · refine .trans ?_ (keepsChoices_refreshValidation _)
    exact keepsChoices_of_stage rfl nofun

theorem keepsChoices_reopenPicker : KeepsChoices b b.reopenPicker := by
  unfold reopenPicker
  split <;> exact keepsChoices_of_same rfl rfl rfl rfl

theorem keepsChoices_submit (c : Condition) : KeepsChoices b (b.submit c) := by
  unfold submit
  dsimp only
  split
  · refine .trans ?_ (keepsChoices_reopenPicker _)
    exact keepsChoices_of_same rfl rfl rfl rfl
  · split
    · refine .trans ?_ (keepsChoices_commit _ none)
      exact keepsChoices_of_same rfl rfl rfl rfl
    · exact keepsChoices_of_stage rfl nofun

theorem keepsChoices_submitValue (value : Text) : KeepsChoices b (b.submitValue value) := by
  unfold submitValue
  split
  · exact keepsChoices_submit b _
  · exact .refl b

theorem keepsChoices_submitRange (start stop : Instant) :
    KeepsChoices b (b.submitRange start stop) := by
  unfold submitRange
  split
  · exact keepsChoices_submit b _
  · exact .refl b

theorem keepsChoices_setActive (on : Bool) : KeepsChoices b (b.setActive on) := by
  unfold setActive
  split
  · refine ⟨rfl, ?_⟩
    dsimp only
    split
    · exact nofun
    · exact fun h => ⟨h, rfl, rfl⟩
  · exact keepsChoices_of_same rfl rfl rfl rfl

theorem keepsChoices_finish : KeepsChoices b b.finish := by
  unfold finish
  split
  · exact keepsChoices_of_same rfl rfl rfl rfl
  · exact keepsChoices_of_stage rfl nofun

theorem keepsChoices_removeLast : KeepsChoices b b.removeLast := by
  unfold removeLast
  refine .trans ?_ (keepsChoices_refreshValidation _)
  split <;> exact keepsChoices_of_same rfl rfl rfl rfl

theorem keepsChoices_fieldKey (hs : b.stage = .field) (k : Key) :
    KeepsChoices b (b.fieldKey k) := by
  have hne : b.stage ≠ .choice := by
    rw [hs]
    nofun
  unfold fieldKey
  split
  · split
    · exact keepsChoices_of_same rfl rfl rfl rfl
    · exact keepsChoices_of_stage rfl nofun
  · exact keepsChoices_of_stage rfl hne
  · exact keepsChoices_finish b
  · exact keepsChoices_of_same rfl rfl rfl rfl

theorem keepsChoices_backToOperators : KeepsChoices b b.backToOperators :=
  keepsChoices_of_stage rfl nofun

theorem keepsChoices_valueKey (k : Key) : KeepsChoices b (b.valueKey k) := by
  unfold valueKey
  split
  · exact keepsChoices_submitValue b _
  · exact keepsChoices_backToOperators b
  · exact keepsChoices_of_same rfl rfl rfl rfl

theorem keepsChoices_referenceKey (k : Key) : KeepsChoices b (b.referenceKey k) := by
  have hset : KeepsChoices b { b with reference := b.reference.update k } :=
    keepsChoices_of_same rfl rfl rfl rfl
  unfold referenceKey
  dsimp only
  split
  · exact hset
  · split
    · exact hset.trans (keepsChoices_submitValue _ _)
    · exact hset.trans (keepsChoices_backToOperators _)

theorem keepsChoices_confirmRangeText : KeepsChoices b b.confirmRangeText := by
  unfold confirmRangeText
  dsimp only
  split
  · exact keepsChoices_of_same rfl rfl rfl rfl
  · exact keepsChoices_of_same rfl rfl rfl rfl
  · generalize (if .char ':' ∈ Text.strip b.stopInput.value then _ else _) = stop
    split
    · exact keepsChoices_submitRange b _ _
    · exact keepsChoices_of_same rfl rfl rfl rfl

theorem keepsChoices_rangeTextKey (k : Key) : KeepsChoices b (b.rangeTextKey k) := by
  unfold rangeTextKey
  split
  · exact keepsChoices_of_same rfl rfl rfl rfl
  · split
    · exact keepsChoices_confirmRangeText b
    · exact keepsChoices_of_same rfl rfl rfl rfl
  · exact keepsChoices_backToOperators b
  · split <;> exact keepsChoices_of_same rfl rfl rfl rfl

theorem keepsChoices_linkKey (k : Key) : KeepsChoices b (b.linkKey k) := by
  unfold linkKey
  split
  case h_7 => exact keepsChoices_of_same rfl rfl rfl rfl
  all_goals exact keepsChoices_commit b _

theorem keepsChoices_deliver (r : SearchResult) : KeepsChoices b (b.deliver r) := by
  unfold deliver
  split
  · exact keepsChoices_of_same rfl rfl rfl rfl
  · exact .refl b

variable {b}

theorem keepsChoices_calendarKey {now : Instant} {k : Key} {b' : Builder}
    (h : b.calendarKey now k = .ok b') : KeepsChoices b b' := by
  unfold calendarKey at h
  cases hc : b.calendar.update now k with
  | error f =>
      rw [hc] at h
      cases h
  | ok c =>
      rw [hc] at h
      cases h
      have hset : KeepsChoices b { b with calendar := c } := keepsChoices_of_same rfl rfl rfl rfl
      dsimp only
      split
      · exact hset
      · split
        · exact hset.trans (keepsChoices_submitValue _ _)
        · exact hset.trans (keepsChoices_backToOperators _)

theorem keepsChoices_rangePickerKey {now : Instant} {k : Key} {b' : Builder}
    (h : b.rangePickerKey now k = .ok b') : KeepsChoices b b' := by
  unfold rangePickerKey at h
  cases hp : b.rangePicker.update now k with
  | error f =>
      rw [hp] at h
      cases h
  | ok p =>
      rw [hp] at h
      cases h
      have hset : KeepsChoices b { b with rangePicker := p } := keepsChoices_of_same rfl rfl rfl rfl
      dsimp only
      split
      · exact hset
      · split
        · exact hset.trans (keepsChoices_submitRange _ _ _)
        · exact hset.trans (keepsChoices_backToOperators _)

end

theorem keepsChoices_foldl_deliver (answers : List SearchResult) :
    ∀ b : Builder, KeepsChoices b (answers.foldl deliver b) := by
  induction answers with
  | nil =>
      intro b
      exact .refl b
  | cons r rest ih =>
      intro b
      exact (keepsChoices_deliver b r).trans (ih _)

/-! ## §2. The choices of the field. -/

/-- A value of the choices of `f` is asked for, for the operator `e`. -/
structure Offers (b : Builder) (f : Field) (e : OperatorEntry) : Prop where
  /-- The field is chosen. -/
  field : b.field = some f
  /-- So is the operator. -/
  operator : b.operator = some e
  /-- It is a choice field. -/
  type : f.type = .choice
  /-- Its choices are listed. -/
  items : b.choiceList.items = f.choices.map choiceItem
  /-- Several can be marked when the operator takes a list of values. -/
  multi : b.choiceList.multi = Text.isOperatorIn Operator.isListed e.token
  /-- When it does not, none is. -/
  single : b.choiceList.multi = false → b.choiceList.marked = []

/-- The cursor of the list is in sight, and while a value of a list is asked for it lists the
choices of the chosen field. -/
structure ListsChoices (b : Builder) : Prop where
  /-- What is marked are items of the list. -/
  inSight : b.choiceList.InSight
  /-- In the stage of the list its items are the choices. -/
  offers : b.stage = .choice → ∃ f e, b.Offers f e

section
variable {b b' : Builder}

theorem ListsChoices.keep (h : b.ListsChoices) (hk : KeepsChoices b b') : b'.ListsChoices where
  inSight := hk.list ▸ h.inSight
  offers := by
    intro hs'
    obtain ⟨hs, hfield, hoperator⟩ := hk.stage hs'
    obtain ⟨f, e, ho⟩ := h.offers hs
    exact ⟨f, e, hfield.trans ho.field, hoperator.trans ho.operator, ho.type, hk.list ▸ ho.items,
      hk.list ▸ ho.multi, hk.list ▸ ho.single⟩

/-- **The list is filled anew when its stage is entered.** -/
theorem ListsChoices.openValue (h : b.ListsChoices) (now : Instant) {f : Field} {e : OperatorEntry}
    (hfield : b.field = some f) (hoperator : b.operator = some e) :
    (b.openValue now f e).ListsChoices := by
  unfold Builder.openValue
  dsimp only
  split
  · split
    · exact h.keep (keepsChoices_of_stage rfl nofun)
    · exact h.keep (keepsChoices_of_stage rfl nofun)
  · split
    next hchoice =>
      refine { inSight := ?_, offers := ?_ }
      · apply PickList.inSight_setItems
        exact h.inSight.window_pos
      · intro _
        exact ⟨f, e, hfield, hoperator, hchoice.1, rfl, rfl, fun _ => rfl⟩
    next =>
      split
      · exact h.keep (keepsChoices_of_stage rfl nofun)
      · split <;> exact h.keep (keepsChoices_of_stage rfl nofun)

theorem ListsChoices.chooseOperator (h : b.ListsChoices) (hs : b.stage ≠ .choice) (now : Instant)
    (e : OperatorEntry) : (b.chooseOperator now e).ListsChoices := by
  have hchosen : ({ b with operator := some e, error := [] } : Builder).ListsChoices :=
    h.keep (keepsChoices_of_stage rfl hs)
  unfold Builder.chooseOperator
  dsimp only
  split
  · exact hchosen
  next f hf =>
    split
    · exact hchosen.openValue now hf rfl
    · exact hchosen.keep (keepsChoices_submitValue _ _)

theorem ListsChoices.toggleDateMode (h : b.ListsChoices) (now : Instant) :
    (b.toggleDateMode now).ListsChoices := by
  unfold Builder.toggleDateMode
  dsimp only
  generalize (if (!b.useAdvancedDate) = true then ("Calendar picker" : Text)
    else "Text date entry") = message
  split
  · split
    next hasks =>
      -- a day is asked for, so no choice is
      have hs : b.stage ≠ .choice := by
        intro heq
        simp [asksForDate, heq, Stage.isDate] at hasks
      apply ListsChoices.chooseOperator
      · exact h.keep (keepsChoices_of_same rfl rfl rfl rfl)
      · exact hs
    next => exact h.keep (keepsChoices_of_same rfl rfl rfl rfl)
  · exact h.keep (keepsChoices_of_same rfl rfl rfl rfl)

theorem ListsChoices.globalKey (h : b.ListsChoices) {now : Instant} {k : Key}
    (hg : b.globalKey? now k = some b') : b'.ListsChoices := by
  unfold globalKey? at hg
  split at hg <;> cases hg
  · exact h.keep (keepsChoices_of_same rfl rfl rfl rfl)
  · refine h.keep (.trans ?_ (keepsChoices_refreshValidation _))
    exact keepsChoices_of_same rfl rfl rfl rfl
  · exact h.keep (keepsChoices_of_same rfl rfl rfl rfl)
  · exact h.keep (keepsChoices_removeLast b)
  · exact h.keep (keepsChoices_of_stage rfl nofun)
  · exact h.toggleDateMode now

theorem ListsChoices.operatorKey (h : b.ListsChoices) (hs : b.stage = .operator) (now : Instant)
    (k : Key) : (b.operatorKey now k).ListsChoices := by
  unfold Builder.operatorKey
  split
  · split
    · exact h
    · apply h.chooseOperator
      rw [hs]
      nofun
  · exact h.keep (keepsChoices_of_stage rfl nofun)
  · exact h.keep (keepsChoices_of_same rfl rfl rfl rfl)

/-- **Keys in the stage of the list** move its cursor and set marks. -/
theorem ListsChoices.choiceKey (h : b.ListsChoices) (k : Key) : (b.choiceKey k).ListsChoices := by
  unfold Builder.choiceKey
  split
  · exact h.keep (keepsChoices_submitValue b _)
  · split
    next hmark =>
      obtain ⟨_, hitems, hmulti⟩ := b.choiceList.toggleMark_leaves
      refine { inSight := h.inSight.toggleMark, offers := ?_ }
      intro hs
      obtain ⟨f, e, ho⟩ := h.offers hs
      refine ⟨f, e, ho.field, ho.operator, ho.type, hitems.trans ho.items, hmulti.trans ho.multi,
        ?_⟩
      -- without several choices there is no key that marks one
      intro hsingle
      have hnone : b.choiceList.multi = false := hmulti.symm.trans hsingle
      rw [hmark.2] at hnone
      cases hnone
    next =>
      split
      · exact h.keep (keepsChoices_backToOperators b)
      · have hmarked := (b.choiceList.handle_leaves k).2
        have hmulti := b.choiceList.multi_handle k
        refine { inSight := h.inSight.handle k, offers := ?_ }
        intro hs
        obtain ⟨f, e, ho⟩ := h.offers hs
        refine ⟨f, e, ho.field, ho.operator, ho.type, (b.choiceList.items_handle k).trans ho.items,
          hmulti.trans ho.multi, ?_⟩
        intro hsingle
        exact hmarked.trans (ho.single (hmulti.symm.trans hsingle))

theorem ListsChoices.stageKey (h : b.ListsChoices) {now : Instant} {k : Key}
    (hk : b.stageKey now k = .ok b') : b'.ListsChoices := by
  unfold Builder.stageKey at hk
  split at hk
  next hs =>
    cases hk
    exact h.keep (keepsChoices_fieldKey b hs k)
  next hs =>
    cases hk
    exact h.operatorKey hs now k
  next =>
    cases hk
    exact h.keep (keepsChoices_valueKey b k)
  next =>
    cases hk
    exact h.choiceKey k
  next =>
    cases hk
    exact h.keep (keepsChoices_referenceKey b k)
  next => exact h.keep (keepsChoices_calendarKey hk)
  next => exact h.keep (keepsChoices_rangePickerKey hk)
  next =>
    cases hk
    exact h.keep (keepsChoices_rangeTextKey b k)
  next =>
    cases hk
    exact h.keep (keepsChoices_linkKey b k)
  next =>
    cases hk
    exact h

/-! ## §3. Every step of a history. -/

theorem ListsChoices.update (h : b.ListsChoices) {now : Instant} {k : Key}
    (hu : b.update now k = .ok b') : b'.ListsChoices := by
  cases ha : b.active with
  | false =>
      rw [update_of_inactive ha] at hu
      cases hu
      exact h
  | true =>
      rcases update_cases ha hu with hg | ⟨_, hstage, _⟩
      · exact h.globalKey hg
      · exact h.stageKey hstage

/-- **An event leaves the list of choices one of the chosen field.** -/
theorem ListsChoices.after (h : b.ListsChoices) {e : Event} (he : b.after e = .ok b') :
    b'.ListsChoices := by
  cases e with
  | message m =>
      cases m with
      | key now k => exact h.update he
      | answer r =>
          cases he
          exact h.keep (keepsChoices_deliver b r)
  | poll =>
      cases he
      refine h.keep (.trans ?_ (keepsChoices_foldl_deliver _ _))
      exact keepsChoices_of_same rfl rfl rfl rfl
  | ask | post =>
      cases he
      exact h.keep (keepsChoices_of_same rfl rfl rfl rfl)

theorem listsChoices_new (table : Table) (settings : Settings) (resolver : Resolver)
    (now : Instant) : (new table settings resolver now).ListsChoices where
  inSight := by
    apply PickList.inSight_setItems
    show 0 < max 1 settings.maxVisibleItems.toNat
    omega
  offers := nofun

/-- **The list of choices, whatever happened to the builder.** -/
theorem History.listsChoices {table : Table} {settings : Settings} {resolver : Resolver}
    {b : Builder} (h : History table settings resolver b) : b.ListsChoices := by
  induction h with
  | created h =>
      unfold create at h
      split at h <;> cases h
      exact listsChoices_new table settings resolver _
  | event _ h ih => exact ih.after h
  | loaded _ s ih =>
      refine ih.keep (.trans ?_ (keepsChoices_refreshValidation _))
      exact keepsChoices_of_stage rfl nofun
  | turned _ on ih => exact ih.keep (keepsChoices_setActive _ on)

end

end EncodedQuery.Builder

/-
  EncodedQuery.Proofs.Widget.Window
  ─────────────────────────────────
  **THE CURSOR IS IN SIGHT.**

  A list shows the items that the filter lets through, and of these the ones in
  its window.  Keys, new items, the search for a value and marks all touch the
  same few numbers, and whatever is done, the item under the cursor is drawn.

  Main results:
    • `InSight.call` — one call keeps the cursor in sight,
    • `keeps_in_sight` — so do all calls, from a new list on, and the window has
      exactly one row with the cursor.
-/
import EncodedQuery.Proofs.Text.Pieces
import EncodedQuery.Proofs.Widget.PickList

namespace EncodedQuery

variable {α : Type}

/-! ## §1. What the filter lets through. -/

/-- The row holds a text, in either case, in its title or in what is said about it. -/
def PickItem.Holds (item : PickItem α) (needle : Text) : Prop :=
  Text.lower needle <:+: Text.lower item.title ∨
    Text.lower needle <:+: Text.lower item.description

theorem PickItem.matchesText_iff {item : PickItem α} {needle : Text} :
    item.matchesText needle = true ↔ item.Holds needle := by
  unfold matchesText Holds
  rw [Bool.or_eq_true, Text.contains_iff, Text.contains_iff]

instance (item : PickItem α) (needle : Text) : Decidable (item.Holds needle) :=
  decidable_of_iff _ PickItem.matchesText_iff

namespace PickList

/-- The items that hold the text of the filter, without the blanks around it. -/
def passing (l : PickList α) : List (PickItem α) :=
  l.items.filter (fun item => decide (item.Holds (Text.strip l.filter.value)))

/-- Every row holds the empty text. -/
theorem passing_of_empty {l : PickList α} (h : Text.strip l.filter.value = []) :
    l.passing = l.items := by
  apply List.filter_eq_self.mpr
  intro item _
  apply decide_eq_true
  left
  rw [h]
  exact List.nil_infix

theorem visible_refilter (l : PickList α) : l.refilter.visible = l.passing := by
  show (if (Text.strip l.filter.value).isEmpty then l.items
    else l.items.filter (fun item => item.matchesText (Text.strip l.filter.value))) = l.passing
  split
  next hempty => exact (passing_of_empty (List.isEmpty_iff.mp hempty)).symm
  next =>
    apply List.filter_congr
    intro item _
    rw [Bool.eq_iff_iff, PickItem.matchesText_iff, decide_eq_true_iff]

/-! ## §2. The cursor in sight. -/

/-- The list shows what its filter lets through, with the cursor on one of the rows that are drawn,
and what is marked are different items of its own. -/
structure InSight [BEq α] (l : PickList α) : Prop where
  /-- What is shown is what the filter lets through. -/
  shown : l.visible = l.passing
  /-- The cursor is on an item that is shown; when none is, it is at the start. -/
  cursor : l.index < l.visible.length ∨ l.visible = [] ∧ l.index = 0
  /-- The window does not begin behind the cursor. -/
  above : l.offset ≤ l.index
  /-- Nor does it end before it. -/
  below : l.index < l.offset + l.window
  /-- What is marked is an item. -/
  marked : l.marked ⊆ l.items
  /-- No item is marked twice. -/
  apart : l.marked.Pairwise (fun a b => (a == b) = false)

section
variable [BEq α] {l : PickList α}

/-- After filtering anew the cursor is on the first item that is shown. -/
theorem inSight_refilter (hwindow : 0 < l.window) (hmarked : l.marked ⊆ l.items)
    (hapart : l.marked.Pairwise (fun a b => (a == b) = false)) : l.refilter.InSight where
  shown := visible_refilter l
  cursor := by
    by_cases hnil : l.refilter.visible = []
    · right
      exact ⟨hnil, rfl⟩
    · left
      exact List.length_pos_iff.mpr hnil
  above := Nat.le_refl 0
  below := by
    show 0 < 0 + l.window
    omega
  marked := hmarked
  apart := hapart

theorem InSight.window_pos (h : l.InSight) : 0 < l.window := by
  have habove := h.above
  have hbelow := h.below
  omega

theorem inSight_setItems (hwindow : 0 < l.window) (items : List (PickItem α)) :
    (l.setItems items).InSight :=
  inSight_refilter (l := { l with items, marked := [], filter := l.filter.reset }) hwindow
    (List.nil_subset items) List.Pairwise.nil

/-- **Moving the cursor takes the window along.** -/
theorem InSight.moveTo (h : l.InSight) (i : Int) : (l.moveTo i).InSight := by
  have hwindow := h.window_pos
  unfold PickList.moveTo
  by_cases hnil : l.visible = []
  · rw [if_pos (List.isEmpty_iff.mpr hnil)]
    refine { shown := h.shown, cursor := .inr ⟨hnil, rfl⟩, above := Nat.le_refl 0, below := ?_,
             marked := h.marked, apart := h.apart }
    show 0 < 0 + l.window
    omega
  · rw [if_neg (mt List.isEmpty_iff.mp hnil)]
    have hlength : 0 < l.visible.length := List.length_pos_iff.mpr hnil
    dsimp only
    generalize hindex : min i.toNat (l.visible.length - 1) = index
    -- the window begins at the cursor, ends at it, or stays
    refine { shown := h.shown, cursor := .inl ?_, above := ?_, below := ?_,
             marked := h.marked, apart := h.apart }
    · show index < l.visible.length
      omega
    · show (if index < l.offset then index
        else if l.offset + l.window ≤ index then index - l.window + 1 else l.offset) ≤ index
      split
      · omega
      · split <;> omega
    · show index < (if index < l.offset then index
        else if l.offset + l.window ≤ index then index - l.window + 1 else l.offset) + l.window
      split
      · omega
      · split <;> omega

theorem InSight.editFilter (h : l.InSight) (k : Key) : (l.editFilter k).InSight := by
  unfold PickList.editFilter
  dsimp only
  split
  next heq =>
    -- the text is the old one, so the same items pass
    have hshown : l.visible = passing { l with filter := (l.filter.handle k).1 } := by
      rw [h.shown]
      unfold passing
      dsimp only
      rw [heq]
    exact ⟨hshown, h.cursor, h.above, h.below, h.marked, h.apart⟩
  next => exact inSight_refilter h.window_pos h.marked h.apart

theorem InSight.handle (h : l.InSight) (k : Key) : (l.handle k).1.InSight := by
  rcases handle_cases l k with heq | ⟨i, heq⟩ | heq
  · rw [heq]
    exact h
  · rw [heq]
    exact h.moveTo i
  · rw [heq]
    exact h.editFilter k

/-- The item under the cursor is one of the items. -/
theorem InSight.mem_of_selected (h : l.InSight) {item : PickItem α} (hs : l.selected = some item) :
    item ∈ l.items := by
  have hmem : item ∈ l.visible := List.mem_of_getElem? hs
  rw [h.shown] at hmem
  exact List.mem_of_mem_filter hmem

/-- **A mark is set on an item that has none, or taken away.** -/
theorem InSight.toggleMark (h : l.InSight) : l.toggleMark.InSight := by
  unfold PickList.toggleMark
  split
  next => exact h
  next item hitem =>
    refine { shown := h.shown, cursor := h.cursor, above := h.above, below := h.below,
             marked := ?_, apart := ?_ }
    · show (if l.marked.any (· == item) then l.marked.eraseP (· == item)
        else l.marked ++ [item]) ⊆ l.items
      split
      · exact List.Subset.trans List.eraseP_subset h.marked
      · apply List.append_subset.mpr
        exact ⟨h.marked, List.cons_subset.mpr ⟨h.mem_of_selected hitem, List.nil_subset _⟩⟩
    · show (if l.marked.any (· == item) then l.marked.eraseP (· == item)
        else l.marked ++ [item]).Pairwise _
      split
      · exact h.apart.sublist List.eraseP_sublist
      next hnone =>
        rw [List.pairwise_append]
        refine ⟨h.apart, List.pairwise_singleton _ _, ?_⟩
        intro a ha b hb
        rw [List.mem_singleton.mp hb]
        apply Bool.eq_false_iff.mpr
        intro hsame
        exact hnone (List.any_eq_true.mpr ⟨a, ha, hsame⟩)

/-! ## §3. Calls. -/

/-- What is done to a list. -/
inductive Call (α : Type) where
  /-- A key is pressed. -/
  | key (k : Key)
  /-- The list gets other items. -/
  | fill (items : List (PickItem α))
  /-- The cursor goes to the first visible item whose value has a property, if there is one. -/
  | select (p : α → Bool)
  /-- The item under the cursor gets a mark, or loses it. -/
  | toggle

/-- The list after a call. -/
def call (l : PickList α) : Call α → PickList α
  | .key k => (l.handle k).1
  | .fill items => l.setItems items
  | .select p => (l.selectWhere? p).getD l
  | .toggle => l.toggleMark

omit [BEq α] in
theorem selectWhere?_cases (l : PickList α) (p : α → Bool) :
    (l.selectWhere? p).getD l = l ∨ ∃ i, (l.selectWhere? p).getD l = l.moveTo i := by
  unfold selectWhere?
  cases l.visible.findIdx? (fun item => p item.value) with
  | none => exact .inl rfl
  | some i => exact .inr ⟨i, rfl⟩

/-- **ONE CALL.**  It keeps the cursor in sight. -/
theorem InSight.call (h : l.InSight) (c : Call α) : (l.call c).InSight := by
  cases c with
  | key k => exact h.handle k
  | fill items => exact inSight_setItems h.window_pos items
  | select p =>
      show ((l.selectWhere? p).getD l).InSight
      rcases selectWhere?_cases l p with heq | ⟨i, heq⟩
      · rw [heq]
        exact h
      · rw [heq]
        exact h.moveTo i
  | toggle => exact h.toggleMark

omit [BEq α] in
theorem moveTo_leaves (l : PickList α) (i : Int) :
    (l.moveTo i).window = l.window ∧ (l.moveTo i).marked = l.marked := by
  unfold moveTo
  split <;> exact ⟨rfl, rfl⟩

omit [BEq α] in
/-- A key changes neither the size of the window nor what is marked. -/
theorem handle_leaves (l : PickList α) (k : Key) :
    (l.handle k).1.window = l.window ∧ (l.handle k).1.marked = l.marked := by
  rcases handle_cases l k with heq | ⟨i, heq⟩ | heq
  · rw [heq]
    exact ⟨rfl, rfl⟩
  · rw [heq]
    exact moveTo_leaves l i
  · rw [heq]
    unfold editFilter
    dsimp only
    split <;> exact ⟨rfl, rfl⟩

/-- A mark changes nothing but what is marked. -/
theorem toggleMark_leaves (l : PickList α) :
    l.toggleMark.window = l.window ∧ l.toggleMark.items = l.items ∧
      l.toggleMark.multi = l.multi := by
  unfold PickList.toggleMark
  split <;> exact ⟨rfl, rfl, rfl⟩

/-- No call changes the size of the window. -/
theorem window_call (l : PickList α) (c : Call α) : (l.call c).window = l.window := by
  cases c with
  | key k => exact (handle_leaves l k).1
  | fill items => rfl
  | select p =>
      show ((l.selectWhere? p).getD l).window = l.window
      rcases selectWhere?_cases l p with heq | ⟨i, heq⟩
      · rw [heq]
      · rw [heq]
        exact (moveTo_leaves l i).1
  | toggle => exact (toggleMark_leaves l).1

/-- The list after a row of calls. -/
def calls (l : PickList α) (cs : List (Call α)) : PickList α := cs.foldl call l

theorem InSight.calls (cs : List (Call α)) :
    ∀ {l : PickList α}, l.InSight → (l.calls cs).InSight := by
  induction cs with
  | nil =>
      intro l h
      exact h
  | cons c rest ih =>
      intro l h
      exact ih (h.call c)

theorem window_calls (cs : List (Call α)) : ∀ l : PickList α, (l.calls cs).window = l.window := by
  induction cs with
  | nil =>
      intro l
      rfl
  | cons c rest ih =>
      intro l
      show ((l.call c).calls rest).window = l.window
      rw [ih, window_call]

end

/-! ## §4. What is drawn. -/

/-- Of items that are numbered from `n` on, at most one has the number `i`. -/
theorem filter_zipIdx_eq {β : Type} (i : Nat) :
    ∀ (items : List β) (n : Nat), n ≤ i →
      (items.zipIdx n).filter (fun row => decide (row.2 = i))
        = (items[i - n]?).toList.map (fun item => (item, i)) := by
  intro items
  induction items with
  | nil =>
      intro n _
      rfl
  | cons item rest ih =>
      intro n hn
      rw [List.zipIdx_cons, List.filter_cons]
      by_cases heq : n = i
      · -- the first one has it, and the later ones have greater numbers
        have hrest : (rest.zipIdx (n + 1)).filter (fun row => decide (row.2 = i)) = [] := by
          apply List.filter_eq_nil_iff.mpr
          intro row hrow hlater
          have hge : n + 1 ≤ row.2 := List.le_snd_of_mem_zipIdx hrow
          have hrow : row.2 = i := of_decide_eq_true hlater
          omega
        rw [if_pos (decide_eq_true heq), hrest, heq, Nat.sub_self]
        rfl
      · have hsucc : i - n = (i - (n + 1)) + 1 := by omega
        rw [if_neg (by simpa using heq), ih (n + 1) (by omega), hsucc, List.getElem?_cons_succ]

/-- The rows of the window that stand at the cursor: the one of the item under it. -/
theorem rowsAtCursor_eq [BEq α] {l : PickList α} (h : l.InSight) :
    l.windowRows.filter (fun row => decide (row.1 = l.index))
      = l.selected.toList.map (fun item => (l.index, item)) := by
  have hcursor : ((l.visible.drop l.offset).take l.window)[l.index - l.offset]? = l.selected := by
    have habove := h.above
    have hbelow := h.below
    rw [List.getElem?_take_of_lt (by omega), List.getElem?_drop, Nat.add_sub_cancel' habove]
    rfl
  show List.filter _ ((((l.visible.drop l.offset).take l.window).zipIdx l.offset).map
    (fun row : PickItem α × Nat => (row.2, row.1))) = _
  rw [List.filter_map]
  show (List.filter (fun row : PickItem α × Nat => decide (row.2 = l.index)) _).map _ = _
  rw [filter_zipIdx_eq l.index _ l.offset h.above, hcursor, List.map_map]
  rfl

/-- The rows of the window are part of the view. -/
theorem exists_view_eq [BEq α] (l : PickList α) :
    ∃ before after, l.view
      = .group
          (before ++ l.windowRows.map (fun row => .styled (l.rowView row.1 row.2)) ++ after) := by
  unfold view
  dsimp only
  exact ⟨_, _, rfl⟩

/-- **THE CURSOR IS IN SIGHT.**  After any calls on a new list, what is visible are the items that
hold the text of the filter, in order.  The cursor is on one of them, which can be taken; when there
is none it is at the start.  It lies in the window, whose size never changes, and of the rows that
are drawn exactly the one of the item under the cursor stands at the cursor.  What is marked are
different items of the list. -/
theorem keeps_in_sight [BEq α] (title : Text) (items : List (PickItem α)) (window : Int)
    (filterable multi : Bool) (cs : List (Call α)) :
    let l := (new title items window filterable multi).calls cs
    l.visible = l.items.filter (fun item => decide (item.Holds (Text.strip l.filter.value))) ∧
      ((l.visible = [] ∧ l.index = 0 ∧ l.selected = none) ∨
        ∃ h : l.index < l.visible.length, l.selected = some l.visible[l.index]) ∧
      l.offset ≤ l.index ∧ l.index < l.offset + l.window ∧ l.window = max 1 window.toNat ∧
      (∃ before after, l.view = .group
        (before ++ l.windowRows.map (fun row => .styled (l.rowView row.1 row.2)) ++ after)) ∧
      l.windowRows.filter (fun row => decide (row.1 = l.index))
        = l.selected.toList.map (fun item => (l.index, item)) ∧
      l.marked ⊆ l.items ∧ l.marked.Pairwise (fun a b => (a == b) = false) := by
  intro l
  have hwindow : (new title items window filterable multi).window = max 1 window.toNat := rfl
  have hnew : (new title items window filterable multi).InSight := by
    apply inSight_setItems
    show 0 < max 1 window.toNat
    omega
  have h : l.InSight := hnew.calls cs
  refine ⟨h.shown, ?_, h.above, h.below, (window_calls cs _).trans hwindow, exists_view_eq l,
    rowsAtCursor_eq h, h.marked, h.apart⟩
  rcases h.cursor with hlt | ⟨hnil, hzero⟩
  · right
    exact ⟨hlt, List.getElem?_eq_getElem hlt⟩
  · left
    refine ⟨hnil, hzero, ?_⟩
    show l.visible[l.index]? = none
    rw [hnil]
    rfl

end PickList

end EncodedQuery

/-
  EncodedQuery.Proofs.Widget.PickList
  ───────────────────────────────────
  **THE CURSOR OF A LIST STAYS ON ITS ITEMS.**

  Whatever is done to a list, the items that it shows are among its items, and
  the cursor is on one of them unless none is shown.  The item under the cursor
  can therefore always be taken.

  Main results:
    • `valid_setItems` — a list that is filled is in order,
    • `Valid.handle` — keys keep it in order,
    • `items_handle` — no key changes the items themselves,
    • `refill_handle` — a list that is filled again is as if no key had been
      pressed.
-/
import EncodedQuery.Widget.PickList
import EncodedQuery.Proofs.Widget.TextInput

namespace EncodedQuery.PickList

variable {α : Type}

/-! ## §1. Lists in order. -/

/-- The list shows items of its own, with the cursor on one of them. -/
structure Valid (l : PickList α) : Prop where
  /-- What is shown is an item. -/
  shown : ∀ item ∈ l.visible, item ∈ l.items
  /-- The cursor is on an item that is shown, unless none is. -/
  cursor : l.visible = [] ∨ l.index < l.visible.length

/-- The item under the cursor is an item of the list. -/
theorem Valid.mem_of_selected {l : PickList α} (h : l.Valid) {item : PickItem α}
    (hs : l.selected = some item) : item ∈ l.items :=
  h.shown item (List.mem_of_getElem? hs)

/-! ## §2. Filling and moving. -/

theorem valid_refilter (l : PickList α) : l.refilter.Valid where
  shown := by
    intro item hitem
    unfold refilter at hitem
    dsimp only at hitem
    split at hitem
    · exact hitem
    · exact (List.mem_filter.mp hitem).1
  cursor := by
    by_cases hnil : l.refilter.visible = []
    · exact .inl hnil
    · exact .inr (List.length_pos_iff.mpr hnil)

theorem valid_setItems (l : PickList α) (items : List (PickItem α)) :
    (l.setItems items).Valid :=
  valid_refilter _

@[simp] theorem items_setItems (l : PickList α) (items : List (PickItem α)) :
    (l.setItems items).items = items := rfl

@[simp] theorem items_moveTo (l : PickList α) (i : Int) : (l.moveTo i).items = l.items := by
  unfold moveTo
  split <;> rfl

theorem visible_moveTo (l : PickList α) (i : Int) : (l.moveTo i).visible = l.visible := by
  unfold moveTo
  split <;> rfl

theorem Valid.moveTo {l : PickList α} (h : l.Valid) (i : Int) : (l.moveTo i).Valid where
  shown := by
    rw [visible_moveTo, items_moveTo]
    exact h.shown
  cursor := by
    rw [visible_moveTo]
    by_cases hnil : l.visible = []
    · exact .inl hnil
    · have hpos : 0 < l.visible.length := List.length_pos_iff.mpr hnil
      have hindex : (l.moveTo i).index = min i.toNat (l.visible.length - 1) := by
        simp [PickList.moveTo, hnil]
      rw [hindex]
      exact .inr (by omega)

/-! ## §3. Keys and marks. -/

theorem items_editFilter (l : PickList α) (k : Key) : (l.editFilter k).items = l.items := by
  unfold editFilter
  dsimp only
  split <;> rfl

theorem Valid.editFilter {l : PickList α} (h : l.Valid) (k : Key) : (l.editFilter k).Valid := by
  unfold PickList.editFilter
  dsimp only
  split
  · exact ⟨h.shown, h.cursor⟩
  · exact valid_refilter _

/-- What a key does to a list: nothing, a move of the cursor, or an edit of the filter. -/
theorem handle_cases (l : PickList α) (k : Key) :
    (l.handle k).1 = l ∨ (∃ i, (l.handle k).1 = l.moveTo i) ∨ (l.handle k).1 = l.editFilter k := by
  unfold handle step?
  split
  next l' heq =>
    split at heq <;>
      first
      | (cases heq; exact .inr (.inl ⟨_, rfl⟩))
      | (split at heq
         · split at heq
           · cases heq; exact .inr (.inr rfl)
           · cases heq
         · split at heq
           · cases heq; exact .inr (.inl ⟨_, rfl⟩)
           · split at heq
             · cases heq; exact .inr (.inl ⟨_, rfl⟩)
             · cases heq)
  next => exact .inl rfl

theorem Valid.handle {l : PickList α} (h : l.Valid) (k : Key) : (l.handle k).1.Valid := by
  rcases handle_cases l k with heq | ⟨i, heq⟩ | heq <;> rw [heq]
  · exact h
  · exact h.moveTo i
  · exact h.editFilter k

@[simp] theorem items_handle (l : PickList α) (k : Key) : (l.handle k).1.items = l.items := by
  rcases handle_cases l k with heq | ⟨i, heq⟩ | heq <;> rw [heq]
  · exact items_moveTo l i
  · exact items_editFilter l k

/-! ## §4. Filling again. -/

/-- The list filled again, under another heading and for one or several choices. -/
def refill (l : PickList α) (title : Text) (multi : Bool) (items : List (PickItem α)) :
    PickList α :=
  setItems { l with title, multi } items

theorem setItems_eq_refill (l : PickList α) (items : List (PickItem α)) :
    l.setItems items = l.refill l.title l.multi items := rfl

/-- Nothing that a key does to a list is left once the list is filled again. -/
theorem handle_make (l : PickList α) (k : Key) :
    (l.handle k).1.refill = l.refill ∧ (l.handle k).1.title = l.title ∧
      (l.handle k).1.multi = l.multi := by
  rcases handle_cases l k with heq | ⟨i, heq⟩ | heq <;> rw [heq]
  · exact ⟨rfl, rfl, rfl⟩
  · unfold moveTo
    split <;> exact ⟨rfl, rfl, rfl⟩
  · have hfilter : (l.filter.handle k).1.reset = l.filter.reset := TextInput.reset_handle _ _
    unfold editFilter
    dsimp only
    split <;> exact ⟨by unfold refill setItems; simp only [refilter, hfilter], rfl, rfl⟩

@[simp] theorem refill_handle (l : PickList α) (k : Key) : (l.handle k).1.refill = l.refill :=
  (handle_make l k).1

@[simp] theorem title_handle (l : PickList α) (k : Key) : (l.handle k).1.title = l.title :=
  (handle_make l k).2.1

@[simp] theorem multi_handle (l : PickList α) (k : Key) : (l.handle k).1.multi = l.multi :=
  (handle_make l k).2.2

@[simp] theorem setItems_handle (l : PickList α) (k : Key) (items : List (PickItem α)) :
    (l.handle k).1.setItems items = l.setItems items := by
  rw [setItems_eq_refill, setItems_eq_refill, refill_handle, title_handle, multi_handle]

@[simp] theorem refill_toggleMark [BEq α] (l : PickList α) : l.toggleMark.refill = l.refill := by
  unfold PickList.toggleMark
  split <;> rfl

end EncodedQuery.PickList

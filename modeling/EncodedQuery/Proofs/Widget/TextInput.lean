/-
  EncodedQuery.Proofs.Widget.TextInput
  ────────────────────────────────────
  **A LINE THAT IS EMPTIED IS A NEW LINE.**

  Typing changes the text and the cursor of a line, never its limit or what it
  shows while it is empty.  An emptied line is therefore the same whatever was
  typed before.  What is typed at its end is appended, as long as there is no
  limit.

  Main results: `cleared_handle`, `handle_setValue`.
-/
import EncodedQuery.Widget.TextInput

namespace EncodedQuery.TextInput

/-- The line emptied, with what it shows then. -/
def cleared (i : TextInput) (placeholder : Text) : TextInput := reset { i with placeholder }

theorem reset_eq_cleared (i : TextInput) : i.reset = i.cleared i.placeholder := rfl

/-- A key changes the text and the cursor alone. -/
theorem handle_eq (i : TextInput) (k : Key) :
    ∃ value cursor, (i.handle k).1 = { i with value, cursor } := by
  unfold handle
  cases hedit : i.edit? k with
  | none => exact ⟨i.value, i.cursor, rfl⟩
  | some i' =>
      dsimp only
      unfold edit? at hedit
      split at hedit
      case h_8 =>
        obtain ⟨c, _, rfl⟩ := Option.map_eq_some_iff.mp hedit
        unfold insert
        split <;> exact ⟨_, _, rfl⟩
      all_goals
        cases hedit
        first
        | exact ⟨_, _, rfl⟩
        | split <;> exact ⟨_, _, rfl⟩

@[simp] theorem placeholder_handle (i : TextInput) (k : Key) :
    (i.handle k).1.placeholder = i.placeholder := by
  obtain ⟨value, cursor, heq⟩ := handle_eq i k
  rw [heq]

/-- **What was typed does not matter once the line is emptied.** -/
@[simp] theorem cleared_handle (i : TextInput) (k : Key) : (i.handle k).1.cleared = i.cleared := by
  obtain ⟨value, cursor, heq⟩ := handle_eq i k
  rw [heq]
  rfl

@[simp] theorem reset_handle (i : TextInput) (k : Key) : (i.handle k).1.reset = i.reset := by
  rw [reset_eq_cleared, reset_eq_cleared, cleared_handle, placeholder_handle]

/-- Without a limit nothing is cut from a text that is set. -/
theorem value_setValue {i : TextInput} (hlimit : i.limit = 0) (t : Text) :
    (i.setValue t).value = t := if_pos hlimit

/-- **A character typed at the end of a line without a limit is appended.** -/
theorem handle_setValue {i : TextInput} (hlimit : i.limit = 0) (t : Text) {c : CodePoint}
    (hc : Text.isPrintable c = true) :
    ((i.setValue t).handle (.char c)).1 = i.setValue (t ++ [c]) := by
  have hedit : (i.setValue t).edit? (.char c) = some ((i.setValue t).insert c) := by
    show (Key.char c).typed?.map _ = _
    rw [show (Key.char c).typed? = some c from if_pos hc]
    rfl
  rw [handle, hedit]
  simp [insert, setValue, clipped, hlimit]

end EncodedQuery.TextInput

/-
  EncodedQuery.Proofs.Widget.Parted
  ─────────────────────────────────
  **A LINE IS A TEXT PARTED AT ITS CURSOR.**

  A line holds a text and a number, and a key cuts the text at that number and
  puts it together again.  `Parted` is the same line without the number: the text
  before the cursor and the text behind it.  There an edit touches what stands
  next to the cursor, and nothing is counted but the room that a limit leaves.

  A line whose cursor lies in its text holds a parted text (`holding`).  A key
  leaves a line of the same form, with the parted text after its edit, and so do
  all calls from a new line on.  What is claimed of lines is therefore proved of
  parted texts.

  Main results:
    • `edit?_holding` — a key does to a line what its edit does to the parted text,
    • `calls_holding` — so do all calls,
    • `parted_calls` — the text of a line, cut at the cursor, is the parted text
      after the edits; with the bounds of cursor and length, and the way back
      from a character that is typed.
-/
import EncodedQuery.Widget.TextInput
import Mathlib.Data.List.Basic

namespace EncodedQuery

/-- A text with a cursor in it. -/
structure Parted where
  /-- The text before the cursor. -/
  before : Text
  /-- The text behind the cursor. -/
  behind : Text
  deriving DecidableEq, Repr

namespace Parted

/-! ## §1. Edits. -/

/-- What is done to a text at its cursor. -/
inductive Edit where
  /-- A character is put in front of the cursor. -/
  | insert (c : CodePoint)
  /-- The character before the cursor is taken away. -/
  | deleteLeft
  /-- The character behind the cursor is taken away. -/
  | deleteRight
  /-- The cursor passes the character before it. -/
  | left
  /-- The cursor passes the character behind it. -/
  | right
  /-- The cursor goes to the start. -/
  | home
  /-- The cursor goes to the end. -/
  | «end»
  /-- The text is taken away. -/
  | clear
  /-- Another text takes its place, with the cursor at the end. -/
  | replace (t : Text)
  deriving DecidableEq, Repr

/-- The edit that a key stands for. -/
def Edit.ofKey? : Key → Option Edit
  | .backspace => some deleteLeft
  | .delete => some deleteRight
  | .left => some left
  | .right => some right
  | .home => some home
  | .end => some «end»
  | .ctrl 'u' => some clear
  | k => k.typed?.map insert

/-- The text on both sides of the cursor. -/
def text (p : Parted) : Text := p.before ++ p.behind

/-- The limit leaves room for another character; a limit of zero is none. -/
def HasRoom (limit : Nat) (p : Parted) : Prop := limit = 0 ∨ p.text.length < limit

instance (limit : Nat) (p : Parted) : Decidable (p.HasRoom limit) :=
  inferInstanceAs (Decidable (limit = 0 ∨ p.text.length < limit))

/-- As much of a text as the limit lets in, with the cursor at the end. -/
def ofText (limit : Nat) (t : Text) : Parted :=
  { before := if limit = 0 then t else t.take limit, behind := [] }

/-- The parted text after an edit. -/
def edit (limit : Nat) (p : Parted) : Edit → Parted
  | .insert c => if p.HasRoom limit then { p with before := p.before ++ [c] } else p
  | .deleteLeft => { p with before := p.before.dropLast }
  | .deleteRight => { p with behind := p.behind.tail }
  | .left =>
      match p.before.getLast? with
      | some c => { before := p.before.dropLast, behind := c :: p.behind }
      | none => p
  | .right =>
      match p.behind with
      | c :: rest => { before := p.before ++ [c], behind := rest }
      | [] => p
  | .home => { before := [], behind := p.text }
  | .end => { before := p.text, behind := [] }
  | .clear => { before := [], behind := [] }
  | .replace t => ofText limit t

/-- The parted text after a row of edits. -/
def edits (limit : Nat) (p : Parted) (es : List Edit) : Parted := es.foldl (edit limit) p

/-! ## §2. Both sides of the cursor. -/

section
variable {limit : Nat} {p : Parted}

theorem length_text (p : Parted) : p.text.length = p.before.length + p.behind.length :=
  List.length_append

theorem take_text : p.text.take p.before.length = p.before := List.take_left

theorem drop_text : p.text.drop p.before.length = p.behind := List.drop_left

theorem take_text_pred : p.text.take (p.before.length - 1) = p.before.dropLast := by
  rw [text, List.take_append_of_le_length (Nat.sub_le _ _), List.dropLast_eq_take]

theorem drop_text_succ : p.text.drop (p.before.length + 1) = p.behind.tail := by
  rw [← List.drop_drop, drop_text, List.drop_one]

theorem edit_deleteLeft_of_nil (h : p.before = []) : p.edit limit .deleteLeft = p := by
  rw [edit, h, List.dropLast_nil, ← h]

theorem edit_left_of_nil (h : p.before = []) : p.edit limit .left = p := by
  simp only [edit, h, List.getLast?_nil]

theorem edit_left_of_concat {front : Text} {c : CodePoint} (h : p.before = front ++ [c]) :
    p.edit limit .left = { before := front, behind := c :: p.behind } := by
  simp only [edit, h, List.getLast?_concat, List.dropLast_concat]

/-- The cursor moves through the text, which stays as it is. -/
theorem text_edit_left : (p.edit limit .left).text = p.text := by
  rcases List.eq_nil_or_concat' p.before with hnil | ⟨front, c, hconcat⟩
  · rw [edit_left_of_nil hnil]
  · rw [edit_left_of_concat hconcat, text, text, hconcat, List.append_assoc]
    rfl

theorem text_edit_right : (p.edit limit .right).text = p.text := by
  cases hbehind : p.behind with
  | nil => simp only [edit, hbehind]
  | cons c rest =>
      simp only [edit, hbehind, text]
      rw [List.append_assoc]
      rfl

theorem length_before_edit_left :
    (p.edit limit .left).before.length = p.before.length - 1 := by
  rcases List.eq_nil_or_concat' p.before with hnil | ⟨front, c, hconcat⟩
  · rw [edit_left_of_nil hnil, hnil]
    rfl
  · rw [edit_left_of_concat hconcat, hconcat, List.length_append]
    rfl

/-- The cursor moves to the right unless it is at the end. -/
theorem length_before_edit_right :
    (p.edit limit .right).before.length = min p.text.length (p.before.length + 1) := by
  rw [length_text]
  cases hbehind : p.behind with
  | nil =>
      simp only [edit, hbehind, List.length_nil]
      omega
  | cons c rest =>
      simp only [edit, hbehind, List.length_append, List.length_cons, List.length_nil]
      omega

/-- What a character does that is typed: it is put in if it can be shown and has room. -/
theorem elim_ofKey?_char (c : CodePoint) :
    (Edit.ofKey? (.char c)).elim p (p.edit limit)
      = if Text.isPrintable c = true ∧ p.HasRoom limit then { p with before := p.before ++ [c] }
        else p := by
  show (((if Text.isPrintable c then some c else none).map Edit.insert).elim p (p.edit limit)) = _
  by_cases hshown : Text.isPrintable c = true
  · rw [if_pos hshown]
    simp only [hshown, true_and]
    rfl
  · rw [if_neg hshown, if_neg (fun h => hshown h.1)]
    rfl

/-! ## §3. The limit. -/

theorem ofText_nil : ofText limit [] = { before := [], behind := [] } := by
  rw [ofText, List.take_nil, ite_self]

/-- The text is no longer than a limit allows. -/
def Fits (limit : Nat) (p : Parted) : Prop := 0 < limit → p.text.length ≤ limit

theorem fits_ofText (t : Text) : (ofText limit t).Fits limit := by
  intro hpos
  rw [length_text, ofText, if_neg (Nat.pos_iff_ne_zero.mp hpos)]
  exact List.length_take_le limit t

/-- **No edit makes the text longer than the limit.** -/
theorem Fits.edit (h : p.Fits limit) (e : Edit) : (p.edit limit e).Fits limit := by
  intro hpos
  -- apart from a character and another text, an edit leaves what is part of the old text
  have hshrink {q : Parted} (hq : q.text.Sublist p.text) : q.text.length ≤ limit :=
    Nat.le_trans hq.length_le (h hpos)
  cases e with
  | insert c =>
      by_cases hroom : p.HasRoom limit
      · have hlt : p.text.length < limit := hroom.resolve_left (Nat.pos_iff_ne_zero.mp hpos)
        rw [length_text] at hlt ⊢
        simp only [Parted.edit, if_pos hroom, List.length_append, List.length_singleton]
        omega
      · rw [Parted.edit, if_neg hroom]
        exact h hpos
  | deleteLeft => exact hshrink ((List.dropLast_sublist _).append_right _)
  | deleteRight => exact hshrink ((List.tail_sublist _).append_left _)
  | left =>
      rw [text_edit_left]
      exact h hpos
  | right =>
      rw [text_edit_right]
      exact h hpos
  | home => exact h hpos
  | «end» => exact hshrink (by rw [text, Parted.edit, List.append_nil])
  | clear => exact hshrink (List.nil_sublist _)
  | replace t => exact fits_ofText t hpos

theorem Fits.edits (es : List Edit) :
    ∀ {p : Parted}, p.Fits limit → (p.edits limit es).Fits limit := by
  induction es with
  | nil =>
      intro p h
      exact h
  | cons e rest ih =>
      intro p h
      exact ih (h.edit e)

end

end Parted

/-! ## §4. Lines that hold a parted text. -/

namespace TextInput

open Parted (Edit)

/-- The text of the line, cut at the cursor. -/
def parted (i : TextInput) : Parted :=
  { before := i.value.take i.cursor, behind := i.value.drop i.cursor }

/-- The line with a parted text in it. -/
def holding (i : TextInput) (p : Parted) : TextInput :=
  { i with value := p.text, cursor := p.before.length }

theorem parted_holding (i : TextInput) (p : Parted) : (i.holding p).parted = p := by
  show Parted.mk (p.text.take p.before.length) (p.text.drop p.before.length) = p
  rw [Parted.take_text, Parted.drop_text]

theorem holding_inj {i : TextInput} {p q : Parted} (h : i.holding p = i.holding q) : p = q := by
  rw [← parted_holding i p, h, parted_holding]

theorem eq_holding {i : TextInput} {p : Parted} {value : Text} {cursor : Nat}
    (hvalue : value = p.text) (hcursor : cursor = p.before.length) :
    { i with value, cursor } = i.holding p := by
  rw [hvalue, hcursor]
  rfl

section
variable {i : TextInput} {limit : Nat} (hlimit : i.limit = limit)
include hlimit

theorem clipped_eq (t : Text) : i.clipped t = (Parted.ofText limit t).before := by
  rw [clipped, hlimit, Parted.ofText]
  by_cases hzero : limit = 0
  · rw [if_pos hzero, if_pos (Int.natCast_eq_zero.mpr hzero)]
  · rw [if_neg hzero, if_neg (mt Int.natCast_eq_zero.mp hzero), firstItems,
      if_pos (Int.natCast_nonneg limit), Int.toNat_natCast]

theorem setValue_eq (t : Text) : i.setValue t = i.holding (Parted.ofText limit t) := by
  apply eq_holding
  · rw [clipped_eq hlimit]
    exact (List.append_nil _).symm
  · rw [clipped_eq hlimit]

theorem insert_holding (p : Parted) (c : CodePoint) :
    (i.holding p).insert c = i.holding (p.edit limit (.insert c)) := by
  have hfull : (i.limit ≠ 0 ∧ i.limit ≤ p.text.length) ↔ ¬ p.HasRoom limit := by
    rw [hlimit, Parted.HasRoom]
    omega
  show (if i.limit ≠ 0 ∧ i.limit ≤ p.text.length then i.holding p else _) = _
  by_cases hroom : p.HasRoom limit
  · rw [if_neg (mt hfull.mp (not_not_intro hroom)), Parted.edit, if_pos hroom]
    apply eq_holding
    · show p.text.take p.before.length ++ [c] ++ p.text.drop p.before.length = _
      rw [Parted.take_text, Parted.drop_text]
      rfl
    · show p.before.length + 1 = (p.before ++ [c]).length
      rw [List.length_append, List.length_singleton]
  · rw [if_pos (hfull.mpr hroom), Parted.edit, if_neg hroom]

/-- **ONE KEY.**  A key does to a line what its edit does to the parted text. -/
theorem edit?_holding (p : Parted) (k : Key) :
    (i.holding p).edit? k = (Edit.ofKey? k).map (fun e => i.holding (p.edit limit e)) := by
  cases k with
  | backspace =>
      apply congrArg some
      show (if p.before.length = 0 then i.holding p else _) = i.holding (p.edit limit .deleteLeft)
      split
      -- at the start there is nothing to take away
      next hzero => rw [Parted.edit_deleteLeft_of_nil (List.length_eq_zero_iff.mp hzero)]
      next =>
        apply eq_holding
        · show p.text.take (p.before.length - 1) ++ p.text.drop p.before.length = _
          rw [Parted.take_text_pred, Parted.drop_text]
          rfl
        · exact List.length_dropLast.symm
  | delete =>
      apply congrArg some
      apply eq_holding
      · show p.text.take p.before.length ++ p.text.drop (p.before.length + 1) = _
        rw [Parted.take_text, Parted.drop_text_succ]
        rfl
      · rfl
  | left =>
      exact congrArg some
        (eq_holding Parted.text_edit_left.symm Parted.length_before_edit_left.symm)
  | right =>
      exact congrArg some
        (eq_holding Parted.text_edit_right.symm Parted.length_before_edit_right.symm)
  | home => exact congrArg some (eq_holding rfl rfl)
  | «end» => exact congrArg some (eq_holding (List.append_nil _).symm rfl)
  | ctrl c =>
      by_cases hu : c = 'u'
      · subst hu
        apply congrArg some
        show (i.holding p).setValue [] = i.holding { before := [], behind := [] }
        rw [setValue_eq (i := i.holding p) hlimit, Parted.ofText_nil]
        rfl
      · -- no other letter with control types anything
        simp [edit?, Edit.ofKey?, Key.typed?, hu]
  | char c =>
      show (Key.char c).typed?.map (i.holding p).insert
        = ((Key.char c).typed?.map Edit.insert).map _
      rw [Option.map_map]
      congr 1
      funext d
      exact insert_holding hlimit p d
  | enter | esc | tab | shiftTab | up | down | pageUp | pageDown | other => rfl

theorem handle_holding (p : Parted) (k : Key) :
    (i.holding p).handle k
      = (i.holding ((Edit.ofKey? k).elim p (p.edit limit)), (Edit.ofKey? k).isSome) := by
  rw [handle, edit?_holding hlimit]
  cases Edit.ofKey? k <;> rfl

end

/-! ## §5. Calls. -/

/-- What is done to a line. -/
inductive Call where
  /-- A key is pressed. -/
  | key (k : Key)
  /-- The line gets another text. -/
  | set (t : Text)

/-- The line after a call. -/
def call (i : TextInput) : Call → TextInput
  | .key k => (i.handle k).1
  | .set t => i.setValue t

/-- The line after a row of calls. -/
def calls (i : TextInput) (cs : List Call) : TextInput := cs.foldl call i

/-- The edit that a call stands for. -/
def Call.edit? : Call → Option Edit
  | .key k => Edit.ofKey? k
  | .set t => some (.replace t)

section
variable {i : TextInput} {limit : Nat} (hlimit : i.limit = limit)
include hlimit

theorem call_holding (p : Parted) (c : Call) :
    (i.holding p).call c = i.holding (c.edit?.elim p (p.edit limit)) := by
  cases c with
  | key k =>
      show ((i.holding p).handle k).1 = _
      rw [handle_holding hlimit]
      rfl
  | set t => exact setValue_eq (i := i.holding p) hlimit t

/-- **ALL CALLS.**  They do to a line what their edits do to the parted text. -/
theorem calls_holding (cs : List Call) :
    ∀ p : Parted, (i.holding p).calls cs = i.holding (p.edits limit (cs.filterMap Call.edit?)) := by
  induction cs with
  | nil =>
      intro p
      rfl
  | cons c rest ih =>
      intro p
      show ((i.holding p).call c).calls rest = _
      rw [call_holding hlimit, ih, List.filterMap_cons]
      cases c.edit? <;> rfl

/-- A character changes the line exactly if it can be shown and has room, and then the key that
deletes to the left brings the old line back. -/
theorem typed_holding (p : Parted) (c : CodePoint) :
    (((i.holding p).handle (.char c)).1 ≠ i.holding p ↔
        Text.isPrintable c = true ∧ p.HasRoom limit) ∧
      (((i.holding p).handle (.char c)).1 ≠ i.holding p →
        (((i.holding p).handle (.char c)).1.handle .backspace).1 = i.holding p) := by
  have htyped : ((i.holding p).handle (.char c)).1
      = i.holding ((Edit.ofKey? (.char c)).elim p (p.edit limit)) := by
    rw [handle_holding hlimit]
  rw [htyped, Parted.elim_ofKey?_char]
  by_cases hput : Text.isPrintable c = true ∧ p.HasRoom limit
  · rw [if_pos hput]
    refine ⟨iff_of_true ?_ hput, fun _ => ?_⟩
    · intro heq
      have hbefore : p.before ++ [c] = p.before := congrArg Parted.before (holding_inj heq)
      exact List.cons_ne_nil c []
        (List.append_cancel_left (hbefore.trans (List.append_nil p.before).symm))
    · rw [handle_holding hlimit]
      show i.holding { p with before := (p.before ++ [c]).dropLast } = i.holding p
      rw [List.dropLast_concat]
  · rw [if_neg hput]
    exact ⟨iff_of_false (not_not_intro rfl) hput, fun hne => absurd rfl hne⟩

end

/-- **A LINE IS ITS TEXT PARTED AT THE CURSOR.**  After any calls on a new line, the text cut at the
cursor is what the edits of these calls leave of the text that the line began with.  The cursor lies
in the text, and the text is no longer than the limit.  Exactly the keys that stand for an edit are
keys for the line.  A character is put in if it can be shown and has room, and then the next key can
take it back, which leaves the line as it was. -/
theorem parted_calls (placeholder value : Text) (limit : Nat) (cs : List Call) :
    let i := (new placeholder value limit).calls cs
    i.parted = (Parted.ofText limit value).edits limit (cs.filterMap Call.edit?) ∧
      i.cursor ≤ i.value.length ∧
      (0 < limit → i.value.length ≤ limit) ∧
      (∀ k, (i.handle k).2 = (Edit.ofKey? k).isSome) ∧
      ∀ c, ((i.handle (.char c)).1 ≠ i ↔
          Text.isPrintable c = true ∧ (limit = 0 ∨ i.value.length < limit)) ∧
        ((i.handle (.char c)).1 ≠ i → ((i.handle (.char c)).1.handle .backspace).1 = i) := by
  intro i
  let line : TextInput := { placeholder, limit }
  generalize hp : (Parted.ofText limit value).edits limit (cs.filterMap Call.edit?) = p
  -- the placeholder and the limit are all that the line keeps of its own
  have hi : i = line.holding p := by
    show ((line.setValue value).calls cs) = _
    rw [setValue_eq (i := line) rfl, calls_holding (i := line) rfl, hp]
  have hfits : p.Fits limit := hp ▸ (Parted.fits_ofText value).edits _
  rw [hi]
  refine ⟨parted_holding line p, ?_, hfits, ?_, ?_⟩
  · show p.before.length ≤ p.text.length
    rw [Parted.length_text]
    exact Nat.le_add_right _ _
  · intro k
    rw [handle_holding (i := line) rfl]
  · exact typed_holding (i := line) rfl p

/-- A limit of two: the third character finds no room, but the text can still be taken apart. -/
example :
    let typed := (new [] [] 2).calls [.key (.char 'a'), .key (.char 'b'), .key (.char 'c')]
    typed.value = ("ab" : Text) ∧
      (typed.calls [.key .left, .key .backspace, .key (.char 'x')]).parted
        = { before := ("x" : Text), behind := ("b" : Text) } := by decide

end TextInput

end EncodedQuery

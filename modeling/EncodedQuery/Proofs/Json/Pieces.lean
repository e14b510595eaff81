/-
  EncodedQuery.Proofs.Json.Pieces
  ───────────────────────────────
  **WHICH DOCUMENTS ARE WRITTEN.**

  A document is written piece by piece, and its pieces in a row are its text.
  All of them are written exactly when the document is `Writable`: its texts are
  of characters, and its whole numbers are not too long.

  Main results: `unwritable?_eq_none_iff`, `Writable.front_eq`.
-/
import EncodedQuery.Json.Writer
import Mathlib.Data.List.TakeWhile

namespace EncodedQuery.Json

/-! ## §1. The text of the pieces. -/

/-- A scalar comes in one piece. -/
theorem exists_pieces_eq {v : Json} (h : v.isContainer = false) (depth : Nat) :
    ∃ p, pieces depth v = [p] := by
  cases v with
  | list | object => cases h
  | null | bool | int | real | text => exact ⟨_, by rw [pieces]⟩

/-- What leads to an item stands in front of it. -/
theorem text_leadTo (lead : Text) (v : Json) (depth : Nat) :
    (leadTo lead v.isContainer (pieces depth v)).flatMap Piece.text =
      lead ++ (pieces depth v).flatMap Piece.text := by
  cases hv : v.isContainer with
  | true => simp [leadTo]
  | false =>
      obtain ⟨p, hp⟩ := exists_pieces_eq hv depth
      simp [leadTo, hp]

mutual
/-- **The pieces of a value in a row are its text.** -/
theorem text_pieces (depth : Nat) : ∀ v : Json,
    (pieces depth v).flatMap Piece.text = indented depth v
  | .list [] | .object [] | .null | .bool _ | .int _ | .real _ | .text _ => by
      simp only [pieces, indented, List.flatMap_singleton, textPiece, intPiece]
  | .list (v :: rest) => by
      have hitems := text_itemPieces (depth + 1) "[" (v :: rest) (by simp)
      rw [pieces, List.flatMap_append, hitems, indented]
      simp
  | .object (m :: rest) => by
      have hmembers := text_memberPieces (depth + 1) [] (m :: rest) (by simp)
      rw [List.nil_append, List.nil_append] at hmembers
      rw [pieces, List.flatMap_append, List.flatMap_cons, hmembers, indented]
      simp

theorem text_itemPieces (depth : Nat) (lead : Text) : ∀ items : List Json, items ≠ [] →
    (itemPieces depth (lead ++ lineBreak depth) items).flatMap Piece.text =
      lead ++ indentedItems depth items
  | [], h => absurd rfl h
  | [v], _ => by
      rw [itemPieces, List.flatMap_append, text_leadTo, text_pieces depth v, itemPieces,
        indentedItems]
      simp
  | v :: w :: rest, _ => by
      -- the comma behind an item leads to the next one
      have hrest := text_itemPieces depth "," (w :: rest) (by simp)
      have hform : indentedItems depth (v :: w :: rest) =
          lineBreak depth ++ indented depth v ++ "," ++ indentedItems depth (w :: rest) := by
        rw [indentedItems]
        nofun
      rw [itemPieces, List.flatMap_append, text_leadTo, text_pieces depth v, hrest, hform]
      simp

theorem text_memberPieces (depth : Nat) (lead : Text) : ∀ members : List (Text × Json),
    members ≠ [] →
    (memberPieces depth (lead ++ lineBreak depth) members).flatMap Piece.text =
      lead ++ indentedMembers depth members
  | [], h => absurd rfl h
  | [(name, v)], _ => by
      rw [memberPieces, List.flatMap_append, List.flatMap_cons, List.flatMap_cons,
        List.flatMap_cons, text_pieces depth v, memberPieces, indentedMembers]
      simp [textPiece]
  | (name, v) :: w :: rest, _ => by
      have hrest := text_memberPieces depth "," (w :: rest) (by simp)
      have hform : indentedMembers depth ((name, v) :: w :: rest) =
          lineBreak depth ++ writtenText name ++ ": " ++ indented depth v ++ "," ++
            indentedMembers depth (w :: rest) := by
        rw [indentedMembers]
        nofun
      rw [memberPieces, List.flatMap_append, List.flatMap_cons, List.flatMap_cons,
        List.flatMap_cons, text_pieces depth v, hrest, hform]
      simp [textPiece]
end

/-! ## §2. Documents that are written. -/

/-- All texts of the value are of characters, and its whole numbers are not too long. -/
inductive Writable : Json → Prop
  /-- The absent value. -/
  | null : Writable null
  /-- A truth value. -/
  | bool {b} : Writable (bool b)
  /-- A whole number that is not too long. -/
  | int {n} (h : Number.isWritable n = true) : Writable (int n)
  /-- A double. -/
  | real {x} : Writable (real x)
  /-- A string of characters. -/
  | text {t : Text} (h : t.isEncodable = true) : Writable (text t)
  /-- An array of such values. -/
  | list {items} (h : ∀ v ∈ items, Writable v) : Writable (list items)
  /-- An object of such values under names of characters. -/
  | object {members : List (Text × Json)} (hnames : ∀ m ∈ members, Text.isEncodable m.1 = true)
      (h : ∀ m ∈ members, Writable m.2) : Writable (object members)

theorem writable_int_iff {n : Int} : Writable (int n) ↔ Number.isWritable n = true :=
  ⟨fun h => by cases h; assumption, .int⟩

theorem writable_text_iff {t : Text} : Writable (text t) ↔ t.isEncodable = true :=
  ⟨fun h => by cases h; assumption, .text⟩

theorem writable_list_iff {items : List Json} :
    Writable (list items) ↔ ∀ v ∈ items, Writable v :=
  ⟨fun h => by cases h; assumption, .list⟩

theorem writable_object_iff {members : List (Text × Json)} :
    Writable (object members) ↔ ∀ m ∈ members, Text.isEncodable m.1 = true ∧ Writable m.2 := by
  refine ⟨fun h => ?_, fun h => .object (fun m hm => (h m hm).1) fun m hm => (h m hm).2⟩
  cases h with
  | object hnames h => exact fun m hm => ⟨hnames m hm, h m hm⟩

/-- All of the pieces are written. -/
def AllWritten (ps : List Piece) : Prop := ∀ p ∈ ps, p.fault? = none

@[simp] theorem allWritten_nil : AllWritten [] := nofun

@[simp] theorem allWritten_cons {p : Piece} {ps : List Piece} :
    AllWritten (p :: ps) ↔ p.fault? = none ∧ AllWritten ps := List.forall_mem_cons

@[simp] theorem allWritten_append {ps qs : List Piece} :
    AllWritten (ps ++ qs) ↔ AllWritten ps ∧ AllWritten qs := List.forall_mem_append

@[simp] theorem textPiece_fault?_eq_none_iff {t : Text} :
    (textPiece t).fault? = none ↔ t.isEncodable = true := by
  simp [textPiece]

@[simp] theorem intPiece_fault?_eq_none_iff {n : Int} :
    (intPiece n).fault? = none ↔ Number.isWritable n = true := by
  simp [intPiece]

@[simp] theorem allWritten_leadTo {lead : Text} {isContainer : Bool} {ps : List Piece} :
    AllWritten (leadTo lead isContainer ps) ↔ AllWritten ps := by
  cases isContainer <;> simp [leadTo, AllWritten]

mutual
/-- **All pieces of a value are written** exactly if it is writable. -/
theorem allWritten_pieces (depth : Nat) : ∀ v : Json, AllWritten (pieces depth v) ↔ Writable v
  | .null => by simp [pieces, Writable.null]
  | .bool _ => by
      rw [pieces]
      exact iff_of_true (allWritten_cons.mpr ⟨rfl, allWritten_nil⟩) .bool
  | .real _ => by simp [pieces, Writable.real]
  | .int n => by simp [pieces, writable_int_iff]
  | .text t => by simp [pieces, writable_text_iff]
  | .list [] => by simp [pieces, writable_list_iff]
  | .object [] => by simp [pieces, writable_object_iff]
  | .list (v :: rest) => by
      have hitems := allWritten_itemPieces (depth + 1) ("[" ++ lineBreak (depth + 1)) (v :: rest)
      rw [pieces, allWritten_append, hitems, writable_list_iff]
      simp
  | .object (m :: rest) => by
      have hmembers := allWritten_memberPieces (depth + 1) (lineBreak (depth + 1)) (m :: rest)
      rw [pieces, allWritten_append, allWritten_cons, hmembers, writable_object_iff]
      simp

theorem allWritten_itemPieces (depth : Nat) (lead : Text) : ∀ items : List Json,
    AllWritten (itemPieces depth lead items) ↔ ∀ v ∈ items, Writable v
  | [] => by simp [itemPieces]
  | v :: rest => by
      rw [itemPieces, allWritten_append, allWritten_leadTo, allWritten_pieces depth v,
        allWritten_itemPieces depth _ rest, List.forall_mem_cons]

theorem allWritten_memberPieces (depth : Nat) (lead : Text) : ∀ members : List (Text × Json),
    AllWritten (memberPieces depth lead members) ↔
      ∀ m ∈ members, Text.isEncodable m.1 = true ∧ Writable m.2
  | [] => by simp [memberPieces]
  | (name, v) :: rest => by
      simp only [memberPieces, List.cons_append, allWritten_cons, allWritten_append,
        textPiece_fault?_eq_none_iff, allWritten_pieces depth v,
        allWritten_memberPieces depth _ rest, List.forall_mem_cons, true_and, and_assoc]
end

/-- **A document is written** exactly if its texts are of characters and its whole numbers are not
too long. -/
theorem unwritable?_eq_none_iff {v : Json} : v.unwritable? = none ↔ Writable v := by
  rw [unwritable?, List.findSome?_eq_none_iff, ← allWritten_pieces 0 v, AllWritten]

/-- Then all of it is in the file. -/
theorem Writable.front_eq {v : Json} (h : Writable v) : v.front = v.indented 0 := by
  have hall : ∀ p ∈ pieces 0 v, p.fault?.isNone = true := fun p hp => by
    rw [(allWritten_pieces 0 v).mpr h p hp]
    rfl
  rw [front, List.takeWhile_eq_self_iff.mpr hall, text_pieces]

end EncodedQuery.Json

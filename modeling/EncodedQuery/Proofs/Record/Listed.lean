/-
  EncodedQuery.Proofs.Record.Listed
  ─────────────────────────────────
  **LISTS OF VALUES.**

  A list of values is one text: the values with commas between them, and blanks
  around a value do not count.  Nothing stands for a comma in a value or for a
  blank at its end, so there are texts that no list has among its values.  A list
  of other texts is read as it was written.

  Main results:
    • `listed_join_iff` — which lists are read as they were written,
    • `finds_listed_iff` — which lists find the records with one of their values.
-/
import EncodedQuery.Proofs.Text.Pieces
import EncodedQuery.Record.Match

namespace EncodedQuery

namespace Text

/-! ## §1. Texts that can be listed. -/

/-- The text can be a value of a list. -/
structure Listable (t : Text) : Prop where
  /-- It holds no comma. -/
  comma : .char ',' ∉ t
  /-- Neither end of it is blank. -/
  bare : strip t = t

theorem listable_iff {t : Text} : Listable t ↔ .char ',' ∉ t ∧ strip t = t :=
  ⟨fun h => ⟨h.comma, h.bare⟩, fun h => ⟨h.1, h.2⟩⟩

instance (t : Text) : Decidable (Listable t) := decidable_of_iff _ listable_iff.symm

theorem Listable.trim {t : Text} (h : Listable t) : Trim t := h.bare ▸ trim_strip t

/-- Without a comma a text can be listed once it is stripped. -/
theorem listable_strip {t : Text} (h : .char ',' ∉ t) : Listable (strip t) where
  comma := by
    intro hmem
    obtain ⟨before, behind, heq, _, _⟩ := exists_strip t
    apply h
    rw [heq]
    exact List.mem_append_right _ (List.mem_append_left _ hmem)
  bare := strip_eq_self (trim_strip t)

/-! ## §2. Lists as texts. -/

variable {values : List Text}

@[simp] theorem join_singleton (v : Text) : join "," [v] = v := List.append_nil v

@[simp] theorem join_cons_cons (v w : Text) (rest : List Text) :
    join "," (v :: w :: rest) = v ++ .char ',' :: join "," (w :: rest) := by
  show List.intercalate _ _ = _
  rw [List.intercalate_cons_cons, List.append_assoc]
  rfl

/-- The characters of every value stand in the list. -/
theorem mem_join_of_mem {v : Text} (hv : v ∈ values) {c : CodePoint} (hc : c ∈ v) :
    c ∈ join "," values := by
  induction values with
  | nil => cases hv
  | cons w rest ih =>
      cases rest with
      | nil =>
          rw [join_singleton, ← List.mem_singleton.mp hv]
          exact hc
      | cons x rest =>
          rw [join_cons_cons]
          rcases List.mem_cons.mp hv with rfl | hv
          · exact List.mem_append_left _ hc
          · exact List.mem_append_right _ (List.mem_cons_of_mem _ (ih hv))

/-- Two texts without blanks at their ends and a comma between them have no blank at their ends. -/
theorem Trim.comma_append {s t : Text} (hs : Trim s) (ht : Trim t) :
    Trim (s ++ .char ',' :: t) where
  head := by
    intro c hc
    cases s with
    | nil =>
        cases hc
        rfl
    | cons x rest => exact hs.head c hc
  last := by
    intro c hc
    cases t with
    | nil =>
        rw [List.getLast?_append] at hc
        cases hc
        rfl
    | cons x rest =>
        rw [List.getLast?_append, List.getLast?_cons_cons] at hc
        apply ht.last c
        cases hlast : (x :: rest).getLast? with
        | none => exact absurd (List.getLast?_eq_none_iff.mp hlast) (List.cons_ne_nil _ _)
        | some last =>
            rw [hlast] at hc
            exact hc

/-- So a list of such texts has none either. -/
theorem trim_join (h : ∀ v ∈ values, Trim v) : Trim (join "," values) := by
  induction values with
  | nil => exact ⟨nofun, nofun⟩
  | cons v rest ih =>
      cases rest with
      | nil =>
          rw [join_singleton]
          exact h v List.mem_cons_self
      | cons w rest =>
          rw [join_cons_cons]
          have hrest := ih fun u hu => h u (List.mem_cons_of_mem v hu)
          exact (h v List.mem_cons_self).comma_append hrest

end Text

namespace Record

variable {values : List Text}

/-- **What a list is read as can be listed**, whatever the text. -/
theorem listable_of_mem_listed {value v : Text} (h : v ∈ listed value) : v.Listable := by
  obtain ⟨p, hp, rfl⟩ := List.mem_map.mp h
  exact Text.listable_strip (Text.not_mem_of_mem_cut hp)

theorem listed_join (hne : values ≠ []) (h : ∀ v ∈ values, v.Listable) :
    listed (Text.join "," values) = values := by
  unfold listed
  have hcut : Text.cut ',' (Text.join "," values) = values :=
    Text.cut_join hne fun v hv => (h v hv).comma
  rw [hcut]
  exact (List.map_congr_left (fun v hv => (h v hv).bare)).trans (List.map_id values)

/-- **A list is read as it was written** exactly when all its values can be listed. -/
theorem listed_join_iff (hne : values ≠ []) :
    (∀ v, v ∈ listed (Text.join "," values) ↔ v ∈ values) ↔ ∀ v ∈ values, v.Listable := by
  constructor
  · intro h v hv
    exact listable_of_mem_listed ((h v).mpr hv)
  · intro h v
    rw [listed_join hne h]

/-! ## §3. Records with one of the values. -/

section
variable {r : Record} {field v value : Text} (h : Json.lookup? field r = some (.text v))
include h

/-- Of a plain text nothing else is stored, and nothing else shown. -/
theorem stored_of_text : r.stored field = v := by
  unfold stored
  rw [h]
  rfl

theorem shown_of_text : r.shown field = v := by
  unfold shown
  rw [h]
  rfl

/-- An operator for lists finds the text among the values, or finds that it is not. -/
theorem matchesTerm_list_iff {op : Operator} (hop : op.isListed = true) (join : Option Separator) :
    r.matchesTerm { join, field, operator := op, value } = true ↔
      if op = .notInList then v ∉ listed value else v ∈ listed value := by
  have hfound : (Text.isOneOf (r.stored field) (listed value) ||
      Text.isOneOf (r.shown field) (listed value)) = true ↔ v ∈ listed value := by
    rw [stored_of_text h, shown_of_text h, Bool.or_self, Text.isOneOf_iff]
  cases op with
  | inList => exact hfound
  | notInList =>
      show (!(Text.isOneOf (r.stored field) (listed value) ||
        Text.isOneOf (r.shown field) (listed value))) = true ↔ v ∉ listed value
      rw [Bool.not_eq_true', ← Bool.not_eq_true]
      exact not_congr hfound
  | _ => cases hop

end

/-- Of the records whose field is a plain text, the operator finds with `value` those whose text is
one of the values; as the operator of what is in no list it finds the others. -/
def Finds (op : Operator) (field value : Text) (values : List Text) : Prop :=
  ∀ (r : Record) (join : Option Separator) (v : Text), Json.lookup? field r = some (.text v) →
    (r.matchesTerm { join, field, operator := op, value } = true ↔
      if op = .notInList then v ∉ values else v ∈ values)

/-- The records are found for which the list has the right values. -/
theorem finds_iff {op : Operator} (hop : op.isListed = true) (field value : Text) :
    Finds op field value values ↔ ∀ v, v ∈ listed value ↔ v ∈ values := by
  have hsame : ∀ v, ((if op = .notInList then v ∉ listed value else v ∈ listed value) ↔
      if op = .notInList then v ∉ values else v ∈ values) ↔ (v ∈ listed value ↔ v ∈ values) := by
    intro v
    split
    · exact not_iff_not
    · exact Iff.rfl
  constructor
  · intro h v
    have hlookup : Json.lookup? field [(field, Json.text v)] = some (.text v) := by
      simp [Json.lookup?]
    have hrecord := h [(field, .text v)] none v hlookup
    rw [matchesTerm_list_iff hlookup hop] at hrecord
    exact (hsame v).mp hrecord
  · intro h r join v hv
    rw [matchesTerm_list_iff hv hop]
    exact (hsame v).mpr (h v)

/-- **A list finds the records with one of its values** exactly when all of them can be listed. -/
theorem finds_listed_iff {op : Operator} (hop : op.isListed = true) (field : Text)
    (hne : values ≠ []) :
    Finds op field (Text.join "," values) values ↔ ∀ v ∈ values, v.Listable :=
  (finds_iff hop field _).trans (listed_join_iff hne)

end Record

end EncodedQuery

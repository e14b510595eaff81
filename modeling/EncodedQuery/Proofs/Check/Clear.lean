/-
  EncodedQuery.Proofs.Check.Clear
  ───────────────────────────────
  **WHAT THE CHECK LETS PASS.**

  Only errors stand in the way of a condition; warnings do not.  For each part of
  the check one lemma says what it asks for, and together they say which
  conditions have no error.

  The check asks for a value, unless a start stands beside it.  It takes a start as
  an excuse for every operator, but only a range is written from its two ends; so
  a blank value can pass and be written.

  Main results:
    • `clear_valueIssues_iff`, `clear_condition_iff` — the conditions without errors,
    • `blank_iff_excused` — which of them are written with a blank value.
-/
import EncodedQuery.Check.Condition
import EncodedQuery.Proofs.Operator.Token
import EncodedQuery.Proofs.Text.Pieces

namespace EncodedQuery.Check

variable {c : Condition} {table : Option Table}

/-! ## §1. Findings that stand in the way. -/

/-- None of the findings stands in the way. -/
def Clear (issues : List Issue) : Prop := ∀ i ∈ issues, i.isError = false

theorem clear_nil : Clear [] := by
  intro i hi
  cases hi

theorem clear_append_iff {first later : List Issue} :
    Clear (first ++ later) ↔ Clear first ∧ Clear later :=
  List.forall_mem_append

theorem clear_singleton {i : Issue} (h : i.isError = false) : Clear [i] := by
  intro j hj
  rw [List.mem_singleton.mp hj]
  exact h

theorem not_clear_singleton {i : Issue} (h : i.isError = true) : ¬ Clear [i] := by
  intro hclear
  have hfalse := hclear i (List.mem_singleton_self i)
  rw [h] at hfalse
  cases hfalse

/-- A part of the check that reports an error unless it finds what it asks for. -/
theorem clear_ite_iff {p : Prop} [Decidable p] {i : Issue} (h : i.isError = true) :
    Clear (if p then [] else [i]) ↔ p := by
  by_cases hp : p
  · rw [if_pos hp]
    exact iff_of_true clear_nil hp
  · rw [if_neg hp]
    exact iff_of_false (not_clear_singleton h) hp

/-- A part of the check that at most warns. -/
theorem clear_ite_of_not_isError {p : Prop} [Decidable p] {i : Issue} {others : List Issue}
    (h : i.isError = false) (hothers : Clear others) : Clear (if p then [i] else others) := by
  by_cases hp : p
  · rw [if_pos hp]
    exact clear_singleton h
  · rw [if_neg hp]
    exact hothers

/-! ## §2. What each part asks for. -/

/-- An operator that does not suit the type of the field is only warned about. -/
theorem clear_operatorIssues (c : Condition) : Clear (operatorIssues c) :=
  clear_ite_of_not_isError rfl (clear_ite_of_not_isError rfl (clear_ite_of_not_isError rfl
    (clear_ite_of_not_isError rfl clear_nil)))

/-- So are the characters and the length of a text. -/
theorem clear_textIssues (c : Condition) : Clear (textIssues c) :=
  clear_append_iff.mpr ⟨clear_ite_of_not_isError rfl clear_nil,
    clear_ite_of_not_isError rfl clear_nil⟩

/-- A numeral of a type of numbers. -/
def isNumeralOf (ft : FieldType) (t : Text) : Bool :=
  match ft with
  | .integer => isIntegerText t
  | .decimal => isDecimalText t
  | _ => false

/-- The value has the form that the type of its field insists on.  Choices and texts are only warned
about, and the values of records and secrets are not looked at. -/
def WellFormed (c : Condition) : Prop :=
  match c.field.type with
  | .integer | .decimal => ∀ v ∈ splitValues c, isNumeralOf c.field.type v = true
  | .boolean => Text.isOneOf (Text.lower (Text.strip c.value)) booleanTexts = true
  | .date | .dateTime => Instant.isDateText c.value = true
  | _ => True

/-- **The types of fields ask for well-formed values.** -/
theorem clear_typedIssues_iff : Clear (typedIssues c) ↔ WellFormed c := by
  unfold typedIssues WellFormed isNumeralOf
  cases c.field.type with
  | integer => exact (clear_ite_iff rfl).trans List.all_eq_true
  | decimal => exact (clear_ite_iff rfl).trans List.all_eq_true
  | boolean => exact clear_ite_iff rfl
  | date => exact clear_ite_iff rfl
  | dateTime => exact clear_ite_iff rfl
  | choice =>
      refine iff_of_true ?_ trivial
      dsimp only
      split
      · exact clear_nil
      · exact clear_singleton rfl
  | reference => exact iff_of_true clear_nil trivial
  | password => exact iff_of_true clear_nil trivial
  | string => exact iff_of_true (clear_textIssues c) trivial
  | journal => exact iff_of_true (clear_textIssues c) trivial
  | html => exact iff_of_true (clear_textIssues c) trivial
  | url => exact iff_of_true (clear_textIssues c) trivial
  | email => exact iff_of_true (clear_textIssues c) trivial
  | translatedText => exact iff_of_true (clear_textIssues c) trivial

/-- The two ends of a range: those that its value writes, or those beside an empty value. -/
def HasEnds (c : Condition) (start stop : Instant) : Prop :=
  if c.value = [] then c.start = some start ∧ c.stop = some stop
  else Instant.readRange c.value = .ok (some (start, stop))

/-- **A range is asked for two ends in order.** -/
theorem clear_rangeIssues_iff :
    Clear (rangeIssues c) ↔ ∃ start stop, HasEnds c start stop ∧ start ≤ stop := by
  have horder : ∀ start stop : Instant, ¬ stop < start ↔ start ≤ stop :=
    fun start stop => Nat.not_lt
  have hends : ∀ (start stop : Instant) (i : Issue), i.isError = true →
      (Clear (if stop < start then [i] else []) ↔ start ≤ stop) := by
    intro start stop i hi
    by_cases hlt : stop < start
    · rw [if_pos hlt]
      exact iff_of_false (not_clear_singleton hi) (fun hle => (horder start stop).mpr hle hlt)
    · rw [if_neg hlt]
      exact iff_of_true clear_nil ((horder start stop).mp hlt)
  unfold rangeIssues HasEnds
  by_cases hvalue : c.value = []
  · have hempty : c.value.isEmpty = true := List.isEmpty_iff.mpr hvalue
    rw [hempty]
    simp only [if_true, hvalue]
    cases hstart : c.start with
    | none => exact iff_of_false (not_clear_singleton rfl) (by rintro ⟨_, _, ⟨⟨⟩, _⟩, _⟩)
    | some start =>
        cases hstop : c.stop with
        | none => exact iff_of_false (not_clear_singleton rfl) (by rintro ⟨_, _, ⟨_, ⟨⟩⟩, _⟩)
        | some stop =>
            refine (hends start stop _ rfl).trans ⟨fun h => ⟨start, stop, ⟨rfl, rfl⟩, h⟩, ?_⟩
            rintro ⟨_, _, ⟨⟨⟩, ⟨⟩⟩, h⟩
            exact h
  · have hempty : c.value.isEmpty = false := List.isEmpty_eq_false_iff.mpr hvalue
    rw [hempty]
    simp only [hvalue, if_false, Bool.false_eq_true]
    cases hread : Instant.readRange c.value with
    | error f => exact iff_of_false (not_clear_singleton rfl) (by rintro ⟨_, _, ⟨⟩, _⟩)
    | ok range =>
        cases range with
        | none => exact iff_of_false (not_clear_singleton rfl) (by rintro ⟨_, _, ⟨⟩, _⟩)
        | some ends =>
            obtain ⟨start, stop⟩ := ends
            refine (hends start stop _ rfl).trans ⟨fun h => ⟨start, stop, rfl, h⟩, ?_⟩
            rintro ⟨_, _, ⟨⟩, h⟩
            exact h

/-! ## §3. Whole conditions. -/

/-- A value is given, or a start stands beside it. -/
def HasValue (c : Condition) : Prop := Text.strip c.value ≠ [] ∨ c.start.isSome = true

/-- **What is asked of a value**: that there is one, and that it is a range with two ends in order
where it is a range, and else well formed. -/
theorem clear_valueIssues_iff :
    Clear (valueIssues c) ↔
      (Text.isOperatorIn Operator.isValueless c.operator = false →
        HasValue c ∧
        (isRange c = true → ∃ start stop, HasEnds c start stop ∧ start ≤ stop) ∧
        (isRange c = false → WellFormed c)) := by
  unfold valueIssues
  cases hvalueless : Text.isOperatorIn Operator.isValueless c.operator with
  | true => exact iff_of_true clear_nil nofun
  | false =>
      simp only [Bool.false_eq_true, if_false, forall_const]
      by_cases hmissing : ((Text.strip c.value).isEmpty && c.start.isNone) = true
      · rw [if_pos hmissing]
        refine iff_of_false (not_clear_singleton rfl) ?_
        rw [Bool.and_eq_true, List.isEmpty_iff, Option.isNone_iff_eq_none] at hmissing
        rintro ⟨hvalue | hstart, -⟩
        · exact hvalue hmissing.1
        · rw [hmissing.2] at hstart
          cases hstart
      · rw [if_neg hmissing]
        have hvalue : HasValue c := by
          rw [Bool.and_eq_true, List.isEmpty_iff, Option.isNone_iff_eq_none, not_and_or] at hmissing
          exact hmissing.imp id Option.isSome_iff_ne_none.mpr
        cases hrange : isRange c with
        | true =>
            refine clear_rangeIssues_iff.trans ⟨fun h => ⟨hvalue, fun _ => h, nofun⟩, ?_⟩
            exact fun h => h.2.1 rfl
        | false =>
            refine clear_typedIssues_iff.trans ⟨fun h => ⟨hvalue, nofun, fun _ => h⟩, ?_⟩
            exact fun h => h.2.2 rfl

/-- **The conditions without errors** have a field, an operator, and a value as it is asked for. -/
theorem clear_condition_iff :
    Clear (condition table c) ↔
      c.field.isNameless = false ∧ c.operator ≠ [] ∧ Clear (valueIssues c) := by
  unfold condition
  dsimp only
  cases hname : c.field.isNameless with
  | true => exact iff_of_false (not_clear_singleton rfl) (fun h => nomatch h.1)
  | false =>
      simp only [Bool.false_eq_true, if_false, true_and]
      have hunknown : ∀ unknown : Bool, ∀ i : Issue, i.isError = false →
          Clear (if unknown = true then [i] else []) :=
        fun unknown i hi => clear_ite_of_not_isError hi clear_nil
      by_cases hop : c.operator = []
      · rw [hop]
        refine iff_of_false (fun h => ?_) (fun h => h.1 rfl)
        exact not_clear_singleton rfl (clear_append_iff.mp h).2
      · have hempty : c.operator.isEmpty = false := List.isEmpty_eq_false_iff.mpr hop
        rw [hempty]
        simp only [Bool.false_eq_true, if_false]
        rw [clear_append_iff, clear_append_iff]
        refine ⟨fun h => ⟨hop, h.2⟩, fun h => ⟨⟨hunknown _ _ rfl, clear_operatorIssues c⟩, h.2⟩⟩

/-! ## §4. Blank values. -/

/-- Some character of the text is no blank. -/
def Filled (t : Text) : Prop := ∃ x ∈ t, Text.isBlank x = false

theorem not_filled_iff {t : Text} : ¬ Filled t ↔ Text.strip t = [] := by
  rw [Text.strip_eq_nil_iff]
  unfold Filled
  push Not
  exact forall₂_congr fun x _ => by rw [Bool.ne_false_iff]

/-- A range literal is not blank. -/
theorem filled_rangeLiteral (start stop : Instant) : Filled (Instant.rangeLiteral start stop) :=
  ⟨'j', List.mem_cons_self, rfl⟩

/-- The type of the field does not insist on a form, or it is asked for a list of numbers, which may
be empty. -/
def LetsBlankPass (c : Condition) : Prop :=
  match c.field.type with
  | .boolean | .date | .dateTime => False
  | .integer | .decimal => Text.isOperatorIn Operator.isListed c.operator = true
  | _ => True

/-- A start stands for the missing value of an operator that writes no range from it. -/
structure Excused (c : Condition) : Prop where
  /-- The value is blank. -/
  blank : Text.strip c.value = []
  /-- A start stands beside it. -/
  start : c.start.isSome = true
  /-- No range is written in its place. -/
  unwritten : ¬ (c.operator = Operator.between.token ∧ c.value = [])
  /-- The type of the field lets blank values pass. -/
  passes : LetsBlankPass c

section
variable (h : Text.strip c.value = [])
include h

/-- A blank value is an empty list, or a single value that is empty. -/
theorem splitValues_of_blank :
    splitValues c = if Text.isOperatorIn Operator.isListed c.operator then [] else [[]] := by
  unfold splitValues
  rw [h]
  simp only [List.not_mem_nil, and_false, if_false]
  rfl

/-- **The types that let blank values pass.** -/
theorem wellFormed_of_blank : WellFormed c ↔ LetsBlankPass c := by
  have hnumbers : ∀ ft : FieldType, isNumeralOf ft [] = false →
      ((∀ v ∈ splitValues c, isNumeralOf ft v = true) ↔
        Text.isOperatorIn Operator.isListed c.operator = true) := by
    intro ft hempty
    rw [splitValues_of_blank h]
    cases Text.isOperatorIn Operator.isListed c.operator with
    | true => exact iff_of_true (fun v hv => nomatch hv) rfl
    | false =>
        refine iff_of_false (fun hall => ?_) nofun
        have hfirst := hall [] (List.mem_singleton_self [])
        rw [hempty] at hfirst
        cases hfirst
  have hdate : Instant.isDateText c.value = false := by
    unfold Instant.isDateText Instant.read
    rw [h]
    rfl
  unfold WellFormed LetsBlankPass
  cases c.field.type with
  | integer => exact hnumbers .integer rfl
  | decimal => exact hnumbers .decimal rfl
  | boolean =>
      dsimp only
      rw [h]
      exact iff_of_false (by decide) id
  | date =>
      dsimp only
      rw [hdate]
      exact iff_of_false nofun id
  | dateTime =>
      dsimp only
      rw [hdate]
      exact iff_of_false nofun id
  | _ => exact Iff.rfl

/-- Blanks are no range literal. -/
theorem isRange_of_blank :
    isRange c = true ↔
      c.operator = Operator.between.token ∧ c.value = [] ∧ c.start.isSome = true := by
  have hlooks : Instant.looksLikeRange c.value = false := by
    unfold Instant.looksLikeRange
    rw [h]
    rfl
  unfold isRange
  rw [hlooks, Bool.false_or, Bool.and_eq_true, Bool.and_eq_true, decide_eq_true_eq,
    List.isEmpty_iff]

end

section
variable (hneeds : Text.isOperatorIn Operator.isValueless c.operator = false)
include hneeds

/-- Where no value is given, a range is written from its ends. -/
theorem literal_of_ends {start stop : Instant} (hop : c.operator = Operator.between.token)
    (hvalue : c.value = []) (hends : HasEnds c start stop) :
    c.literal = Instant.rangeLiteral start stop := by
  unfold HasEnds at hends
  rw [if_pos hvalue] at hends
  unfold Condition.literal
  rw [hneeds, if_neg Bool.false_ne_true, if_pos ⟨hop, hvalue⟩, hends.1, hends.2]

/-- Else the value is written as it is. -/
theorem literal_of_value (h : ¬ (c.operator = Operator.between.token ∧ c.value = [])) :
    c.literal = c.value := by
  unfold Condition.literal
  rw [hneeds, if_neg Bool.false_ne_true, if_neg h]

end

/-- **WHEN A REQUIRED VALUE IS MISSING.**  A condition without errors whose operator requires a
value is written with a blank value exactly when a start excuses it. -/
theorem blank_iff_excused (hname : c.field.isNameless = false) (hop : c.operator ≠ [])
    (hneeds : (OperatorEntry.ofToken c.operator).requiresValue = true) :
    Clear (condition table c) ∧ ¬ Filled c.literal ↔ Excused c := by
  have hvalued : Text.isOperatorIn Operator.isValueless c.operator = false := by
    have hnot : (!Text.isOperatorIn Operator.isValueless c.operator) = true := hneeds
    rwa [Bool.not_eq_true'] at hnot
  have hclear : Clear (condition table c) ↔ HasValue c ∧
      (isRange c = true → ∃ start stop, HasEnds c start stop ∧ start ≤ stop) ∧
      (isRange c = false → WellFormed c) := by
    rw [clear_condition_iff, clear_valueIssues_iff]
    exact ⟨fun h => h.2.2 hvalued, fun h => ⟨hname, hop, fun _ => h⟩⟩
  rw [hclear]
  by_cases hends : c.operator = Operator.between.token ∧ c.value = []
  · -- the ends of a range are asked for, and then they are written
    refine iff_of_false ?_ (fun h => h.unwritten hends)
    rintro ⟨⟨hvalue, hrange, -⟩, hblank⟩
    have hstrip : Text.strip c.value = [] := by
      rw [hends.2]
      rfl
    have hstart := hvalue.resolve_left (fun hne => hne hstrip)
    obtain ⟨start, stop, hhas, -⟩ :=
      hrange ((isRange_of_blank hstrip).mpr ⟨hends.1, hends.2, hstart⟩)
    rw [literal_of_ends hvalued hends.1 hends.2 hhas] at hblank
    exact hblank (filled_rangeLiteral start stop)
  · -- the value is written as it is
    rw [literal_of_value hvalued hends, not_filled_iff]
    constructor
    · rintro ⟨⟨hvalue, -, hformed⟩, hstrip⟩
      have hrange : isRange c = false := by
        rw [Bool.eq_false_iff, ne_eq, isRange_of_blank hstrip]
        exact fun h => hends ⟨h.1, h.2.1⟩
      exact ⟨hstrip, hvalue.resolve_left (fun hne => hne hstrip), hends,
        (wellFormed_of_blank hstrip).mp (hformed hrange)⟩
    · intro h
      have hrange : ¬ isRange c = true := by
        rw [isRange_of_blank h.blank]
        exact fun hr => hends ⟨hr.1, hr.2.1⟩
      exact ⟨⟨.inr h.start, fun hr => absurd hr hrange,
        fun _ => (wellFormed_of_blank h.blank).mpr h.passes⟩, h.blank⟩

/-- An empty list of numbers with a start beside it. -/
theorem blank_iff_excused_in_no_list :
    let c : Condition :=
      { field := { name := "priority", type := .integer }, operator := "IN", value := " ",
        start := some (Instant.startOf ⟨2024, 1, 1, by decide⟩) }
    Clear (condition none c) ∧ ¬ Filled c.literal := by
  intro c
  have hexcused : Excused c := ⟨by decide, rfl, by decide, rfl⟩
  exact (blank_iff_excused rfl (by decide) rfl).mpr hexcused

/-- **A search for no text has no error when a start stands beside it**, and is written without a
value. -/
theorem clear_without_value :
    let c : Condition :=
      { field := { name := "short_description" }, operator := "CONTAINS",
        start := some (Instant.startOf ⟨2024, 1, 1, by decide⟩) }
    c.field.isNameless = false ∧ c.operator ≠ [] ∧
      (OperatorEntry.ofToken c.operator).requiresValue = true ∧
      Clear (condition none c) ∧ ¬ Filled c.literal := by
  intro c
  have hnone : condition none c = [] := by decide +kernel
  refine ⟨rfl, by decide, rfl, ?_, ?_⟩
  · rw [hnone]
    exact clear_nil
  · exact not_filled_iff.mpr (by decide)

end EncodedQuery.Check

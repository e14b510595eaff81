/-
  EncodedQuery.Proofs.Check.Bounds
  ────────────────────────────────
  **THE TWO BOUNDS OF A RANGE.**

  A condition that asks for what lies between two bounds should be written with
  both of them: two instants in order, or two numerals with an at sign between them.
  The check makes sure of this only for what it takes for a range of instants.  Any
  other value it cuts at its at signs, and then each piece has to be a numeral; how
  many pieces there are it does not ask.  A single day passes as well.

  Main results:
    • `exists_pair_of_count` — a value with one at sign is a pair,
    • `twoBounds_iff` — which conditions without errors are written with two bounds.
-/
import EncodedQuery.Proofs.Check.Clear
import EncodedQuery.Proofs.Instant.Shown

namespace EncodedQuery

/-! ## §1. Ranges of instants. -/

namespace Instant

/-- The whole seconds of an instant, as its rank counts them. -/
theorem rank_wholeSecond (t : Instant) : t.wholeSecond.rank = 1000000 * (t.rank / 1000000) := by
  have hrank : ∀ micro, t.date.rank * 86400000000 +
      (((t.hour * 60 + t.minute) * 60 + t.second) * 1000000 + micro) =
        1000000 * (t.date.rank * 86400 + ((t.hour * 60 + t.minute) * 60 + t.second)) + micro := by
    intro micro
    omega
  show t.date.rank * 86400000000 + (((t.hour * 60 + t.minute) * 60 + t.second) * 1000000 + 0) = _
  rw [hrank, rank, timeRank, hrank, Nat.mul_add_div (by decide), Nat.div_eq_of_lt t.isTime.2.2.2,
    Nat.add_zero, Nat.add_zero]

/-- Leaving out the fractions of a second keeps the order. -/
theorem wholeSecond_le {a b : Instant} (h : a ≤ b) : a.wholeSecond ≤ b.wholeSecond := by
  show a.wholeSecond.rank ≤ b.wholeSecond.rank
  rw [rank_wholeSecond, rank_wholeSecond]
  exact Nat.mul_le_mul_left _ (Nat.div_le_div_right h)

/-- A text that is read as a range looks like one. -/
theorem looksLikeRange_of_readRange {t : Text} {ends : Instant × Instant}
    (h : readRange t = .ok (some ends)) : looksLikeRange t = true := by
  unfold readRange at h
  split at h
  · cases h
  next a b harguments =>
    unfold rangeArguments? at harguments
    simp only [Option.bind_eq_bind, Option.bind_eq_some_iff] at harguments
    obtain ⟨rest, hrest, -⟩ := harguments
    have hhead : rangeFunction ++ ("('" : Text) <+: Text.strip t :=
      ⟨rest, (Text.dropHead?_eq_some_iff.mp hrest).symm⟩
    rw [looksLikeRange, Text.startsWith, List.isPrefixOf_iff_prefix]
    refine List.IsPrefix.trans ⟨"'", ?_⟩ hhead
    rfl

/-- There is no at sign in a range literal. -/
theorem at_not_mem_rangeLiteral (start stop : Instant) : .char '@' ∉ rangeLiteral start stop := by
  have hshown : ∀ t : Instant, .char '@' ∉ t.shown := by
    intro t hmem
    exact absurd (isShownChar_of_mem_shown t _ hmem) (by decide)
  unfold rangeLiteral
  intro hmem
  simp only [List.mem_append, hshown, or_false] at hmem
  revert hmem
  decide

end Instant

/-! ## §2. Pairs of numbers. -/

namespace Text

/-- A text has as many separators as later pieces. -/
theorem count_marked {sep : CodePoint} :
    ∀ {pieces : List Text}, (∀ p ∈ pieces, sep ∉ p) → (marked sep pieces).count sep = pieces.length
  | [], _ => rfl
  | p :: pieces, h => by
      obtain ⟨hp, hrest⟩ := List.forall_mem_cons.mp h
      rw [marked_cons, List.count_cons_self, List.count_append, List.count_eq_zero_of_not_mem hp,
        count_marked hrest, Nat.zero_add, List.length_cons]

/-- With one separator in it, a text has two pieces. -/
theorem exists_cut_of_count {sep : CodePoint} {t : Text} (h : t.count sep = 1) :
    ∃ low high, t = low ++ sep :: high ∧ cut sep t = [low, high] ∧ sep ∉ low ∧ sep ∉ high := by
  obtain ⟨low, pieces, hcut, heq, hlow, hpieces⟩ := exists_cut sep t
  have hlength : pieces.length = 1 := by
    rw [heq, List.count_append, List.count_eq_zero_of_not_mem hlow, count_marked hpieces,
      Nat.zero_add] at h
    exact h
  obtain ⟨high, rfl⟩ := List.length_eq_one_iff.mp hlength
  refine ⟨low, high, ?_, hcut, hlow, hpieces high (List.mem_singleton_self high)⟩
  rw [heq, marked_cons, marked_nil, List.append_nil]

theorem not_mem_of_blank {x : CodePoint} {t : Text} (hx : isBlank x = false)
    (h : ∀ c ∈ t, isBlank c = true) : x ∉ t := by
  intro hmem
  rw [h x hmem] at hx
  cases hx

/-- Nothing but blanks is stripped away. -/
theorem count_strip {x : CodePoint} (hx : isBlank x = false) (t : Text) :
    (strip t).count x = t.count x := by
  obtain ⟨before, behind, heq, hbefore, hbehind⟩ := exists_strip t
  calc (strip t).count x = before.count x + (strip t).count x + behind.count x := by
        rw [List.count_eq_zero_of_not_mem (not_mem_of_blank hx hbefore),
          List.count_eq_zero_of_not_mem (not_mem_of_blank hx hbehind), Nat.zero_add, Nat.add_zero]
    _ = t.count x := by rw [← List.count_append, ← List.count_append, List.append_assoc, ← heq]

/-- What stands around a text that is stripped away is part of its outer pieces. -/
theorem strip_pieces {before behind : Text} (hbefore : ∀ c ∈ before, isBlank c = true)
    (hbehind : ∀ c ∈ behind, isBlank c = true) (low high : Text) :
    strip (before ++ low) = strip low ∧ strip (high ++ behind) = strip high := by
  obtain ⟨front, back, heq, hfront, hback⟩ := exists_strip low
  obtain ⟨front', back', heq', hfront', hback'⟩ := exists_strip high
  constructor
  · calc strip (before ++ low) = strip ((before ++ front) ++ (strip low ++ back)) := by
          rw [List.append_assoc, ← heq]
      _ = strip low :=
          strip_append (trim_strip low) (List.forall_mem_append.mpr ⟨hbefore, hfront⟩) hback
  · calc strip (high ++ behind) = strip (front' ++ (strip high ++ (back' ++ behind))) := by
          rw [← List.append_assoc (strip high), ← List.append_assoc front', ← heq']
      _ = strip high :=
          strip_append (trim_strip high) hfront' (List.forall_mem_append.mpr ⟨hback', hbehind⟩)

end Text

namespace Check

variable {c : Condition} {table : Option Table}

/-- The literal is two numerals of the field's type with one at sign between them; blanks around a
numeral do not count. -/
def IsNumberPair (c : Condition) : Prop :=
  ∃ low high, c.literal = low ++ .char '@' :: high ∧ .char '@' ∉ low ∧ .char '@' ∉ high ∧
    isNumeralOf c.field.type (Text.strip low) = true ∧
    isNumeralOf c.field.type (Text.strip high) = true

/-- The literal is read as two instants in order. -/
def IsOrderedRange (c : Condition) : Prop :=
  ∃ start stop, Instant.readRange c.literal = .ok (some (start, stop)) ∧ start ≤ stop

theorem isNumeric_of_isNumeralOf {ft : FieldType} {t : Text} (h : isNumeralOf ft t = true) :
    ft.isNumeric = true := by
  cases ft <;> first | rfl | cases h

/-- A pair of numbers is written for numbers, with one at sign. -/
theorem IsNumberPair.count (h : IsNumberPair c) :
    c.field.type.isNumeric = true ∧ c.literal.count (.char '@') = 1 := by
  obtain ⟨low, high, heq, hlow, hhigh, hnumeral, -⟩ := h
  refine ⟨isNumeric_of_isNumeralOf hnumeral, ?_⟩
  rw [heq, List.count_append, List.count_cons_self, List.count_eq_zero_of_not_mem hlow,
    List.count_eq_zero_of_not_mem hhigh]

/-- A value with an at sign in it is cut there. -/
theorem splitValues_of_between (hop : c.operator = Operator.between.token)
    (hat : .char '@' ∈ Text.strip c.value) :
    splitValues c = (Text.cut '@' (Text.strip c.value)).map Text.strip := by
  have hlisted : Text.isOperatorIn Operator.isListed c.operator = false := by
    rw [hop, Operator.isOperatorIn_token]
    rfl
  unfold splitValues
  dsimp only
  rw [hlisted, if_neg Bool.false_ne_true, if_pos ⟨hop, hat⟩]

/-- **A well-formed value with one at sign is a pair of numbers.** -/
theorem exists_pair_of_count (hop : c.operator = Operator.between.token)
    (htype : c.field.type.isNumeric = true) (hformed : WellFormed c)
    (hcount : c.value.count (.char '@') = 1) :
    ∃ low high, c.value = low ++ .char '@' :: high ∧ .char '@' ∉ low ∧ .char '@' ∉ high ∧
      isNumeralOf c.field.type (Text.strip low) = true ∧
      isNumeralOf c.field.type (Text.strip high) = true := by
  have hnumerals : ∀ v ∈ splitValues c, isNumeralOf c.field.type v = true := by
    unfold WellFormed at hformed
    cases ht : c.field.type <;> rw [ht] at hformed htype <;> first | exact hformed | cases htype
  -- the at sign stays when the value is stripped, and the value is cut there
  rw [← Text.count_strip (by decide)] at hcount
  obtain ⟨low, high, heq, hcut, hlow, hhigh⟩ := Text.exists_cut_of_count hcount
  have hat : .char '@' ∈ Text.strip c.value := by
    rw [heq]
    exact List.mem_append_right _ List.mem_cons_self
  rw [splitValues_of_between hop hat, hcut, List.map_cons, List.map_cons, List.map_nil,
    List.forall_mem_cons, List.forall_mem_singleton] at hnumerals
  -- blanks around the value are blanks around its numerals
  obtain ⟨before, behind, hvalue, hbefore, hbehind⟩ := Text.exists_strip c.value
  obtain ⟨hstripLow, hstripHigh⟩ := Text.strip_pieces hbefore hbehind low high
  refine ⟨before ++ low, high ++ behind, ?_, ?_, ?_, ?_, ?_⟩
  · rw [hvalue, heq]
    simp
  · exact List.not_mem_append (Text.not_mem_of_blank (by decide) hbefore) hlow
  · exact List.not_mem_append hhigh (Text.not_mem_of_blank (by decide) hbehind)
  · rw [hstripLow]
    exact hnumerals.1
  · rw [hstripHigh]
    exact hnumerals.2

/-! ## §3. Conditions with two bounds. -/

theorem HasEnds.unique {start stop start' stop' : Instant} (h : HasEnds c start stop)
    (h' : HasEnds c start' stop') : start = start' ∧ stop = stop' := by
  unfold HasEnds at h h'
  split at h
  next hempty =>
    rw [if_pos hempty] at h'
    exact ⟨Option.some.inj (h.1.symm.trans h'.1), Option.some.inj (h.2.symm.trans h'.2)⟩
  next hempty =>
    rw [if_neg hempty, h] at h'
    exact Prod.mk.inj (Option.some.inj (Except.ok.inj h'))

/-- **The range that its ends stand for is read back** from the year 1000 on, and not before. -/
theorem isOrderedRange_of_ends {start stop : Instant}
    (hliteral : c.literal = Instant.rangeLiteral start stop) (hle : start ≤ stop) :
    IsOrderedRange c ↔ 1000 ≤ start.date.year ∧ 1000 ≤ stop.date.year := by
  obtain ⟨hlate, hearly⟩ := Instant.readRange_rangeLiteral start stop
  unfold IsOrderedRange
  rw [hliteral]
  by_cases hyears : 1000 ≤ start.date.year ∧ 1000 ≤ stop.date.year
  · exact iff_of_true ⟨_, _, hlate hyears, Instant.wholeSecond_le hle⟩ hyears
  · refine iff_of_false ?_ hyears
    rintro ⟨_, _, hread, -⟩
    have hfails := hearly (by omega)
    rw [hread] at hfails
    exact not_fails_ok _ hfails

/-- A value that is written as it is and does not look like a range is not read as one. -/
theorem not_isOrderedRange (hrange : isRange c = false) (hop : c.operator = Operator.between.token)
    (hliteral : c.literal = c.value) : ¬ IsOrderedRange c := by
  rintro ⟨start, stop, hread, -⟩
  rw [hliteral] at hread
  have htrue : isRange c = true := by
    unfold isRange
    rw [decide_eq_true hop, Instant.looksLikeRange_of_readRange hread]
    rfl
  rw [hrange] at htrue
  cases htrue

/-- A range of instants is read back as one, unless it is written from ends that are too early. -/
theorem twoBounds_of_ends (hneeds : Text.isOperatorIn Operator.isValueless c.operator = false)
    (hop : c.operator = Operator.between.token) {start stop : Instant}
    (hends : HasEnds c start stop) (hle : start ≤ stop) :
    IsOrderedRange c ∨ IsNumberPair c ↔
      (c.value = [] → 1000 ≤ start.date.year ∧ 1000 ≤ stop.date.year) := by
  by_cases hempty : c.value = []
  · -- the literal is written from the two ends, and no at sign is in it
    have hliteral := literal_of_ends hneeds hop hempty hends
    have hpair : ¬ IsNumberPair c := by
      rintro ⟨low, high, heq, -⟩
      have hmem : .char '@' ∈ c.literal := by
        rw [heq]
        exact List.mem_append_right _ List.mem_cons_self
      rw [hliteral] at hmem
      exact Instant.at_not_mem_rangeLiteral start stop hmem
    rw [or_iff_left hpair, isOrderedRange_of_ends hliteral hle]
    exact ⟨fun hyears _ => hyears, fun h => h hempty⟩
  · -- the value is a range literal, and its ends are in order
    have hliteral := literal_of_value hneeds (fun h => hempty h.2)
    unfold HasEnds at hends
    rw [if_neg hempty] at hends
    refine iff_of_true (.inl ⟨start, stop, ?_, hle⟩) (fun h => absurd h hempty)
    rw [hliteral]
    exact hends

/-- Any other value has two bounds as a pair of numbers. -/
theorem twoBounds_of_value (hop : c.operator = Operator.between.token) (hkind : isRange c = false)
    (hliteral : c.literal = c.value) (hformed : WellFormed c) :
    IsOrderedRange c ∨ IsNumberPair c ↔
      c.field.type.isNumeric = true ∧ c.value.count (.char '@') = 1 := by
  rw [or_iff_right (not_isOrderedRange hkind hop hliteral)]
  constructor
  · intro hpair
    rw [← hliteral]
    exact hpair.count
  · rintro ⟨hnumeric, hcount⟩
    unfold IsNumberPair
    rw [hliteral]
    exact exists_pair_of_count hop hnumeric hformed hcount

/-- **WHICH RANGES HAVE TWO BOUNDS.**  A condition without errors that asks for what lies between
two bounds is written with both of them exactly when it is a range of instants, of which those that
stand beside an empty value do not lie before the year 1000, or when its value is for numbers and
has one at sign in it. -/
theorem twoBounds_iff (hop : c.operator = Operator.between.token)
    (hclear : Clear (condition table c)) :
    IsOrderedRange c ∨ IsNumberPair c ↔
      (isRange c = true ∧ ∀ start stop, HasEnds c start stop → c.value = [] →
        1000 ≤ start.date.year ∧ 1000 ≤ stop.date.year) ∨
      (isRange c = false ∧ c.field.type.isNumeric = true ∧ c.value.count (.char '@') = 1) := by
  have hneeds : Text.isOperatorIn Operator.isValueless c.operator = false := by
    rw [hop, Operator.isOperatorIn_token]
    rfl
  obtain ⟨hvalue, hrange, hformed⟩ :=
    clear_valueIssues_iff.mp (clear_condition_iff.mp hclear).2.2 hneeds
  cases hkind : isRange c with
  | true =>
      -- two ends in order were found, in the value or beside it
      obtain ⟨start, stop, hends, hle⟩ := hrange hkind
      rw [twoBounds_of_ends hneeds hop hends hle]
      constructor
      · intro hyears
        refine .inl ⟨rfl, fun start' stop' hends' => ?_⟩
        obtain ⟨rfl, rfl⟩ := hends.unique hends'
        exact hyears
      · rintro (⟨-, hyears⟩ | ⟨⟨⟩, -⟩)
        exact hyears start stop hends
  | false =>
      -- the value is no range, and so it is not empty: an empty one with a start would be one
      have hliteral : c.literal = c.value := by
        refine literal_of_value hneeds ?_
        rintro ⟨-, hempty⟩
        have hstrip : Text.strip c.value = [] := by
          rw [hempty]
          rfl
        have hstart := hvalue.resolve_left (fun hne => hne hstrip)
        rw [(isRange_of_blank hstrip).mpr ⟨hop, hempty, hstart⟩] at hkind
        cases hkind
      rw [twoBounds_of_value hop hkind hliteral (hformed hkind)]
      constructor
      · exact fun h => .inr ⟨rfl, h⟩
      · rintro (⟨⟨⟩, -⟩ | ⟨-, h⟩)
        exact h

/-- Two numbers with blanks around them. -/
theorem twoBounds_iff_of_two :
    let c : Condition :=
      { field := { name := "price", type := .decimal }, operator := "BETWEEN",
        value := "1.5 @ -2e3" }
    Clear (condition none c) ∧ IsNumberPair c := by
  intro c
  have hnone : condition none c = [] := by decide +kernel
  have hclear : Clear (condition none c) := by
    rw [hnone]
    exact clear_nil
  refine ⟨hclear, ?_⟩
  have hbounds := (twoBounds_iff rfl hclear).mpr (.inr ⟨by decide, rfl, by decide⟩)
  exact hbounds.resolve_left (not_isOrderedRange (by decide) rfl rfl)

/-- **One number passes as a range**, and so do three numbers and a single day. -/
theorem clear_without_bounds :
    let single : Condition :=
      { field := { name := "priority", type := .integer }, operator := "BETWEEN", value := "5" }
    let three : Condition := { single with value := "1@2@3" }
    let day : Condition :=
      { field := { name := "opened_at", type := .date }, operator := "BETWEEN",
        value := "2024-01-01" }
    ∀ c ∈ [single, three, day],
      Clear (condition none c) ∧ ¬ (IsOrderedRange c ∨ IsNumberPair c) := by
  intro single three day c hmem
  obtain ⟨hnone, hkind, hop, hliteral, hcount⟩ : condition none c = [] ∧ isRange c = false ∧
      c.operator = Operator.between.token ∧ c.literal = c.value ∧
      ¬ (c.field.type.isNumeric = true ∧ c.literal.count (.char '@') = 1) := by
    revert c
    decide +kernel
  refine ⟨?_, ?_⟩
  · rw [hnone]
    exact clear_nil
  rintro (hordered | hpair)
  · exact not_isOrderedRange hkind hop hliteral hordered
  · exact hcount hpair.count

end Check

end EncodedQuery

/-
  EncodedQuery.Proofs.Check.Special
  ─────────────────────────────────
  **CHECKED VALUES HOLD NO SPECIAL CHARACTERS.**

  A value is written into a query as it is.  A caret in it would end the term,
  and an equals sign could prolong the operator in front of it.  A text is
  warned about when it holds one of the two.  The forms that numbers, truth
  values, days and ranges are asked for have no place for them either.

  The argument is the same for every form: it takes characters of a few kinds
  only, and the special ones are of none of these kinds.

  Main results:
    • `Instant.ordinary_of_read`, `Instant.ordinary_of_readRange` — days and
      ranges of days,
    • `Check.ordinary_of_splitValues` — a special character stands in a single
      value,
    • `Check.ordinary_literal` — the values that the check looks at.
-/
import EncodedQuery.Proofs.Check.Numeral
import EncodedQuery.Proofs.Instant.Shown
import EncodedQuery.Proofs.Text.Case

namespace EncodedQuery

/-! ## §1. Special characters. -/

/-- A character with a meaning of its own in a query. -/
def Text.isSpecial (x : CodePoint) : Bool := x = '^' ∨ x = '='

/-- None of the characters is special. -/
def Text.Ordinary (t : Text) : Prop := ∀ x, Text.isSpecial x = true → x ∉ t

section
variable {x : CodePoint} (h : Text.isSpecial x = true)
include h

theorem Text.eq_of_isSpecial : x = '^' ∨ x = '=' := of_decide_eq_true h

theorem Text.isDigit_of_isSpecial : Text.isDigit x = false := by
  rcases eq_of_isSpecial h with rfl | rfl <;> decide

theorem Text.isBlank_of_isSpecial : Text.isBlank x = false := by
  rcases eq_of_isSpecial h with rfl | rfl <;> decide

/-- Stripping leaves special characters. -/
theorem Text.mem_strip_of_isSpecial {t : Text} (hx : x ∈ t) : x ∈ Text.strip t := by
  have hdrop : ∀ s : Text, x ∈ s → x ∈ s.dropWhile isBlank := by
    intro s hs
    rw [← List.takeWhile_append_dropWhile (p := isBlank) (l := s)] at hs
    rcases List.mem_append.mp hs with hs | hs
    · have hblank := List.mem_takeWhile_imp hs
      rw [isBlank_of_isSpecial h] at hblank
      cases hblank
    · exact hs
  exact List.mem_reverse.mpr (hdrop _ (List.mem_reverse.mpr (hdrop t hx)))

end

theorem Text.Ordinary.of_strip {t : Text} (h : (Text.strip t).Ordinary) : t.Ordinary :=
  fun x hx hmem => h x hx (Text.mem_strip_of_isSpecial hx hmem)

theorem Text.ordinary_nil : Text.Ordinary [] := by
  intro x _ hx
  cases hx

theorem Text.Ordinary.append {s t : Text} (hs : s.Ordinary) (ht : t.Ordinary) :
    (s ++ t).Ordinary := by
  intro x hx hmem
  rcases List.mem_append.mp hmem with hmem | hmem
  · exact hs x hx hmem
  · exact ht x hx hmem

theorem Text.ordinary_cons {c : CodePoint} {t : Text} (hc : Text.isSpecial c = false)
    (ht : t.Ordinary) : Text.Ordinary (c :: t) := by
  intro x hx hmem
  rcases List.mem_cons.mp hmem with rfl | hmem
  · rw [hc] at hx
    cases hx
  · exact ht x hx hmem

/-- A text of ordinary characters is ordinary. -/
theorem Text.ordinary_of_all {t : Text} (h : t.all (fun c => !Text.isSpecial c) = true) :
    t.Ordinary := by
  intro x hx hmem
  have hnot := List.all_eq_true.mp h x hmem
  rw [hx] at hnot
  cases hnot

/-! ## §2. Days and ranges of days. -/

section
variable {x : CodePoint} (hx : Text.isSpecial x = true)
include hx

/-- The literal characters of the patterns are other ones. -/
theorem sameLetter_of_isSpecial {c : CodePoint} (hc : c ∈ ("-/:TZ" : Text)) :
    Text.sameLetter c x = false := by
  have hall : ("-/:TZ" : Text).all (fun c => !Text.sameLetter c '^' && !Text.sameLetter c '=') := by
    decide +kernel
  have hletter := List.all_eq_true.mp hall c hc
  rw [Bool.and_eq_true, Bool.not_eq_true', Bool.not_eq_true'] at hletter
  rcases Text.eq_of_isSpecial hx with rfl | rfl
  · exact hletter.1
  · exact hletter.2

/-- **No pattern takes a special character.** -/
theorem Pattern.Takes.not_mem_of_isSpecial {p : Pattern}
    (hp : ∀ c, .char c ∈ p → c ∈ ("-/:TZ" : Text)) {t : Text} (h : p.Takes t) : x ∉ t := by
  intro hmem
  rcases h.cases_of_mem hmem with hdigit | hblank | ⟨m, hm, hsame⟩
  · rw [Text.isDigit_of_isSpecial hx] at hdigit
    cases hdigit
  · rw [Text.isBlank_of_isSpecial hx] at hblank
    cases hblank
  · rw [sameLetter_of_isSpecial hx (hp m hm)] at hsame
    cases hsame

end

namespace Instant

/-- **A text that is read as an instant is ordinary.** -/
theorem ordinary_of_read {forms : List Pattern} {t : Text} {i : Instant}
    (hforms : ∀ p ∈ forms, ∀ c, .char c ∈ p → c ∈ ("-/:TZ" : Text)) (h : read forms t = .ok i) :
    t.Ordinary := by
  obtain ⟨p, hp, hread⟩ := exists_of_read h
  refine Text.Ordinary.of_strip ?_
  intro x hx
  exact (Pattern.takes_of_read hread).not_mem_of_isSpecial hx (hforms p hp)

/-- The literal characters of the forms that are accepted. -/
theorem char_mem_of_accepted {p : Pattern} (hp : p ∈ Pattern.accepted) {c : CodePoint}
    (hc : .char c ∈ p) : c ∈ ("-/:TZ" : Text) := by
  have hall : ∀ p ∈ Pattern.accepted, ∀ part ∈ p,
      part.name.all (fun c => decide (part = .char c → c ∈ ("-/:TZ" : Text))) := by
    decide +kernel
  have hchar := List.all_eq_true.mp (hall p hp _ hc) c (List.mem_singleton_self c)
  exact of_decide_eq_true hchar rfl

theorem ordinary_of_isDateText {t : Text} (h : isDateText t = true) : t.Ordinary := by
  unfold isDateText at h
  cases hread : read Pattern.accepted t with
  | error f => rw [hread] at h; cases h
  | ok i => exact ordinary_of_read (fun p hp c hc => char_mem_of_accepted hp hc) hread

theorem eq_of_untilQuote? :
    ∀ {t a rest : Text}, untilQuote? t = some (a, rest) → t = a ++ .char '\'' :: rest
  | c :: t, a, rest, h => by
      rw [untilQuote?] at h
      split at h
      next hc =>
        cases h
        rw [hc, List.nil_append]
      next =>
        obtain ⟨⟨a', rest'⟩, hrec, heq⟩ := Option.map_eq_some_iff.mp h
        cases heq
        rw [eq_of_untilQuote? hrec, List.cons_append]

theorem ordinary_of_rangeArguments? {t a z : Text} (h : rangeArguments? t = some (a, z))
    (ha : a.Ordinary) (hz : z.Ordinary) : t.Ordinary := by
  unfold rangeArguments? at h
  simp only [Option.bind_eq_bind, Option.bind_eq_some_iff] at h
  obtain ⟨t₁, h₁, ⟨a', t₂⟩, h₂, t₃, h₃, ⟨z', t₄⟩, h₄, h⟩ := h
  dsimp only at h h₃
  split at h <;> cases h
  next hend =>
    rw [Text.dropHead?_eq_some_iff.mp h₁, eq_of_untilQuote? h₂, Text.dropHead?_eq_some_iff.mp h₃,
      eq_of_untilQuote? h₄, hend]
    have hquote : Text.isSpecial '\'' = false := by decide
    refine .append (Text.ordinary_of_all (by decide)) (.append ha (Text.ordinary_cons hquote ?_))
    refine .append (Text.ordinary_of_all (by decide)) (.append hz (Text.ordinary_cons hquote ?_))
    exact Text.ordinary_of_all (by decide)

/-- **A text that is read as a range is ordinary.** -/
theorem ordinary_of_readRange {t : Text} {a z : Instant} (h : readRange t = .ok (some (a, z))) :
    t.Ordinary := by
  have hbackend : ∀ p ∈ [Pattern.backend], ∀ c, .char c ∈ p → c ∈ ("-/:TZ" : Text) := by
    intro p hp c hc
    rw [List.mem_singleton.mp hp] at hc
    exact char_mem_of_accepted (by decide) hc
  unfold readRange at h
  split at h
  next => cases h
  next s e harguments =>
    obtain ⟨start, hstart, h⟩ := exists_of_bind_eq_ok h
    obtain ⟨stop, hstop, _⟩ := exists_of_bind_eq_ok h
    exact .of_strip (ordinary_of_rangeArguments? harguments (ordinary_of_read hbackend hstart)
      (ordinary_of_read hbackend hstop))

end Instant

/-! ## §3. Numbers and truth values. -/

namespace Check

/-- No special character is part of a numeral. -/
theorem ordinary_of_numeralChars {t : Text} (h : NumeralChars t) : t.Ordinary := by
  intro x hx hmem
  have hnumeral := h x hmem
  rw [isNumeralChar, Text.isDigit_of_isSpecial hx, Bool.false_or, decide_eq_true_eq] at hnumeral
  rcases Text.eq_of_isSpecial hx with rfl | rfl <;> exact absurd hnumeral (by decide)

theorem ordinary_of_truthValue {t : Text}
    (h : Text.isOneOf (Text.lower (Text.strip t)) booleanTexts = true) : t.Ordinary := by
  refine .of_strip fun x hx hmem => ?_
  obtain ⟨s, hs, heq⟩ := List.any_eq_true.mp h
  have hall : ∀ s ∈ booleanTexts, s.all (fun c => !Text.isSpecial c) = true := by decide
  -- lower case leaves a special character as it is
  have hself : Text.lowerOne x = [x] ∧ x.toNat < 97 := by
    rcases Text.eq_of_isSpecial hx with rfl | rfl <;> decide
  have hin : x ∈ s := by
    rw [of_decide_eq_true heq]
    exact (Text.mem_lower_iff hself.1 hself.2).mpr hmem
  exact Text.ordinary_of_all (hall s hs) x hx hin

/-! ## §4. Single values. -/

theorem ordinary_of_cut {sep : CodePoint} (hsep : Text.isSpecial sep = false) {t : Text}
    (h : ∀ p ∈ Text.cut sep t, p.Ordinary) : t.Ordinary := by
  obtain ⟨s, pieces, hcut, heq, -, -⟩ := Text.exists_cut sep t
  rw [hcut, List.forall_mem_cons] at h
  rw [heq]
  refine .append h.1 ?_
  replace h := h.2
  clear hcut heq
  induction pieces with
  | nil => exact Text.ordinary_nil
  | cons p pieces ih =>
      rw [List.forall_mem_cons] at h
      rw [Text.marked_cons]
      exact Text.ordinary_cons hsep (.append h.1 (ih h.2))

/-- **A special character in a value stands in one of its single values.** -/
theorem ordinary_of_splitValues {c : Condition} (h : ∀ v ∈ splitValues c, v.Ordinary) :
    c.value.Ordinary := by
  refine .of_strip ?_
  unfold splitValues at h
  dsimp only at h
  split at h
  · refine ordinary_of_cut (show Text.isSpecial ',' = false by decide) fun p hp => .of_strip ?_
    by_cases hempty : Text.strip p = []
    · rw [hempty]
      exact Text.ordinary_nil
    · refine h _ (List.mem_filter.mpr ⟨List.mem_map_of_mem hp, ?_⟩)
      simpa using hempty
  · split at h
    · exact ordinary_of_cut (show Text.isSpecial '@' = false by decide) fun p hp =>
        .of_strip (h _ (List.mem_map_of_mem hp))
    · exact h _ (List.mem_singleton_self _)

/-! ## §5. Checked values. -/

/-- The check looks at the characters of the field's values: not for records and secrets, and for a
choice only by comparing it with those of the field. -/
def LooksAtValues (f : Field) : Prop :=
  match f.type with
  | .reference | .password => False
  | .choice => f.choices ≠ [] ∧ ∀ choice ∈ f.choices, choice.value.Ordinary ∧ choice.label.Ordinary
  | _ => True

theorem ordinary_of_textIssues {c : Condition} (h : textIssues c = []) : c.value.Ordinary := by
  intro x hx hmem
  have hspecial : .char '^' ∈ c.value ∨ .char '=' ∈ c.value := by
    rcases Text.eq_of_isSpecial hx with rfl | rfl
    · exact .inl hmem
    · exact .inr hmem
  rw [textIssues, if_pos hspecial, List.singleton_append] at h
  cases h

/-- **The types whose values are looked at are silent about ordinary values alone.** -/
theorem ordinary_of_typedIssues {c : Condition} (hlooks : LooksAtValues c.field)
    (h : typedIssues c = []) : c.value.Ordinary := by
  unfold LooksAtValues at hlooks
  unfold typedIssues at h
  split at h
  · split at h
    next hall =>
      exact ordinary_of_splitValues fun v hv =>
        ordinary_of_numeralChars (numeralChars_of_isIntegerText (List.all_eq_true.mp hall v hv))
    next => cases h
  · split at h
    next hall =>
      exact ordinary_of_splitValues fun v hv =>
        ordinary_of_numeralChars (numeralChars_of_isDecimalText (List.all_eq_true.mp hall v hv))
    next => cases h
  · split at h
    next hone => exact ordinary_of_truthValue hone
    next => cases h
  · split at h
    next hdate => exact Instant.ordinary_of_isDateText hdate
    next => cases h
  · split at h
    next hdate => exact Instant.ordinary_of_isDateText hdate
    next => cases h
  next htype =>
    rw [htype] at hlooks
    split at h
    next hall =>
      rw [Bool.or_eq_true, List.isEmpty_iff, or_iff_right hlooks.1] at hall
      refine ordinary_of_splitValues fun v hv => ?_
      obtain ⟨choice, hchoice, heq⟩ := List.any_eq_true.mp (List.all_eq_true.mp hall v hv)
      obtain ⟨hvalue, hlabel⟩ := hlooks.2 choice hchoice
      rcases of_decide_eq_true heq with rfl | rfl
      · exact hvalue
      · exact hlabel
    next => cases h
  next htype => rw [htype] at hlooks; exact hlooks.elim
  next htype => rw [htype] at hlooks; exact hlooks.elim
  all_goals exact ordinary_of_textIssues h

theorem ordinary_rangeLiteral (a z : Instant) : (Instant.rangeLiteral a z).Ordinary := by
  have hshown : ∀ t : Instant, t.shown.Ordinary := by
    intro t x hx hmem
    have hchar := Instant.isShownChar_of_mem_shown t x hmem
    rcases Text.eq_of_isSpecial hx with rfl | rfl <;> exact absurd hchar (by decide)
  refine .append (.append (.append (.append ?_ (hshown a)) ?_) (hshown z)) ?_ <;>
    exact Text.ordinary_of_all (by decide)

/-- A range that is silent has an ordinary value, which may be empty. -/
theorem ordinary_of_rangeIssues {c : Condition} (h : rangeIssues c = []) : c.value.Ordinary := by
  by_cases hvalue : c.value = []
  · rw [hvalue]
    exact Text.ordinary_nil
  · have hempty : c.value.isEmpty = false := by simpa using hvalue
    unfold rangeIssues at h
    rw [hempty] at h
    cases hread : Instant.readRange c.value with
    | error f => simp [hread, Except.toOption] at h
    | ok range =>
        cases range with
        | none => simp [hread, Except.toOption] at h
        | some ends => exact Instant.ordinary_of_readRange hread

/-- **A value that the check looks at and is silent about is written without special
characters.** -/
theorem ordinary_literal {c : Condition} (hlooks : isRange c = true ∨ LooksAtValues c.field)
    (h : valueIssues c = []) : c.literal.Ordinary := by
  unfold Condition.literal
  split
  next => exact Text.ordinary_nil
  next hvalue =>
    split
    next =>
      split
      · exact ordinary_rangeLiteral _ _
      · exact Text.ordinary_nil
    next =>
      unfold valueIssues at h
      rw [if_neg hvalue] at h
      split at h
      · cases h
      · split at h
        next => exact ordinary_of_rangeIssues h
        next hrange =>
          exact ordinary_of_typedIssues (hlooks.resolve_left hrange) h

end Check

end EncodedQuery

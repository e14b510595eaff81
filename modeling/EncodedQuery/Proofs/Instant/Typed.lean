/-
  EncodedQuery.Proofs.Instant.Typed
  ─────────────────────────────────
  **SHOWN INSTANTS TYPED AS THE ENDS OF A RANGE.**

  The end of a range can be typed in four forms, and the form in which instants
  are shown is tried first.  A shown instant whose year has four digits is read
  in that form.  With fewer digits no form fits: two of them begin with a year
  in four digits, and the other two take a slash, of which a shown instant has
  none.

  Main results: `Instant.read_rangeInput_shown`,
  `Instant.fails_read_rangeInput_shown`.
-/
import EncodedQuery.Proofs.Instant.Shown

namespace EncodedQuery.Instant

/-- The characters of shown instants, one by one. -/
def shownChars : Text := ['0', '1', '2', '3', '4', '5', '6', '7', '8', '9', '-', ':', ' ']

theorem mem_shownChars {c : CodePoint} (h : isShownChar c = true) : c ∈ shownChars := by
  have hdigits : ∀ d < 10, Text.digit d ∈ shownChars := by decide
  simp only [isShownChar, Bool.or_eq_true, decide_eq_true_eq] at h
  rcases h with ((h | rfl) | rfl) | rfl
  · obtain ⟨d, hd, rfl⟩ := Text.exists_digit h
    exact hdigits d hd
  all_goals decide

theorem isPrintable_of_isShownChar {c : CodePoint} (h : isShownChar c = true) :
    Text.isPrintable c = true := by
  have hall : shownChars.all Text.isPrintable = true := by decide
  exact List.all_eq_true.mp hall c (mem_shownChars h)

/-- A shown instant has no slashes. -/
theorem scan?_shown_of_slash {t : Instant} {p : Pattern} (h : .char (.char '/') ∈ p) :
    p.scan? {} t.shown = none := by
  have hall : shownChars.all (!Text.sameLetter '/' ·) = true := by decide +kernel
  by_contra hne
  obtain ⟨x, hx⟩ := Option.ne_none_iff_exists'.mp hne
  obtain ⟨s, ht, hs⟩ := Pattern.exists_takes hx
  obtain ⟨d, hd, hsame⟩ := hs.exists_sameLetter h
  have hmem : d ∈ t.shown := by
    rw [ht]
    exact List.mem_append_left _ hd
  have hother := List.all_eq_true.mp hall d (mem_shownChars (isShownChar_of_mem_shown t d hmem))
  rw [hsame] at hother
  cases hother

/-- **From the year 1000 on a shown instant is read as the end of a range.** -/
theorem read_rangeInput_shown {t : Instant} (h : 1000 ≤ t.date.year) :
    read Pattern.rangeInput t.shown = .ok t.wholeSecond := by
  -- the form in which it is shown is the first one
  unfold read Pattern.rangeInput
  rw [strip_shown, List.findSome?_cons, read_shown h]
  rfl

/-- **Before the year 1000 it is not.** -/
theorem fails_read_rangeInput_shown {t : Instant} (h : t.date.year < 1000) :
    Fails (read Pattern.rangeInput t.shown) := by
  have hnone : ∀ p ∈ Pattern.rangeInput, (p.read t.shown).toOption = none := by
    have hscan : ∀ p ∈ Pattern.rangeInput, p.scan? {} t.shown = none := by
      simp only [Pattern.rangeInput, List.forall_mem_cons, List.not_mem_nil, false_implies,
        implies_true, and_true]
      exact ⟨scan?_shown_of_early h _, scan?_shown_of_early h _, scan?_shown_of_slash (by decide),
        scan?_shown_of_slash (by decide)⟩
    intro p hp
    rw [Pattern.read, hscan p hp]
    rfl
  unfold read
  rw [strip_shown, List.findSome?_eq_none_iff.mpr hnone]
  exact fails_error _

end EncodedQuery.Instant

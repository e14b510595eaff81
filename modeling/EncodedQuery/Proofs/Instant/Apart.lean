/-
  EncodedQuery.Proofs.Instant.Apart
  ─────────────────────────────────
  **NO TEXT IS A DATE IN TWO FORMS.**

  The forms of a date differ in their marks: one has colons or slashes where
  another has none, and the mark `T` stands between day and time in one form
  only.  A mark of one form is no digit, no blank and no mark of the other, so no
  text is taken by both.  Only the two forms with dashes alone have the same
  marks; there the first dash stands behind four digits in one of them and behind
  at most two in the other.

  With at most one form for each text, the order in which forms are tried does
  not matter.

  Main results:
    • `Pattern.pairwise_apart_accepted`, `Pattern.pairwise_apart_rangeInput` —
      the forms of one list take different texts,
    • `Instant.read_perm` — such a list is read alike in every order,
    • `Instant.at_most_one_form` — both together.
-/
import EncodedQuery.Proofs.Fault
import EncodedQuery.Proofs.Instant.Taken
import EncodedQuery.Proofs.Text.Case

namespace EncodedQuery

/-! ## §1. Patterns that take different texts. -/

/-- The part is a literal character that is one letter with `c`. -/
def PatternPart.isMark (c : CodePoint) : PatternPart → Bool
  | .char m => Text.sameLetter m c
  | _ => false

namespace Pattern

/-- No text is taken by both patterns. -/
def Apart (p q : Pattern) : Prop := ∀ t, p.Takes t → ¬ q.Takes t

theorem Apart.symm {p q : Pattern} (h : p.Apart q) : q.Apart p := by
  intro t hq hp
  exact h t hp hq

/-- The pattern has a mark of which the other one has no letter. -/
def tells (p q : Pattern) : Bool :=
  ("/:T" : Text).any (fun m => decide (.char m ∈ p) &&
    ("-/:TtZz" : Text).all (fun c => !Text.sameLetter m c || q.all (fun part => !part.isMark c)))

/-- The characters of marks are no digits and no blanks. -/
theorem plain_of_mark :
    ∀ c ∈ ("-/:TtZz" : Text), Text.isDigit c = false ∧ Text.isBlank c = false := by
  have hall : ("-/:TtZz" : Text).all
      (fun c => decide (Text.isDigit c = false ∧ Text.isBlank c = false)) := by
    decide +kernel
  intro c hc
  exact of_decide_eq_true (List.all_eq_true.mp hall c hc)

/-- **A mark tells two patterns apart.** -/
theorem apart_of_tells {p q : Pattern} (h : p.tells q = true) : p.Apart q := by
  obtain ⟨m, hm, h⟩ := List.any_eq_true.mp h
  rw [Bool.and_eq_true, decide_eq_true_eq, List.all_eq_true] at h
  obtain ⟨hp, hq⟩ := h
  have hmark : m ∈ ("-/:TZ" : Text) := by
    have hall : ("/:T" : Text).all (fun m => decide (m ∈ ("-/:TZ" : Text))) := by decide
    exact of_decide_eq_true (List.all_eq_true.mp hall m hm)
  intro t htp htq
  -- the text of `p` has a letter of the mark, and `q` has no place for it
  obtain ⟨c, hc, hsame⟩ := htp.exists_sameLetter hp
  have hform := Text.mem_of_sameLetter hmark hsame
  obtain ⟨hdigit, hblank⟩ := plain_of_mark c hform
  have hnone := hq c hform
  rw [hsame, Bool.not_true, Bool.false_or, List.all_eq_true] at hnone
  rcases htq.cases_of_mem hc with h | h | ⟨m', hm', hsame'⟩
  · rw [hdigit] at h
    cases h
  · rw [hblank] at h
    cases h
  · have hother : Text.sameLetter m' c = false := by
      simpa [PatternPart.isMark] using hnone (.char m') hm'
    rw [hsame'] at hother
    cases hother

/-- **A year in front is no month in front**: the first mark stands behind four digits, or else
behind at most two. -/
theorem apart_of_lead {m : CodePoint} (hm : m ∈ ("-/:TZ" : Text)) (p q : Pattern) :
    Apart (.year :: p) (.month :: .char m :: q) := by
  rintro t ⟨front, back, rfl, ⟨hlen, hdigits⟩, _⟩ ⟨short, back', ht, ⟨hshort, _⟩, hback'⟩
  obtain ⟨mark, rest, rfl, ⟨c, rfl, hsame⟩, _⟩ := hback'
  -- the character behind the month is one of the digits of the year
  have hc : (front ++ back)[short.length]? = some c := by
    rw [ht, List.getElem?_append_right (Nat.le_refl _), Nat.sub_self]
    rfl
  rw [List.getElem?_append_left (by omega)] at hc
  have hdigit := hdigits c (List.mem_of_getElem? hc)
  rw [(plain_of_mark c (Text.mem_of_sameLetter hm hsame)).1] at hdigit
  cases hdigit

/-- **The forms of a date value take different texts.** -/
theorem pairwise_apart_accepted : accepted.Pairwise Apart := by
  have htold : accepted.Pairwise (fun p q => p.tells q = true ∨ q.tells p = true ∨
      (p = day ∧ q = [.month, .char '-', .day, .char '-', .year])) := by
    decide +kernel
  apply htold.imp
  rintro p q (h | h | ⟨rfl, rfl⟩)
  · exact apart_of_tells h
  · exact (apart_of_tells h).symm
  · exact apart_of_lead (by decide) _ _

/-- **The forms of a typed end of a range take different texts.** -/
theorem pairwise_apart_rangeInput : rangeInput.Pairwise Apart := by
  have htold : rangeInput.Pairwise (fun p q => p.tells q = true ∨ q.tells p = true) := by
    decide +kernel
  apply htold.imp
  rintro p q (h | h)
  · exact apart_of_tells h
  · exact (apart_of_tells h).symm

/-- At most one of two such patterns reads a text. -/
theorem Apart.fails_or {p q : Pattern} (h : p.Apart q) (t : Text) :
    Fails (p.read t) ∨ Fails (q.read t) := by
  by_contra hnot
  rw [not_or] at hnot
  obtain ⟨i, hi⟩ := exists_ok_of_not_fails hnot.1
  obtain ⟨j, hj⟩ := exists_ok_of_not_fails hnot.2
  exact h t (takes_of_read hi) (takes_of_read hj)

end Pattern

/-! ## §2. The order of the forms. -/

/-- The first answer is the same in every order when there is at most one. -/
theorem findSome?_perm {α β : Type} {f : α → Option β} {l l' : List α} (h : l.Perm l') :
    l.Pairwise (fun a b => f a = none ∨ f b = none) → l.findSome? f = l'.findSome? f := by
  induction h with
  | nil => intro _; rfl
  | cons a _ ih =>
      intro hp
      rw [List.findSome?_cons, List.findSome?_cons, ih (List.pairwise_cons.mp hp).2]
  | swap a b l =>
      intro hp
      have hab := (List.pairwise_cons.mp hp).1 a List.mem_cons_self
      simp only [List.findSome?_cons]
      rcases hab with h | h
      · rw [h]
      · rw [h]
  | trans h _ ih ih' =>
      intro hp
      exact (ih hp).trans (ih' (h.pairwise hp Or.symm))

namespace Instant

/-- **Forms that take different texts are tried in any order.** -/
theorem read_perm {forms forms' : List Pattern} (h : forms.Perm forms')
    (hp : forms.Pairwise Pattern.Apart) (t : Text) : read forms t = read forms' t := by
  have hnone : forms.Pairwise (fun p q => (p.read (Text.strip t)).toOption = none ∨
      (q.read (Text.strip t)).toOption = none) := by
    apply hp.imp
    intro p q hpq
    rcases hpq.fails_or (Text.strip t) with ⟨f, hf⟩ | ⟨f, hf⟩
    · exact .inl (by rw [hf]; rfl)
    · exact .inr (by rw [hf]; rfl)
  unfold read
  rw [findSome?_perm h hnone]

/-- **At most one form reads a text**, of the forms of a date value and of the forms of a typed end
of a range, and so the answer is the same in whatever order the forms are tried. -/
theorem at_most_one_form (t : Text) :
    (Pattern.accepted.Pairwise (fun p q => Fails (p.read t) ∨ Fails (q.read t)) ∧
      ∀ forms, forms.Perm Pattern.accepted → read forms t = read Pattern.accepted t) ∧
    (Pattern.rangeInput.Pairwise (fun p q => Fails (p.read t) ∨ Fails (q.read t)) ∧
      ∀ forms, forms.Perm Pattern.rangeInput → read forms t = read Pattern.rangeInput t) := by
  constructor
  · refine ⟨Pattern.pairwise_apart_accepted.imp (fun h => h.fails_or t), ?_⟩
    intro forms hforms
    exact (read_perm hforms.symm Pattern.pairwise_apart_accepted t).symm
  · refine ⟨Pattern.pairwise_apart_rangeInput.imp (fun h => h.fails_or t), ?_⟩
    intro forms hforms
    exact (read_perm hforms.symm Pattern.pairwise_apart_rangeInput t).symm

/-- A day in February 2024, month first, with the forms tried from the last to the first. -/
theorem at_most_one_form_backwards :
    (Pattern.accepted.reverse.Perm Pattern.accepted ∧
      read Pattern.accepted.reverse "2-03-2024" = .ok (startOf ⟨2024, 2, 3, by decide⟩)) ∧
    (Pattern.rangeInput.reverse.Perm Pattern.rangeInput ∧
      read Pattern.rangeInput.reverse "2/03/2024" = .ok (startOf ⟨2024, 2, 3, by decide⟩)) := by
  have haccepted : Pattern.accepted.reverse.Perm Pattern.accepted := List.reverse_perm _
  have hrange : Pattern.rangeInput.reverse.Perm Pattern.rangeInput := List.reverse_perm _
  refine ⟨⟨haccepted, ?_⟩, hrange, ?_⟩
  · rw [(at_most_one_form "2-03-2024").1.2 _ haccepted]
    rfl
  · rw [(at_most_one_form "2/03/2024").2.2 _ hrange]
    rfl

end Instant

end EncodedQuery

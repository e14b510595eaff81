/-
  EncodedQuery.Proofs.Instant.Taken
  ─────────────────────────────────
  **WHAT A PATTERN TAKES FROM A TEXT.**

  Each part of a pattern takes a piece from the front of the text and leaves
  the rest as it is: a year four digits, another number one or two places,
  blanks one blank or more, and a literal character a character that is the
  same letter.  A text that a whole pattern takes is made of digits, blanks and
  the pattern's own literal characters, and none of these is missing.

  Main results:
    • `PatternPart.exists_takes`, `Pattern.exists_takes` — reading takes such
      pieces,
    • `Pattern.Takes.exists_sameLetter`, `Pattern.Takes.cases_of_mem` — which
      characters a text of the pattern has, and which it can have.
-/
import EncodedQuery.Instant.Pattern
import EncodedQuery.Proofs.Fault
import EncodedQuery.Proofs.Text.Numeral

namespace EncodedQuery

/-! ## §1. Pieces. -/

/-- One or two digits, of any script. -/
def IsShortNumeral (s : Text) : Prop :=
  (s.length = 1 ∨ s.length = 2) ∧ ∀ c ∈ s, Text.isDigit c = true

/-- The piece can be what the part takes. -/
def PatternPart.Takes : PatternPart → Text → Prop
  | .year, s => s.length = 4 ∧ ∀ c ∈ s, Text.isDigit c = true
  | .day, s => IsShortNumeral s ∨ ∃ d, s = [.char ' ', d] ∧ Text.isDigit d = true
  | .blanks, s => s ≠ [] ∧ ∀ c ∈ s, Text.isBlank c = true
  | .char m, s => ∃ c, s = [c] ∧ Text.sameLetter m c = true
  | .month, s | .hour, s | .minute, s | .second, s => IsShortNumeral s

/-- The text can be what the pattern takes: piece by piece, what its parts take. -/
def Pattern.Takes : Pattern → Text → Prop
  | [], s => s = []
  | part :: p, s => ∃ front back, s = front ++ back ∧ part.Takes front ∧ Takes p back

/-! ## §2. Numbers. -/

/-- The reader of single places reads digits only. -/
def ReadsDigits (place : CodePoint → Option Nat) : Prop :=
  ∀ c n, place c = some n → Text.isDigit c = true

theorem readsDigits_digitValue? : ReadsDigits Text.digitValue? := by
  intro c n h
  rw [Text.isDigit, h]
  rfl

theorem readsDigits_digitBetween {lo hi : CodePoint} (h : '0' ≤ lo ∧ hi ≤ '9') :
    ReadsDigits (digitBetween lo hi) := by
  intro c n hread
  have hbetween : lo ≤ c ∧ c ≤ hi := by
    by_contra hnot
    rw [digitBetween, if_neg hnot] at hread
    cases hread
  have hascii : Text.isAsciiDigit c = true := by
    rw [Text.isAsciiDigit, Text.asciiDigitValue?,
      if_pos ⟨Nat.le_trans h.1 hbetween.1, Nat.le_trans hbetween.2 h.2⟩]
    rfl
  obtain ⟨d, hd, rfl⟩ := Text.exists_digit hascii
  exact readsDigits_digitValue? _ _ (Text.digitValue?_digit d hd)

section
variable {tens ones : CodePoint → Option Nat} {t : Text} {x : Nat × Text}

theorem exists_of_mem_oneDigitForm (hones : ReadsDigits ones) (h : x ∈ oneDigitForm ones t) :
    ∃ a, t = a :: x.2 ∧ Text.isDigit a = true := by
  unfold oneDigitForm at h
  split at h
  next a rest =>
    split at h
    next n hn =>
      rw [List.mem_singleton.mp h]
      exact ⟨a, rfl, hones a n hn⟩
    next => cases h
  next => cases h

theorem exists_short_of_mem_oneDigitForm (hones : ReadsDigits ones)
    (h : x ∈ oneDigitForm ones t) : ∃ s, t = s ++ x.2 ∧ IsShortNumeral s := by
  obtain ⟨a, ht, ha⟩ := exists_of_mem_oneDigitForm hones h
  refine ⟨[a], ht, .inl rfl, ?_⟩
  rw [List.forall_mem_singleton]
  exact ha

theorem exists_short_of_mem_twoDigitForm (htens : ReadsDigits tens) (hones : ReadsDigits ones)
    (h : x ∈ twoDigitForm tens ones t) : ∃ s, t = s ++ x.2 ∧ IsShortNumeral s := by
  unfold twoDigitForm at h
  split at h
  next a b rest =>
    split at h
    next n m hn hm =>
      rw [List.mem_singleton.mp h]
      refine ⟨[a, b], rfl, .inr rfl, ?_⟩
      rw [List.forall_mem_cons, List.forall_mem_singleton]
      exact ⟨htens a n hn, hones b m hm⟩
    next => cases h
  next => cases h

theorem takes_of_mem_fourDigitForm (h : x ∈ fourDigitForm t) :
    ∃ s, t = s ++ x.2 ∧ PatternPart.year.Takes s := by
  unfold fourDigitForm at h
  split at h
  next a b c d rest =>
    split at h
    next ha hb hc hd =>
      rw [List.mem_singleton.mp h]
      refine ⟨[a, b, c, d], rfl, rfl, ?_⟩
      simp only [List.forall_mem_cons, List.not_mem_nil, false_implies, implies_true, and_true]
      exact ⟨readsDigits_digitValue? _ _ ha, readsDigits_digitValue? _ _ hb,
        readsDigits_digitValue? _ _ hc, readsDigits_digitValue? _ _ hd⟩
    next => cases h
  next => cases h

end

/-- A number takes its places. -/
theorem PatternPart.takes_of_mem_numbers {p : PatternPart} {t : Text} {x : Nat × Text}
    (h : x ∈ p.numbers t) : ∃ s, t = s ++ x.2 ∧ p.Takes s := by
  have hany := readsDigits_digitValue?
  have hsome : ∀ lo hi : CodePoint, '0' ≤ lo ∧ hi ≤ '9' → ReadsDigits (digitBetween lo hi) :=
    fun lo hi => readsDigits_digitBetween
  cases p with
  | year => exact takes_of_mem_fourDigitForm h
  | month =>
      simp only [numbers, List.mem_append] at h
      rcases h with (h | h) | h
      · exact exists_short_of_mem_twoDigitForm (hsome _ _ (by decide)) (hsome _ _ (by decide)) h
      · exact exists_short_of_mem_twoDigitForm (hsome _ _ (by decide)) (hsome _ _ (by decide)) h
      · exact exists_short_of_mem_oneDigitForm (hsome _ _ (by decide)) h
  | day =>
      have hshort : ∀ {y : Text}, (∃ s, t = s ++ y ∧ IsShortNumeral s) →
          ∃ s, t = s ++ y ∧ day.Takes s := by
        rintro y ⟨s, ht, hs⟩
        exact ⟨s, ht, .inl hs⟩
      simp only [numbers, List.mem_append] at h
      rcases h with (((h | h) | h) | h) | h
      · exact hshort (exists_short_of_mem_twoDigitForm (hsome _ _ (by decide))
          (hsome _ _ (by decide)) h)
      · exact hshort (exists_short_of_mem_twoDigitForm (hsome _ _ (by decide)) hany h)
      · exact hshort (exists_short_of_mem_twoDigitForm (hsome _ _ (by decide))
          (hsome _ _ (by decide)) h)
      · exact hshort (exists_short_of_mem_oneDigitForm (hsome _ _ (by decide)) h)
      · -- a space stands for the tens
        split at h
        next rest =>
          obtain ⟨d, hrest, hd⟩ := exists_of_mem_oneDigitForm (hsome _ _ (by decide)) h
          exact ⟨[' ', d], by rw [hrest]; rfl, .inr ⟨d, rfl, hd⟩⟩
        next => cases h
  | hour =>
      simp only [numbers, List.mem_append] at h
      rcases h with (h | h) | h
      · exact exists_short_of_mem_twoDigitForm (hsome _ _ (by decide)) (hsome _ _ (by decide)) h
      · exact exists_short_of_mem_twoDigitForm (hsome _ _ (by decide)) hany h
      · exact exists_short_of_mem_oneDigitForm hany h
  | minute =>
      simp only [numbers, List.mem_append] at h
      rcases h with h | h
      · exact exists_short_of_mem_twoDigitForm (hsome _ _ (by decide)) hany h
      · exact exists_short_of_mem_oneDigitForm hany h
  | second =>
      simp only [numbers, List.mem_append] at h
      rcases h with (h | h) | h
      · exact exists_short_of_mem_twoDigitForm (hsome _ _ (by decide)) (hsome _ _ (by decide)) h
      · exact exists_short_of_mem_twoDigitForm (hsome _ _ (by decide)) hany h
      · exact exists_short_of_mem_oneDigitForm hany h
  | blanks | char => cases h

/-! ## §3. Parts and whole patterns. -/

theorem exists_of_mem_blankForms {rest : Text} :
    ∀ {t : Text}, rest ∈ blankForms t → ∃ s, t = s ++ rest ∧ PatternPart.blanks.Takes s
  | [], h => by cases h
  | c :: t, h => by
      unfold blankForms at h
      split at h
      next hc =>
        rcases List.mem_append.mp h with hmem | hmem
        · obtain ⟨s, ht, _, hs⟩ := exists_of_mem_blankForms hmem
          refine ⟨c :: s, by rw [ht]; rfl, List.cons_ne_nil c s, ?_⟩
          rw [List.forall_mem_cons]
          exact ⟨hc, hs⟩
        · refine ⟨[c], by rw [List.mem_singleton.mp hmem]; rfl, List.cons_ne_nil c [], ?_⟩
          rw [List.forall_mem_singleton]
          exact hc
      next => cases h

/-- **A part takes a piece from the front.** -/
theorem PatternPart.exists_takes {p : PatternPart} {r : Reading} {t : Text} {x : Reading × Text}
    (h : x ∈ p.readings r t) : ∃ s, t = s ++ x.2 ∧ p.Takes s := by
  cases p with
  | blanks =>
      obtain ⟨rest, hmem, rfl⟩ := List.mem_map.mp h
      exact exists_of_mem_blankForms hmem
  | char m =>
      unfold readings at h
      dsimp only at h
      split at h
      next c rest =>
        split at h
        next hsame =>
          rw [List.mem_singleton.mp h]
          exact ⟨[c], rfl, c, rfl, hsame⟩
        next => cases h
      next => cases h
  | year | month | day | hour | minute | second =>
      obtain ⟨y, hmem, rfl⟩ := List.mem_map.mp h
      exact takes_of_mem_numbers hmem

/-- What it takes is digits, blanks and its literal character. -/
theorem PatternPart.Takes.cases_of_mem {p : PatternPart} {s : Text} {c : CodePoint} (h : p.Takes s)
    (hc : c ∈ s) :
    Text.isDigit c = true ∨ Text.isBlank c = true ∨
      ∃ m, p = .char m ∧ Text.sameLetter m c = true := by
  cases p with
  | year => exact .inl (h.2 c hc)
  | day =>
      rcases h with h | ⟨d, rfl, hd⟩
      · exact .inl (h.2 c hc)
      · rcases List.mem_cons.mp hc with rfl | hc
        · exact .inr (.inl (by decide))
        · rw [List.mem_singleton.mp hc]
          exact .inl hd
  | month | hour | minute | second => exact .inl (h.2 c hc)
  | blanks => exact .inr (.inl (h.2 c hc))
  | char m =>
      obtain ⟨d, rfl, hsame⟩ := h
      rw [List.mem_singleton.mp hc]
      exact .inr (.inr ⟨m, rfl, hsame⟩)

namespace Pattern

/-- **A pattern takes the pieces of its parts.** -/
theorem exists_takes {p : Pattern} :
    ∀ {r : Reading} {t : Text} {x : Reading × Text}, p.scan? r t = some x →
      ∃ s, t = s ++ x.2 ∧ p.Takes s := by
  induction p with
  | nil =>
      intro r t x h
      cases h
      exact ⟨[], rfl, rfl⟩
  | cons part p ih =>
      intro r t x h
      obtain ⟨y, hmem, hrest⟩ := List.exists_of_findSome?_eq_some h
      obtain ⟨front, ht, hfront⟩ := PatternPart.exists_takes hmem
      obtain ⟨back, hy, hback⟩ := ih hrest
      refine ⟨front ++ back, ?_, front, back, rfl, hfront, hback⟩
      rw [ht, hy, List.append_assoc]

/-- A text that is read by a pattern is taken as a whole. -/
theorem takes_of_read {p : Pattern} {t : Text} {i : Instant} (h : p.read t = .ok i) :
    p.Takes t := by
  unfold read at h
  split at h
  next => cases h
  next r hscan =>
    obtain ⟨s, ht, hs⟩ := exists_takes hscan
    rw [List.append_nil] at ht
    rw [ht]
    exact hs
  next => cases h

end Pattern

/-- What is read in one of several forms is read in one of them, blanks at the ends apart. -/
theorem Instant.exists_of_read {forms : List Pattern} {t : Text} {i : Instant}
    (h : read forms t = .ok i) : ∃ p ∈ forms, p.read (Text.strip t) = .ok i := by
  unfold read at h
  split at h
  next j hfound =>
    cases h
    obtain ⟨p, hp, hread⟩ := List.exists_of_findSome?_eq_some hfound
    refine ⟨p, hp, ?_⟩
    cases hok : p.read (Text.strip t) with
    | error f =>
        rw [hok] at hread
        cases hread
    | ok k =>
        rw [hok] at hread
        cases hread
        rfl
  next => cases h

/-- Reading in several forms has one way to fail: the text is no date. -/
theorem Instant.read_eq_error {forms : List Pattern} {t : Text} (h : Fails (read forms t)) :
    read forms t = .error (.badLiteral t "date") := by
  obtain ⟨f, hf⟩ := h
  unfold read at hf ⊢
  split at hf
  next => cases hf
  next => rfl

/-! ## §4. The characters of a text. -/

namespace Pattern

/-- **Each literal character of the pattern is in the text.** -/
theorem Takes.exists_sameLetter {m : CodePoint} {p : Pattern} :
    ∀ {s : Text}, p.Takes s → .char m ∈ p → ∃ c ∈ s, Text.sameLetter m c = true := by
  induction p with
  | nil =>
      intro s _ hm
      cases hm
  | cons part p ih =>
      rintro s ⟨front, back, rfl, hfront, hback⟩ hm
      rcases List.mem_cons.mp hm with rfl | hm
      · obtain ⟨c, rfl, hsame⟩ := hfront
        exact ⟨c, List.mem_append_left _ (List.mem_singleton_self c), hsame⟩
      · obtain ⟨c, hc, hsame⟩ := ih hback hm
        exact ⟨c, List.mem_append_right _ hc, hsame⟩

/-- **There are only digits, blanks and the literal characters of the pattern in it.** -/
theorem Takes.cases_of_mem {c : CodePoint} {p : Pattern} :
    ∀ {s : Text}, p.Takes s → c ∈ s →
      Text.isDigit c = true ∨ Text.isBlank c = true ∨
        ∃ m, .char m ∈ p ∧ Text.sameLetter m c = true := by
  induction p with
  | nil =>
      intro s h hc
      rw [show s = [] from h] at hc
      cases hc
  | cons part p ih =>
      rintro s ⟨front, back, rfl, hfront, hback⟩ hc
      rcases List.mem_append.mp hc with hc | hc
      · rcases hfront.cases_of_mem hc with hdigit | hblank | ⟨m, rfl, hsame⟩
        · exact .inl hdigit
        · exact .inr (.inl hblank)
        · exact .inr (.inr ⟨m, List.mem_cons_self, hsame⟩)
      · rcases ih hback hc with hdigit | hblank | ⟨m, hm, hsame⟩
        · exact .inl hdigit
        · exact .inr (.inl hblank)
        · exact .inr (.inr ⟨m, List.mem_cons_of_mem part hm, hsame⟩)

end Pattern

end EncodedQuery

/-
  EncodedQuery.Proofs.Instant.Shown
  ─────────────────────────────────
  **SHOWN INSTANTS AND THE PATTERN OF THE BACKEND.**

  An instant is shown with its year in plain digits and without a fraction of a
  second, and the pattern that reads it asks for a year in four digits.  So an
  instant from the year 1000 on is read back to the second, and an earlier one
  is not read at all.

  Main results:
    • `read_shown`, `fails_read_shown` — what a shown instant is read as,
    • `readRange_rangeLiteral_eq` — when a range literal is read, and as what,
    • `readRange_rangeLiteral_whole` — which range literals are read back.
-/
import EncodedQuery.Instant.Range
import EncodedQuery.Proofs.Date.Ordinal
import EncodedQuery.Proofs.Instant.Taken
import EncodedQuery.Proofs.Text.Encodable
import EncodedQuery.Proofs.Text.Pieces
import Mathlib.Tactic.IntervalCases

namespace EncodedQuery

/-! ## §1. Numbers of two digits. -/

namespace PatternPart

section
variable {n : Nat} (rest : Text)

theorem numbers_month (h : 1 ≤ n ∧ n ≤ 12) :
    ∃ others, month.numbers (Text.twoDigits n ++ rest) = (n, rest) :: others := by
  obtain ⟨hlow, hhigh⟩ := h
  interval_cases n <;> exact ⟨_, rfl⟩

theorem numbers_day (h : 1 ≤ n ∧ n ≤ 31) :
    ∃ others, day.numbers (Text.twoDigits n ++ rest) = (n, rest) :: others := by
  obtain ⟨hlow, hhigh⟩ := h
  interval_cases n <;> exact ⟨_, rfl⟩

theorem numbers_hour (h : n < 24) :
    ∃ others, hour.numbers (Text.twoDigits n ++ rest) = (n, rest) :: others := by
  interval_cases n <;> exact ⟨_, rfl⟩

theorem numbers_minute (h : n < 60) :
    ∃ others, minute.numbers (Text.twoDigits n ++ rest) = (n, rest) :: others := by
  interval_cases n <;> exact ⟨_, rfl⟩

theorem numbers_second (h : n < 60) :
    ∃ others, second.numbers (Text.twoDigits n ++ rest) = (n, rest) :: others := by
  interval_cases n <;> exact ⟨_, rfl⟩

end

/-! ## §2. Years. -/

theorem numbers_year {y : Nat} (rest : Text) (h : 1000 ≤ y ∧ y ≤ 9999) :
    ∃ others, year.numbers (Text.ofNat y ++ rest) = (y, rest) :: others := by
  have hlen : 4 ≤ (Text.ofNat y).length := by
    by_contra hshort
    have hlt := (Text.length_ofNat_le_iff (by decide)).mp
      (Nat.le_of_lt_succ (Nat.lt_of_not_le hshort))
    omega
  have hplain : Text.zeroPadded 4 (Text.ofNat y) = Text.ofNat y := by
    rw [Text.zeroPadded, Nat.sub_eq_zero_of_le hlen]
    rfl
  refine ⟨[], ?_⟩
  rw [← hplain, Text.zeroPadded_four (by omega)]
  simp only [numbers, fourDigitForm, List.cons_append, List.nil_append]
  rw [Text.digitValue?_digit _ (by omega), Text.digitValue?_digit _ (by omega),
    Text.digitValue?_digit _ (by omega), Text.digitValue?_digit _ (by omega)]
  -- the number is put together again from its four digits
  have hsum : 1000 * (y / 1000) + 100 * (y / 100 % 10) + 10 * (y / 10 % 10) + y % 10 = y := by omega
  simp only [hsum]

/-- Before the year 1000 the mark behind the year stands among its four places. -/
theorem numbers_early_year {y : Nat} (rest : Text) (h : y < 1000) :
    year.numbers (Text.ofNat y ++ .char '-' :: rest) = [] := by
  have hmark : Text.digitValue? '-' = none := by decide
  by_cases h₁ : y < 10
  · rw [Text.ofNat_of_lt h₁]
    rcases rest with _ | ⟨a, _ | ⟨b, rest⟩⟩ <;> simp [numbers, fourDigitForm, hmark]
  · rw [Text.ofNat_of_le (Nat.le_of_not_lt h₁)]
    by_cases h₂ : y < 100
    · rw [Text.ofNat_of_lt (by omega)]
      rcases rest with _ | ⟨a, rest⟩ <;> simp [numbers, fourDigitForm, hmark]
    · rw [Text.ofNat_of_le (by omega), Text.ofNat_of_lt (by omega)]
      simp [numbers, fourDigitForm, hmark]

end PatternPart

/-! ## §3. A whole pattern. -/

namespace Pattern

/-- The first reading of a part is taken when the other parts suit what is left. -/
theorem scan?_cons {p : PatternPart} {ps : Pattern} {r r' : Reading} {t rest : Text}
    {others : List (Reading × Text)} {x : Reading × Text}
    (h : p.readings r t = (r', rest) :: others) (hx : scan? ps r' rest = some x) :
    scan? (p :: ps) r t = some x := by
  rw [scan?, h, List.findSome?_cons]
  simp only [hx]

theorem scan?_char {c : CodePoint} {ps : Pattern} {r : Reading} {rest : Text} {x : Reading × Text}
    (hx : scan? ps r rest = some x) : scan? (.char c :: ps) r (c :: rest) = some x := by
  have hreadings : (PatternPart.char c).readings r (c :: rest) = [(r, rest)] := by
    simp [PatternPart.readings, Text.sameLetter]
  exact scan?_cons hreadings hx

theorem scan?_blanks {ps : Pattern} {r : Reading} {rest : Text} {x : Reading × Text}
    (hrest : ∀ c ∈ rest.head?, Text.isBlank c = false) (hx : scan? ps r rest = some x) :
    scan? (.blanks :: ps) r (.char ' ' :: rest) = some x := by
  have hnone : blankForms rest = [] := by
    cases rest with
    | nil => rfl
    | cons c rest => simp [blankForms, hrest c rfl]
  have hreadings : PatternPart.blanks.readings r (.char ' ' :: rest) = [(r, rest)] := by
    simp [PatternPart.readings, blankForms, hnone, show Text.isBlank ' ' = true by decide]
  exact scan?_cons hreadings hx

/-- A part that is a number is scanned by its numbers. -/
theorem scan?_number {p : PatternPart} {ps : Pattern} {r : Reading} {t rest : Text} {n : Nat}
    {f : Nat → Reading} {x : Reading × Text}
    (hp : p.readings r t = (p.numbers t).map (fun m => (f m.1, m.2)))
    (h : ∃ others, p.numbers t = (n, rest) :: others) (hx : scan? ps (f n) rest = some x) :
    scan? (p :: ps) r t = some x := by
  obtain ⟨others, h⟩ := h
  rw [h] at hp
  exact scan?_cons hp hx

end Pattern

/-! ## §4. Shown instants. -/

namespace Instant

/-- The instant without its fraction of a second. -/
def wholeSecond (t : Instant) : Instant :=
  { t with micro := 0, isTime := ⟨t.isTime.1, t.isTime.2.1, t.isTime.2.2.1, by decide⟩ }

theorem wholeSecond_eq_self {t : Instant} (h : t.micro = 0) : t.wholeSecond = t := by
  obtain ⟨date, hour, minute, second, micro, isTime⟩ := t
  cases h
  rfl

/-- The numbers that an instant is shown by. -/
def reading (t : Instant) : Reading :=
  ⟨t.date.year, t.date.month, t.date.day, t.hour, t.minute, t.second⟩

theorem instant_reading (t : Instant) : t.reading.instant = .ok t.wholeSecond := by
  have hdate : Date.of? t.date.year t.date.month t.date.day = some t.date := dif_pos t.date.isDay
  have htime : Instant.of? t.date t.hour t.minute t.second 0 = some t.wholeSecond :=
    dif_pos t.wholeSecond.isTime
  simp only [Reading.instant, reading, hdate, htime]

/-- The shown form, from mark to mark. -/
theorem shown_eq (t : Instant) :
    t.shown = Text.ofNat t.date.year ++ .char '-' :: (Text.twoDigits t.date.month ++ .char '-' ::
      (Text.twoDigits t.date.day ++ .char ' ' :: (Text.twoDigits t.hour ++ .char ':' ::
        (Text.twoDigits t.minute ++ .char ':' :: Text.twoDigits t.second)))) := by
  simp [shown, Date.shown, clockTime]

/-- From the year 1000 on the pattern takes a shown instant as a whole. -/
theorem scan?_shown {t : Instant} (h : 1000 ≤ t.date.year) :
    Pattern.scan? Pattern.backend {} t.shown = some (t.reading, []) := by
  have hyear := t.date.isDay.1
  have hmonth := t.date.isDay.2.1
  have hday : 1 ≤ t.date.day ∧ t.date.day ≤ 31 := ⟨t.date.isDay.2.2.1, t.date.day_le⟩
  obtain ⟨hhour, hminute, hsecond, _⟩ := t.isTime
  have hclock : ∀ c ∈ (Text.twoDigits t.hour ++ .char ':' :: (Text.twoDigits t.minute ++
      .char ':' :: Text.twoDigits t.second)).head?, Text.isBlank c = false := by
    rw [Text.twoDigits_eq (by omega)]
    rintro c ⟨⟩
    have hblank : ∀ d < 10, Text.isBlank (Text.digit d) = false := by decide
    exact hblank _ (by omega)
  rw [shown_eq]
  -- part by part, each number with the text up to the next mark
  apply Pattern.scan?_number (f := fun n => { year := n }) rfl
    (PatternPart.numbers_year _ ⟨h, hyear.2⟩)
  apply Pattern.scan?_char
  apply Pattern.scan?_number (f := fun n => { year := t.date.year, month := n }) rfl
    (PatternPart.numbers_month _ hmonth)
  apply Pattern.scan?_char
  apply Pattern.scan?_number
    (f := fun n => { year := t.date.year, month := t.date.month, day := n }) rfl
    (PatternPart.numbers_day _ hday)
  apply Pattern.scan?_blanks hclock
  apply Pattern.scan?_number
    (f := fun n => ⟨t.date.year, t.date.month, t.date.day, n, 0, 0⟩) rfl
    (PatternPart.numbers_hour _ hhour)
  apply Pattern.scan?_char
  apply Pattern.scan?_number
    (f := fun n => ⟨t.date.year, t.date.month, t.date.day, t.hour, n, 0⟩) rfl
    (PatternPart.numbers_minute _ hminute)
  apply Pattern.scan?_char
  have hlast := PatternPart.numbers_second [] hsecond
  rw [List.append_nil] at hlast
  exact Pattern.scan?_number
    (f := fun n => ⟨t.date.year, t.date.month, t.date.day, t.hour, t.minute, n⟩) rfl hlast rfl

/-- **From the year 1000 on a shown instant is read back to the second.** -/
theorem read_shown {t : Instant} (h : 1000 ≤ t.date.year) :
    Pattern.backend.read t.shown = .ok t.wholeSecond := by
  rw [Pattern.read, scan?_shown h]
  exact instant_reading t

/-- Before the year 1000 no pattern that begins with a year suits a shown instant. -/
theorem scan?_shown_of_early {t : Instant} (h : t.date.year < 1000) (p : Pattern) :
    Pattern.scan? (.year :: p) {} t.shown = none := by
  have hyear : PatternPart.year.readings {} t.shown = [] := by
    rw [PatternPart.readings, shown_eq, PatternPart.numbers_early_year _ h]
    rfl
  rw [Pattern.scan?, hyear]
  rfl

/-- **Before the year 1000 it is not read.** -/
theorem fails_read_shown {t : Instant} (h : t.date.year < 1000) :
    Fails (Pattern.backend.read t.shown) := by
  have hnone : Pattern.scan? Pattern.backend {} t.shown = none := scan?_shown_of_early h _
  rw [Pattern.read, hnone]
  exact fails_error _

/-! ## §5. Whole seconds. -/

/-- No pattern has a place for a fraction of a second. -/
theorem micro_of_patternRead {p : Pattern} {s : Text} {t : Instant} (h : p.read s = .ok t) :
    t.micro = 0 := by
  have hreading : ∀ {r : Reading}, r.instant = .ok t → t.micro = 0 := by
    intro r hr
    unfold Reading.instant at hr
    split at hr
    · cases hr
    · split at hr
      next hof =>
        cases hr
        unfold Instant.of? at hof
        split at hof <;> cases hof
        rfl
      next => cases hr
  unfold Pattern.read at h
  split at h
  · cases h
  · exact hreading h
  · cases h

theorem micro_of_read {forms : List Pattern} {s : Text} {t : Instant} (h : read forms s = .ok t) :
    t.micro = 0 := by
  obtain ⟨p, _, hp⟩ := exists_of_read h
  exact micro_of_patternRead hp

/-- Both ends of a range that is read are whole seconds. -/
theorem micro_of_readRange {s : Text} {a z : Instant} (h : readRange s = .ok (some (a, z))) :
    a.micro = 0 ∧ z.micro = 0 := by
  unfold readRange at h
  split at h
  · cases h
  next x y _ =>
    cases hx : read [Pattern.backend] x with
    | error e =>
        rw [hx] at h
        cases h
    | ok t =>
        cases hy : read [Pattern.backend] y with
        | error e =>
            rw [hx, hy] at h
            cases h
        | ok u =>
            rw [hx, hy] at h
            cases h
            exact ⟨micro_of_read hx, micro_of_read hy⟩

/-! ## §6. Range literals. -/

/-- The characters of a shown instant. -/
def isShownChar (c : CodePoint) : Bool := Text.isAsciiDigit c || c = '-' || c = ':' || c = ' '

theorem isShownChar_of_mem_shown (t : Instant) : ∀ c ∈ t.shown, isShownChar c = true := by
  have hdigit : ∀ {c}, Text.isAsciiDigit c = true → isShownChar c = true := by
    intro c hc
    simp [isShownChar, hc]
  have htwo : ∀ n, ∀ c ∈ Text.twoDigits n, isShownChar c = true :=
    fun n c hc => hdigit (Text.isAsciiDigit_of_mem_zeroPadded 2 n c hc)
  have hyear : ∀ n, ∀ c ∈ Text.ofNat n, isShownChar c = true :=
    fun n c hc => hdigit (Text.isAsciiDigit_of_mem_ofNat n c hc)
  intro c hc
  rw [shown_eq] at hc
  simp only [List.mem_append, List.mem_cons] at hc
  rcases hc with hc | rfl | hc | rfl | hc | rfl | hc | rfl | hc | rfl | hc
  · exact hyear _ c hc
  · rfl
  · exact htwo _ c hc
  · rfl
  · exact htwo _ c hc
  · rfl
  · exact htwo _ c hc
  · rfl
  · exact htwo _ c hc
  · rfl
  · exact htwo _ c hc

/-- A shown instant begins and ends with a digit. -/
theorem strip_shown (t : Instant) : Text.strip t.shown = t.shown := by
  have hblank : ∀ c, Text.isAsciiDigit c = true → Text.isBlank c = false := by
    have hall : ∀ d < 10, Text.isBlank (Text.digit d) = false := by decide
    intro c hc
    obtain ⟨d, hd, rfl⟩ := Text.exists_digit hc
    exact hall d hd
  refine Text.strip_eq_self ⟨?_, ?_⟩
  · intro c hc
    obtain ⟨d, ds, hyear⟩ := List.exists_cons_of_ne_nil (Text.ofNat_ne_nil t.date.year)
    rw [shown_eq, hyear] at hc
    cases hc
    exact hblank _ (Text.isAsciiDigit_of_mem_ofNat t.date.year _ (by rw [hyear]; simp))
  · have hsecond := Text.twoDigits_eq (n := t.second) (by have := t.isTime.2.2.1; omega)
    have hend : t.shown = (t.date.shown ++ " " ++ Text.twoDigits t.hour ++ ":" ++
        Text.twoDigits t.minute ++ [.char ':', Text.digit (t.second / 10)]) ++
          [Text.digit (t.second % 10)] := by
      simp [shown, clockTime, hsecond]
    rw [hend, List.getLast?_concat]
    rintro c ⟨⟩
    exact hblank _ (Text.isAsciiDigit_digit _ (Nat.mod_lt _ (by decide)))

theorem untilQuote?_append {s : Text} (rest : Text) (h : .char '\'' ∉ s) :
    untilQuote? (s ++ .char '\'' :: rest) = some (s, rest) := by
  induction s with
  | nil => simp [untilQuote?]
  | cons c s ih =>
      have hc : c ≠ '\'' := fun heq => h (heq ▸ List.mem_cons_self)
      simp [untilQuote?, hc, ih (fun hmem => h (List.mem_cons_of_mem c hmem))]

/-- A range literal begins with its function and ends with a bracket. -/
theorem strip_rangeLiteral (a z : Instant) : Text.strip (rangeLiteral a z) = rangeLiteral a z := by
  refine Text.strip_eq_self ⟨?_, ?_⟩
  · rintro c ⟨⟩
    decide
  · have hend : rangeLiteral a z =
        (rangeFunction ++ "('" ++ a.shown ++ "','" ++ z.shown ++ "'") ++ [CodePoint.char ')'] := by
      simp [rangeLiteral]
    rw [hend, List.getLast?_concat]
    rintro c ⟨⟩
    decide

theorem looksLikeRange_rangeLiteral (a z : Instant) : looksLikeRange (rangeLiteral a z) = true := by
  rw [looksLikeRange, strip_rangeLiteral, Text.startsWith, List.isPrefixOf_iff_prefix]
  exact ⟨"'" ++ a.shown ++ "','" ++ z.shown ++ "')", by simp [rangeLiteral]⟩

/-- The arguments of a range literal are its two ends as they are shown. -/
theorem rangeArguments?_rangeLiteral (a z : Instant) :
    rangeArguments? (Text.strip (rangeLiteral a z)) = some (a.shown, z.shown) := by
  have hquote : ∀ t : Instant, .char '\'' ∉ t.shown := by
    intro t hmem
    exact absurd (isShownChar_of_mem_shown t _ hmem) (by decide)
  have hliteral : rangeLiteral a z = (rangeFunction ++ "('") ++
      (a.shown ++ CodePoint.char '\'' :: (",'" ++ (z.shown ++ CodePoint.char '\'' :: ")"))) := by
    simp [rangeLiteral]
  rw [strip_rangeLiteral, hliteral, rangeArguments?, Text.dropHead?_eq_some_iff.mpr rfl]
  simp only [Option.bind_eq_bind, Option.bind_some]
  rw [untilQuote?_append _ (hquote a)]
  simp only [Option.bind_some]
  rw [Text.dropHead?_eq_some_iff.mpr rfl]
  simp only [Option.bind_some]
  rw [untilQuote?_append _ (hquote z)]
  rfl

/-- The only form tried decides. -/
theorem read_singleton {p : Pattern} {t : Text} (ht : Text.strip t = t) :
    (∀ x, p.read t = .ok x → read [p] t = .ok x) ∧ (Fails (p.read t) → Fails (read [p] t)) := by
  constructor
  · intro x hx
    simp [read, ht, hx, Except.toOption]
  · rintro ⟨f, hf⟩
    simp [read, ht, hf, Except.toOption]

/-- An end of a range literal is read to the second, unless it lies before the year 1000. -/
theorem read_backend_shown (t : Instant) :
    read [Pattern.backend] t.shown =
      if t.date.year < 1000 then .error (.badLiteral t.shown "date") else .ok t.wholeSecond := by
  by_cases h : t.date.year < 1000
  · rw [if_pos h]
    exact read_eq_error ((read_singleton (strip_shown t)).2 (fails_read_shown h))
  · rw [if_neg h]
    exact (read_singleton (strip_shown t)).1 _ (read_shown (Nat.le_of_not_lt h))

/-- **What a range literal is read as**: the start is read before the end. -/
theorem readRange_rangeLiteral_eq (a z : Instant) :
    readRange (rangeLiteral a z) =
      if a.date.year < 1000 then .error (.badLiteral a.shown "date")
      else if z.date.year < 1000 then .error (.badLiteral z.shown "date")
      else .ok (some (a.wholeSecond, z.wholeSecond)) := by
  unfold readRange
  rw [rangeArguments?_rangeLiteral]
  simp only [read_backend_shown]
  by_cases ha : a.date.year < 1000
  · rw [if_pos ha, if_pos ha]
    rfl
  · rw [if_neg ha, if_neg ha]
    by_cases hz : z.date.year < 1000
    · rw [if_pos hz, if_pos hz]
      rfl
    · rw [if_neg hz, if_neg hz]
      rfl

/-- **A range literal is read back to the second when both its ends lie in the year 1000 or
later**, and otherwise it is not read. -/
theorem readRange_rangeLiteral (a z : Instant) :
    (1000 ≤ a.date.year ∧ 1000 ≤ z.date.year →
      readRange (rangeLiteral a z) = .ok (some (a.wholeSecond, z.wholeSecond))) ∧
    (a.date.year < 1000 ∨ z.date.year < 1000 → Fails (readRange (rangeLiteral a z))) := by
  rw [readRange_rangeLiteral_eq]
  constructor
  · rintro ⟨ha, hz⟩
    rw [if_neg (Nat.not_lt.mpr ha), if_neg (Nat.not_lt.mpr hz)]
  · intro h
    split
    next => exact fails_error _
    next ha =>
      rw [if_pos (h.resolve_left ha)]
      exact fails_error _

/-- **A range literal of whole seconds is read back as the same range when both years have four
digits.**  Otherwise it fails as no date, on the first end whose year has fewer; it is never read
as another range, and it never passes for a text that is no range literal. -/
theorem readRange_rangeLiteral_whole {a z : Instant} (ha : a.micro = 0) (hz : z.micro = 0) :
    readRange (rangeLiteral a z) =
      if 1000 ≤ a.date.year ∧ 1000 ≤ z.date.year then .ok (some (a, z))
      else .error (.badLiteral (if a.date.year < 1000 then a.shown else z.shown) "date") := by
  rw [readRange_rangeLiteral_eq, wholeSecond_eq_self ha, wholeSecond_eq_self hz]
  by_cases hearly : a.date.year < 1000
  · rw [if_pos hearly, if_neg (by omega), if_pos hearly]
  · rw [if_neg hearly, if_neg hearly]
    by_cases hearly' : z.date.year < 1000
    · rw [if_pos hearly', if_neg (by omega)]
    · rw [if_neg hearly', if_pos (by omega)]

/-- From the last second of the year 999 on a range literal is not read, and from the next second on
it is. -/
theorem readRange_rangeLiteral_from_1000 :
    let late : Instant :=
      { date := ⟨999, 12, 31, by decide⟩, hour := 23, minute := 59, second := 59 }
    let first : Instant := startOf ⟨1000, 1, 1, by decide⟩
    let last : Instant :=
      { date := ⟨9999, 12, 31, by decide⟩, hour := 23, minute := 59, second := 59 }
    (late.micro = 0 ∧ first.micro = 0 ∧ last.micro = 0) ∧
    readRange (rangeLiteral late last) = .error (.badLiteral "999-12-31 23:59:59" "date") ∧
    readRange (rangeLiteral first last) = .ok (some (first, last)) :=
  ⟨⟨rfl, rfl, rfl⟩, readRange_rangeLiteral_whole rfl rfl, readRange_rangeLiteral_whole rfl rfl⟩

/-! ## §7. Characters. -/

/-- A shown instant is of characters. -/
theorem isEncodable_shown (t : Instant) : t.shown.isEncodable = true := by
  simp only [shown, Date.shown, clockTime, Text.isEncodable_append, Text.isEncodable_ofNat,
    Text.isEncodable_twoDigits, Text.isEncodable_string, Bool.and_self]

/-- So is a range literal. -/
theorem isEncodable_rangeLiteral (a z : Instant) : (rangeLiteral a z).isEncodable = true := by
  have hfront : rangeFunction.isEncodable = true := Text.isEncodable_string _
  have hmarks : ∀ mark ∈ (["('", "','", "')"] : List Text), mark.isEncodable = true := by decide
  simp only [List.forall_mem_cons, List.not_mem_nil, false_implies, implies_true, and_true]
    at hmarks
  obtain ⟨hopen, hcomma, hclose⟩ := hmarks
  simp only [rangeLiteral, Text.isEncodable_append, isEncodable_shown, hfront, hopen, hcomma,
    hclose, Bool.and_self]

end Instant

end EncodedQuery

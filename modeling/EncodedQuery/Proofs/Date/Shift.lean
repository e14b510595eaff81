/-
  EncodedQuery.Proofs.Date.Shift
  ──────────────────────────────
  **MOVING BY MONTHS.**

  Months are counted on from year to year, also beyond the calendar.  A day that
  is moved by months arrives in the month that is so far away, at its own number
  or at the last day of a shorter month, as long as the year of that month is in
  the calendar.  Moving keeps days in order, and as long as nothing is cut to a
  shorter month two moves are one.

  Main results:
    • `plusMonths_eq_ok_iff` — which day a move leads to,
    • `plusMonths_le` — moves keep the order,
    • `plusMonths_plusMonths` — two moves are one,
    • `plusMonths_laws` — all of it together.
-/
import EncodedQuery.Proofs.Date.Order

namespace EncodedQuery.Date

/-! ## §1. Months away. -/

/-- Month `m` of year `y` is `n` months away from the month of the day, whether or not the calendar
has that year. -/
def IsMonthAway (d : Date) (n y : Int) (m : Nat) : Prop :=
  (1 ≤ m ∧ m ≤ 12) ∧ 12 * y + m = 12 * d.year + d.month + n

instance (d : Date) (n y : Int) (m : Nat) : Decidable (d.IsMonthAway n y m) :=
  inferInstanceAs (Decidable (_ ∧ _))

variable {d d' e e' : Date} {n k y : Int} {m : Nat}

/-- So many months away there is a month. -/
theorem exists_isMonthAway (d : Date) (n : Int) : ∃ y m, d.IsMonthAway n y m := by
  refine ⟨(12 * d.year + d.month + n - 1) / 12,
    ((12 * d.year + d.month + n - 1) % 12).toNat + 1, ?_, ?_⟩ <;> omega

/-- There is only one. -/
theorem IsMonthAway.unique (h : d.IsMonthAway n y m) {y' : Int} {m' : Nat}
    (h' : d.IsMonthAway n y' m') : y' = y ∧ m' = m := by
  unfold IsMonthAway at h h'
  omega

/-- In numbers of months. -/
theorem isMonthAway_iff :
    d.IsMonthAway n d'.year d'.month ↔ d'.monthIndex = d.monthIndex + n := by
  have hd := d.isDay.2.1
  have hd' := d'.isDay.2.1
  unfold IsMonthAway monthIndex
  omega

/-- Whether the calendar has the year. -/
theorem IsMonthAway.fails_plusMonths_iff (h : d.IsMonthAway n y m) :
    Fails (d.plusMonths n) ↔ ¬ (1 ≤ y ∧ y ≤ 9999) := by
  have hd := d.isDay.2.1
  unfold IsMonthAway at h
  rw [Date.fails_plusMonths_iff]
  unfold monthIndex
  omega

/-! ## §2. Where a move leads. -/

/-- A day has the numbers by which it is found. -/
theorem of?_eq_some_iff_numbers {y m d : Nat} {d' : Date} :
    of? y m d = some d' ↔ d'.year = y ∧ d'.month = m ∧ d'.day = d := by
  rw [of?_eq_some_iff]
  refine ⟨And.right, ?_⟩
  rintro ⟨rfl, rfl, rfl⟩
  exact ⟨d'.isDay, rfl, rfl, rfl⟩

/-- **A move leads to the month that is so far away**, and there to the same day or else to the last
one. -/
theorem plusMonths_eq_ok_iff :
    d.plusMonths n = .ok d' ↔
      d.IsMonthAway n d'.year d'.month ∧ d'.day = min d.day (monthLength d'.year d'.month) := by
  rw [isMonthAway_iff]
  unfold plusMonths
  dsimp only
  generalize d.monthIndex + n = i
  -- the month with the number `i` is found by the two parts of that number
  have hmonth : d'.monthIndex = i ↔
      0 ≤ i ∧ d'.year = (i / 12).toNat ∧ d'.month = (i % 12).toNat + 1 := by
    have hm := d'.isDay.2.1
    unfold monthIndex
    omega
  rw [hmonth]
  split
  next hneg =>
    refine iff_of_false nofun ?_
    omega
  next hpos =>
    have hfound : of? (i / 12).toNat ((i % 12).toNat + 1)
        (min d.day (monthLength (i / 12).toNat ((i % 12).toNat + 1))) = some d' ↔
        (0 ≤ i ∧ d'.year = (i / 12).toNat ∧ d'.month = (i % 12).toNat + 1) ∧
          d'.day = min d.day (monthLength d'.year d'.month) := by
      rw [of?_eq_some_iff_numbers]
      constructor
      · rintro ⟨hyear, hmonth, hday⟩
        exact ⟨⟨by omega, hyear, hmonth⟩, by rw [hyear, hmonth, hday]⟩
      · rintro ⟨⟨_, hyear, hmonth⟩, hday⟩
        exact ⟨hyear, hmonth, by rw [hday, hyear, hmonth]⟩
    rw [← hfound]
    cases of? (i / 12).toNat ((i % 12).toNat + 1)
        (min d.day (monthLength (i / 12).toNat ((i % 12).toNat + 1))) <;> simp

/-- The last day of January moves to the last day of February. -/
example : plusMonths ⟨2024, 1, 31, by decide⟩ 1 = .ok ⟨2024, 2, 29, by decide⟩ := rfl

/-- The month that a move leads to. -/
theorem monthIndex_of_plusMonths (h : d.plusMonths n = .ok d') :
    d'.monthIndex = d.monthIndex + n :=
  isMonthAway_iff.mp (plusMonths_eq_ok_iff.mp h).1

/-- A move looks at the month that it leads to and at the day, and at nothing else. -/
theorem plusMonths_congr (hm : d.monthIndex + n = e.monthIndex + k) (hd : d.day = e.day) :
    d.plusMonths n = e.plusMonths k := by
  unfold plusMonths
  rw [hm, hd]

/-! ## §3. Laws. -/

/-- **Moves keep days in order.** -/
theorem plusMonths_le (h : d ≤ e) (hd : d.plusMonths n = .ok d') (he : e.plusMonths n = .ok e') :
    d' ≤ e' := by
  have hd'm := monthIndex_of_plusMonths hd
  have he'm := monthIndex_of_plusMonths he
  rw [le_iff] at h ⊢
  rcases h with hlt | ⟨heq, hday⟩
  · exact .inl (by omega)
  · -- both arrive in one month, which cuts both at the same day
    have hsame : d'.year = e'.year ∧ d'.month = e'.month := by
      have h₁ := d'.isDay.2.1
      have h₂ := e'.isDay.2.1
      unfold monthIndex at heq hd'm he'm
      omega
    refine .inr ⟨by omega, ?_⟩
    rw [(plusMonths_eq_ok_iff.mp hd).2, (plusMonths_eq_ok_iff.mp he).2, hsame.1, hsame.2]
    omega

/-- Every month has the first 28 days. -/
theorem day_of_plusMonths (h : d.day ≤ 28) (hd : d.plusMonths n = .ok d') : d'.day = d.day := by
  have hlen := monthLength_pos d'.year d'.month
  rw [(plusMonths_eq_ok_iff.mp hd).2]
  omega

/-- **Two moves are one** when the day is one that every month has. -/
theorem plusMonths_plusMonths (h : d.day ≤ 28) (hd : d.plusMonths n = .ok d') (k : Int) :
    d'.plusMonths k = d.plusMonths (n + k) := by
  refine plusMonths_congr ?_ (day_of_plusMonths h hd)
  rw [monthIndex_of_plusMonths hd]
  omega

/-- **Moving by months and years.**  The month that is so many months away is reached if and only
if the calendar has its year, at the same day or at the last one; days stay in order; two moves of a
day that every month has are one; and a year is twelve months. -/
theorem plusMonths_laws (d : Date) (n : Int) :
    (∃ y m, d.IsMonthAway n y m ∧
      if 1 ≤ y ∧ y ≤ 9999 then
        ∃ d', d.plusMonths n = .ok d' ∧ d'.year = y ∧ d'.month = m ∧
          d'.day = min d.day (monthLength d'.year d'.month)
      else Fails (d.plusMonths n)) ∧
    (∀ e d' e', d ≤ e → d.plusMonths n = .ok d' → e.plusMonths n = .ok e' → d' ≤ e') ∧
    (d.day ≤ 28 → ∀ d' k, d.plusMonths n = .ok d' → d'.plusMonths k = d.plusMonths (n + k)) ∧
    d.plusYears n = d.plusMonths (12 * n) := by
  refine ⟨?_, fun _ _ _ => plusMonths_le, fun h _ k hd => plusMonths_plusMonths h hd k, rfl⟩
  obtain ⟨y, m, h⟩ := d.exists_isMonthAway n
  refine ⟨y, m, h, ?_⟩
  split
  next hyear =>
    obtain ⟨d', hd'⟩ := exists_ok_of_not_fails
      (mt h.fails_plusMonths_iff.mp (not_not_intro hyear))
    obtain ⟨haway, hday⟩ := plusMonths_eq_ok_iff.mp hd'
    obtain ⟨hy, hm⟩ := h.unique haway
    exact ⟨d', hd', hy, hm, hday⟩
  next hyear => exact h.fails_plusMonths_iff.mpr hyear

/-- From the 28th and the 31st of January one month leads to the 28th and the 29th of February, in
order; the 28th comes a year later where it comes in thirteen months; and after the last December
there is no month. -/
theorem plusMonths_laws_at_month_ends :
    (⟨2024, 2, 28, by decide⟩ : Date) ≤ ⟨2024, 2, 29, by decide⟩ ∧
    plusMonths ⟨2024, 2, 28, by decide⟩ 12 = plusMonths ⟨2024, 1, 28, by decide⟩ (1 + 12) ∧
    Fails (plusMonths ⟨9999, 12, 1, by decide⟩ 1) := by
  obtain ⟨_, hordered, hadd, _⟩ := plusMonths_laws ⟨2024, 1, 28, by decide⟩ 1
  refine ⟨hordered ⟨2024, 1, 31, by decide⟩ _ _ (by decide) rfl rfl, hadd (by decide) _ 12 rfl, ?_⟩
  obtain ⟨⟨y, m, haway, hyear⟩, _⟩ := plusMonths_laws ⟨9999, 12, 1, by decide⟩ 1
  have hnext : y = 10000 := (IsMonthAway.unique (m := 1) (by decide) haway).1
  rwa [hnext, if_neg (by decide)] at hyear

end EncodedQuery.Date

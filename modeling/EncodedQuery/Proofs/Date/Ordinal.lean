/-
  EncodedQuery.Proofs.Date.Ordinal
  ────────────────────────────────
  **WHERE THE CALENDAR ENDS.**

  The number of a day grows by one from day to day, from 1 on 1 January of
  year 1 to `lastOrdinal` on 31 December of year 9999.  Moving by days fails
  exactly when the number that is wanted lies outside, and moving by months
  exactly when the year that is wanted does.

  Main results:
    • `fails_plusDays_iff` — moving by days,
    • `fails_plusMonths_iff` — moving by months.
-/
import EncodedQuery.Month
import EncodedQuery.Proofs.Fault

namespace EncodedQuery

/-! ## §1. Years. -/

/-- The days of a year. -/
def yearLength (y : Nat) : Nat := if isLeapYear y then 366 else 365

theorem isLeapYear_iff (y : Nat) :
    isLeapYear y = true ↔ y % 4 = 0 ∧ (y % 100 ≠ 0 ∨ y % 400 = 0) := by
  simp [isLeapYear]

namespace Date

theorem daysBeforeYear_succ {y : Nat} (h : 1 ≤ y) :
    daysBeforeYear (y + 1) = daysBeforeYear y + yearLength y := by
  obtain ⟨k, rfl⟩ : ∃ k, y = k + 1 := ⟨y - 1, by omega⟩
  have h₄ : (k + 1) / 4 = k / 4 + if (k + 1) % 4 = 0 then 1 else 0 := by split <;> omega
  have h₁₀₀ : (k + 1) / 100 = k / 100 + if (k + 1) % 100 = 0 then 1 else 0 := by split <;> omega
  have h₄₀₀ : (k + 1) / 400 = k / 400 + if (k + 1) % 400 = 0 then 1 else 0 := by split <;> omega
  have hle : k / 100 ≤ k / 4 := by omega
  have hleap := isLeapYear_iff (k + 1)
  unfold daysBeforeYear yearLength
  simp only [Nat.add_sub_cancel, h₄, h₁₀₀, h₄₀₀]
  -- a multiple of 400 is one of 100, and a multiple of 100 is one of 4
  by_cases hd₄ : (k + 1) % 4 = 0
  · by_cases hd₁₀₀ : (k + 1) % 100 = 0
    · by_cases hd₄₀₀ : (k + 1) % 400 = 0 <;> simp only [hd₄, hd₁₀₀, hd₄₀₀, hleap, if_true, if_false,
        ne_eq, not_true, false_or, true_and] <;> omega
    · have hd₄₀₀ : (k + 1) % 400 ≠ 0 := by omega
      simp only [hd₄, hd₁₀₀, hd₄₀₀, hleap, if_true, if_false, ne_eq, not_false_iff, true_or,
        true_and]
      omega
  · have hd₁₀₀ : (k + 1) % 100 ≠ 0 := by omega
    have hd₄₀₀ : (k + 1) % 400 ≠ 0 := by omega
    simp only [hd₄, hd₁₀₀, hd₄₀₀, hleap, if_false, false_and]
    omega

theorem daysBeforeYear_le {y y' : Nat} (hy : 1 ≤ y) (h : y ≤ y') :
    daysBeforeYear y ≤ daysBeforeYear y' := by
  induction h with
  | refl => exact Nat.le_refl _
  | @step y' hle ih =>
      rw [Nat.succ_eq_add_one, daysBeforeYear_succ (Nat.le_trans hy hle)]
      exact Nat.le_trans ih (Nat.le_add_right _ _)

theorem daysBeforeMonth_succ (y : Nat) {m : Nat} (h : 1 ≤ m) :
    daysBeforeMonth y (m + 1) = daysBeforeMonth y m + monthLength y m := by
  cases m with
  | zero => omega
  | succ m => rfl

theorem daysBeforeMonth_twelve (y : Nat) :
    daysBeforeMonth y 12 + monthLength y 12 = yearLength y := by
  unfold yearLength
  cases h : isLeapYear y <;> simp [daysBeforeMonth, monthLength, h]

theorem monthLength_twelve (y : Nat) : monthLength y 12 = 31 := rfl

theorem monthLength_pos (y m : Nat) : 28 ≤ monthLength y m := by
  unfold monthLength
  repeat' split
  all_goals omega

/-- No month has more than 31 days. -/
theorem monthLength_le (y m : Nat) : monthLength y m ≤ 31 := by
  unfold monthLength
  repeat' split
  all_goals omega

theorem day_le (d : Date) : d.day ≤ 31 :=
  Nat.le_trans d.isDay.2.2.2 (monthLength_le d.year d.month)

theorem daysBeforeMonth_le (y : Nat) {m m' : Nat} (h : m ≤ m') :
    daysBeforeMonth y m ≤ daysBeforeMonth y m' := by
  induction h with
  | refl => exact Nat.le_refl _
  | @step m' _ ih =>
      cases m' with
      | zero => exact ih
      | succ m' => exact Nat.le_trans ih (Nat.le_add_right _ _)

/-! ## §2. Neighbouring days. -/

/-- The number of the last day. -/
def lastOrdinal : Nat := 3652059

theorem of?_eq_some_iff {y m d : Nat} {d' : Date} :
    of? y m d = some d' ↔ IsDay y m d ∧ d'.year = y ∧ d'.month = m ∧ d'.day = d := by
  unfold of?
  split
  next h =>
    constructor
    · intro heq
      cases heq
      exact ⟨h, rfl, rfl, rfl⟩
    · rintro ⟨_, rfl, rfl, rfl⟩
      rfl
  next h => exact ⟨nofun, fun hd => absurd hd.1 h⟩

theorem of?_eq_none_iff {y m d : Nat} : of? y m d = none ↔ ¬ IsDay y m d := by
  unfold of?
  split
  next h => simp [h]
  next h => simp [h]

/-- Within a year no month reaches beyond its end. -/
theorem daysBeforeMonth_add_le (y : Nat) {m d : Nat} (hm : 1 ≤ m ∧ m ≤ 12)
    (hd : d ≤ monthLength y m) : daysBeforeMonth y m + d ≤ yearLength y := by
  have hsucc := daysBeforeMonth_succ y hm.1
  have htwelve := daysBeforeMonth_twelve y
  rcases Nat.lt_or_ge m 12 with hlt | hge
  · have := daysBeforeMonth_le y (show m + 1 ≤ 12 from hlt)
    omega
  · obtain rfl : m = 12 := by omega
    omega

theorem ordinal_pos (d : Date) : 1 ≤ d.ordinal := by
  have := d.isDay.2.2.1
  unfold ordinal
  omega

theorem ordinal_le (d : Date) : d.ordinal ≤ lastOrdinal := by
  obtain ⟨⟨hy, hy'⟩, hm, hd⟩ := d.isDay
  have hyear := daysBeforeMonth_add_le d.year hm hd.2
  have hsucc := daysBeforeYear_succ hy
  have hlast := daysBeforeYear_le (show 1 ≤ d.year + 1 by omega) (show d.year + 1 ≤ 10000 by omega)
  have hvalue : daysBeforeYear 10000 = lastOrdinal := rfl
  unfold ordinal
  omega

/-- The day after has the next number. -/
theorem ordinal_of_next? {d d' : Date} (h : d.next? = some d') : d'.ordinal = d.ordinal + 1 := by
  obtain ⟨hy, hm, hd⟩ := d.isDay
  unfold next? at h
  rcases Option.or_eq_some_iff.mp h with h | ⟨hnone, h⟩
  · obtain ⟨_, hyear, hmonth, hday⟩ := of?_eq_some_iff.mp h
    unfold ordinal
    rw [hyear, hmonth, hday]
    rfl
  · have hlast : d.day = monthLength d.year d.month := by
      have := of?_eq_none_iff.mp hnone
      unfold IsDay at this
      omega
    rcases Option.or_eq_some_iff.mp h with h | ⟨hnone', h⟩
    · obtain ⟨_, hyear, hmonth, hday⟩ := of?_eq_some_iff.mp h
      unfold ordinal
      rw [hyear, hmonth, hday, daysBeforeMonth_succ _ hm.1, hlast]
      omega
    · have htwelve : d.month = 12 := by
        have hlen := monthLength_pos d.year (d.month + 1)
        have := of?_eq_none_iff.mp hnone'
        unfold IsDay at this
        omega
      obtain ⟨_, hyear, hmonth, hday⟩ := of?_eq_some_iff.mp h
      have hyearLength := daysBeforeMonth_twelve d.year
      unfold ordinal
      rw [hyear, hmonth, hday, daysBeforeYear_succ hy.1, hlast, htwelve]
      show daysBeforeYear d.year + yearLength d.year + 0 + 1 = _
      omega

/-- There is a day after every day but the last. -/
theorem next?_eq_none_iff (d : Date) : d.next? = none ↔ d.ordinal = lastOrdinal := by
  constructor
  · intro h
    obtain ⟨hy, hm, hd⟩ := d.isDay
    simp only [next?, Option.or_eq_none_iff, of?_eq_none_iff, IsDay] at h
    obtain ⟨h₁, h₂, h₃⟩ := h
    have hlen := monthLength_pos d.year (d.month + 1)
    have hlen' := monthLength_pos (d.year + 1) 1
    have hyear : d.year = 9999 := by omega
    have hmonth : d.month = 12 := by omega
    have hday : d.day = monthLength d.year d.month := by omega
    unfold ordinal
    rw [hday, hmonth, hyear]
    rfl
  · intro h
    cases hn : d.next? with
    | none => rfl
    | some d' =>
        have hsucc := ordinal_of_next? hn
        have hle := d'.ordinal_le
        omega

/-- The day before has the previous number. -/
theorem ordinal_of_prev? {d d' : Date} (h : d.prev? = some d') : d'.ordinal + 1 = d.ordinal := by
  obtain ⟨hy, hm, hd⟩ := d.isDay
  unfold prev? at h
  rcases Option.or_eq_some_iff.mp h with h | ⟨hnone, h⟩
  · obtain ⟨_, hyear, hmonth, hday⟩ := of?_eq_some_iff.mp h
    unfold ordinal
    rw [hyear, hmonth, hday]
    omega
  · have hfirst : d.day = 1 := by
      have := of?_eq_none_iff.mp hnone
      unfold IsDay at this
      omega
    rcases Option.or_eq_some_iff.mp h with h | ⟨hnone', h⟩
    · obtain ⟨hisDay, hyear, hmonth, hday⟩ := of?_eq_some_iff.mp h
      have hsucc := daysBeforeMonth_succ d.year hisDay.2.1.1
      rw [Nat.sub_add_cancel hm.1] at hsucc
      unfold ordinal
      rw [hyear, hmonth, hday, hfirst]
      omega
    · have hone : d.month = 1 := by
        have hlen := monthLength_pos d.year (d.month - 1)
        have := of?_eq_none_iff.mp hnone'
        unfold IsDay at this
        omega
      obtain ⟨hisDay, hyear, hmonth, hday⟩ := of?_eq_some_iff.mp h
      have hsucc := daysBeforeYear_succ hisDay.1.1
      rw [Nat.sub_add_cancel hy.1] at hsucc
      have htwelve := daysBeforeMonth_twelve (d.year - 1)
      rw [monthLength_twelve] at htwelve
      unfold ordinal
      rw [hyear, hmonth, hday, hone, hfirst]
      show _ = daysBeforeYear d.year + 0 + 1
      omega

/-- There is a day before every day but the first. -/
theorem prev?_eq_none_iff (d : Date) : d.prev? = none ↔ d.ordinal = 1 := by
  constructor
  · intro h
    obtain ⟨hy, hm, hd⟩ := d.isDay
    simp only [prev?, Option.or_eq_none_iff, of?_eq_none_iff, IsDay] at h
    obtain ⟨h₁, h₂, h₃⟩ := h
    have hlen := monthLength_pos d.year (d.month - 1)
    have hlen' : monthLength (d.year - 1) 12 = 31 := rfl
    have hday : d.day = 1 := by omega
    have hmonth : d.month = 1 := by omega
    have hyear : d.year = 1 := by omega
    unfold ordinal
    rw [hday, hmonth, hyear]
    rfl
  · intro h
    cases hp : d.prev? with
    | none => rfl
    | some d' =>
        have hsucc := ordinal_of_prev? hp
        have hpos := d'.ordinal_pos
        omega

/-! ## §3. Moving by days. -/

theorem later?_spec (d : Date) (n : Nat) :
    match d.later? n with
    | some d' => d'.ordinal = d.ordinal + n
    | none => lastOrdinal < d.ordinal + n := by
  induction n with
  | zero => rfl
  | succ n ih =>
      rw [later?]
      cases h : d.later? n with
      | none =>
          rw [h] at ih
          exact Nat.lt_succ_of_lt ih
      | some d₁ =>
          rw [h] at ih
          replace ih : d₁.ordinal = d.ordinal + n := ih
          cases hn : d₁.next? with
          | none =>
              have := (next?_eq_none_iff d₁).mp hn
              simp only [Option.bind_some, hn]
              omega
          | some d' =>
              have := ordinal_of_next? hn
              simp only [Option.bind_some, hn]
              omega

theorem earlier?_spec (d : Date) (n : Nat) :
    match d.earlier? n with
    | some d' => d'.ordinal + n = d.ordinal
    | none => d.ordinal ≤ n := by
  induction n with
  | zero => rfl
  | succ n ih =>
      rw [earlier?]
      cases h : d.earlier? n with
      | none =>
          rw [h] at ih
          exact Nat.le_succ_of_le ih
      | some d₁ =>
          rw [h] at ih
          replace ih : d₁.ordinal + n = d.ordinal := ih
          cases hp : d₁.prev? with
          | none =>
              have := (prev?_eq_none_iff d₁).mp hp
              simp only [Option.bind_some, hp]
              omega
          | some d' =>
              have := ordinal_of_prev? hp
              simp only [Option.bind_some, hp]
              omega

/-- A day is `n` days later when the number that is wanted is the number of a day. -/
theorem later?_eq_none_iff (d : Date) (n : Nat) :
    d.later? n = none ↔ lastOrdinal < d.ordinal + n := by
  have hspec := d.later?_spec n
  cases h : d.later? n with
  | none =>
      rw [h] at hspec
      simpa using hspec
  | some d' =>
      rw [h] at hspec
      have hle := d'.ordinal_le
      replace hspec : d'.ordinal = d.ordinal + n := hspec
      simp only [reduceCtorEq, false_iff]
      omega

theorem earlier?_eq_none_iff (d : Date) (n : Nat) : d.earlier? n = none ↔ d.ordinal ≤ n := by
  have hspec := d.earlier?_spec n
  cases h : d.earlier? n with
  | none =>
      rw [h] at hspec
      simpa using hspec
  | some d' =>
      rw [h] at hspec
      have hpos := d'.ordinal_pos
      replace hspec : d'.ordinal + n = d.ordinal := hspec
      simp only [reduceCtorEq, false_iff]
      omega

/-- **Moving by days fails exactly outside the calendar.** -/
theorem plusDays?_eq_none_iff (d : Date) (n : Int) :
    d.plusDays? n = none ↔ d.ordinal + n < 1 ∨ (lastOrdinal : Int) < d.ordinal + n := by
  have hpos := d.ordinal_pos
  have hle := d.ordinal_le
  cases n with
  | ofNat n =>
      rw [plusDays?, later?_eq_none_iff, Int.ofNat_eq_natCast]
      omega
  | negSucc n =>
      rw [plusDays?, earlier?_eq_none_iff]
      omega

theorem fails_plusDays_iff (d : Date) (n : Int) :
    Fails (d.plusDays n) ↔ d.ordinal + n < 1 ∨ (lastOrdinal : Int) < d.ordinal + n := by
  rw [← plusDays?_eq_none_iff]
  unfold plusDays
  cases d.plusDays? n <;> simp

/-! ## §4. Moving by months. -/

/-- **Moving by months fails exactly outside the calendar.** -/
theorem fails_plusMonths_iff (d : Date) (n : Int) :
    Fails (d.plusMonths n) ↔ d.monthIndex + n < 12 ∨ 120000 ≤ d.monthIndex + n := by
  unfold plusMonths
  dsimp only
  generalize d.monthIndex + n = i
  split
  next hneg =>
    simp only [fails_error, true_iff]
    omega
  next hpos =>
    have hlen := monthLength_pos (i / 12).toNat ((i % 12).toNat + 1)
    have hday := d.isDay.2.2.1
    have hof : of? (i / 12).toNat ((i % 12).toNat + 1)
        (min d.day (monthLength (i / 12).toNat ((i % 12).toNat + 1))) = none ↔
        i < 12 ∨ 120000 ≤ i := by
      rw [of?_eq_none_iff, IsDay]
      omega
    rw [← hof]
    cases of? (i / 12).toNat ((i % 12).toNat + 1)
      (min d.day (monthLength (i / 12).toNat ((i % 12).toNat + 1))) <;> simp

end Date

end EncodedQuery

/-
  EncodedQuery.Proofs.Picker.Page
  ───────────────────────────────
  **WHAT THE PAGE OF DAYS SHOWS.**

  The page of days has a row for every week and a cell for every day, with the
  number of the day and a style.  The style is put together from what the day is
  for the calendar: out of bounds, of another month, the current day, the chosen
  one, the one under the cursor.  Each has words of its own.

  Main results:
    • `words_dayStyle` — the words of the style of a day,
    • `monthView_shows` — the days and the styles of a page.
-/
import EncodedQuery.Proofs.Date.Grid
import EncodedQuery.Proofs.Picker.Calendar

namespace EncodedQuery

/-- The words of a style. -/
def Styled.words (style : Text) : List Text :=
  (Text.cut ' ' style).filter (fun word => !word.isEmpty)

namespace Calendar

/-! ## §1. The style of a day. -/

/-- The day lies within the bounds of the calendar, as far as it has any. -/
def Allows (c : Calendar) (d : Date) : Prop := (∀ f ∈ c.first, f ≤ d) ∧ ∀ l ∈ c.last, d ≤ l

theorem inRange_iff {c : Calendar} {d : Date} : c.inRange d = true ↔ c.Allows d := by
  unfold inRange Allows
  rw [Bool.and_eq_true, Option.all_eq_true, Option.all_eq_true]
  simp only [decide_eq_true_iff, Option.mem_def]

instance (c : Calendar) (d : Date) : Decidable (c.Allows d) := decidable_of_iff _ inRange_iff

/-- The words that say where a day is. -/
def placeWords (c : Calendar) (d : Date) : List Text :=
  if ¬ c.Allows d then ["dim", "strike"] else if d.month ≠ c.cursor.month then ["dim"] else []

/-- The words that single a day out. -/
def markWords (c : Calendar) (today d : Date) : List Text :=
  List.flatten [if d = today then ["underline"] else [],
    if c.selected = some d then ["bold", "green"] else [],
    if d = c.cursor then ["reverse"] else []]

/-- **The words of the style of a day** say where it is and what singles it out. -/
theorem words_dayStyle (c : Calendar) (today d : Date) :
    Styled.words (c.dayStyle today d) = c.placeWords d ++ c.markWords today d := by
  have hrange : ((!c.inRange d) = true) ↔ ¬ c.Allows d := by
    rw [← inRange_iff]
    simp
  unfold dayStyle placeWords markWords
  dsimp only
  rw [if_congr hrange rfl rfl]
  -- each of the five conditions adds words of its own, or none
  by_cases hallowed : ¬ c.Allows d
  · rw [if_pos hallowed, if_pos hallowed]
    split <;> split <;> split <;> rfl
  · rw [if_neg hallowed, if_neg hallowed]
    split <;> split <;> split <;> split <;> rfl

/-- The words that single a day out say nothing about where it is. -/
theorem not_mem_markWords (c : Calendar) (today d : Date) :
    ("dim" : Text) ∉ c.markWords today d ∧ ("strike" : Text) ∉ c.markWords today d := by
  unfold markWords
  split <;> split <;> split <;> decide

/-- **Only the day under the cursor is reversed.** -/
theorem reverse_mem_words_iff (c : Calendar) (today d : Date) :
    ("reverse" : Text) ∈ Styled.words (c.dayStyle today d) ↔ d = c.cursor := by
  rw [words_dayStyle, List.mem_append]
  have hplace : ("reverse" : Text) ∉ c.placeWords d := by
    unfold placeWords
    split
    · decide
    · split <;> decide
  unfold markWords
  by_cases hcursor : d = c.cursor
  · rw [if_pos hcursor]
    refine iff_of_true ?_ hcursor
    right
    split <;> split <;> decide
  · rw [if_neg hcursor]
    refine iff_of_false ?_ hcursor
    intro hmem
    rcases hmem with hmem | hmem
    · exact hplace hmem
    · revert hmem
      split <;> split <;> decide

/-- **A day out of bounds is dim and struck out.**  Of the others those of another month are dim. -/
theorem dim_and_strike_words (c : Calendar) (today d : Date) :
    (¬ c.Allows d → [("dim" : Text), "strike"] <+: Styled.words (c.dayStyle today d)) ∧
      (c.Allows d →
        (("dim" : Text) ∈ Styled.words (c.dayStyle today d) ↔ d.month ≠ c.cursor.month) ∧
          ("strike" : Text) ∉ Styled.words (c.dayStyle today d)) := by
  have hmarks := c.not_mem_markWords today d
  rw [words_dayStyle]
  constructor
  · intro hout
    unfold placeWords
    rw [if_pos hout]
    exact List.prefix_append _ _
  · intro hin
    unfold placeWords
    rw [if_neg (not_not_intro hin)]
    split
    next hother =>
      have hstrike : ("strike" : Text) ∉ [("dim" : Text)] ++ c.markWords today d := by
        rw [List.mem_append, not_or]
        exact ⟨by decide, hmarks.2⟩
      exact ⟨iff_of_true List.mem_cons_self hother, hstrike⟩
    next hsame => exact ⟨iff_of_false hmarks.1 hsame, hmarks.2⟩

/-- Of days among which that under the cursor is once, it alone is reversed. -/
theorem filter_reversed_eq (c : Calendar) (today : Date) {days : List Date}
    (honce : days.count c.cursor = 1) :
    days.filter (fun d => decide (("reverse" : Text) ∈ Styled.words (c.dayStyle today d)))
      = [c.cursor] := by
  have hcursor : ∀ d ∈ days,
      decide (("reverse" : Text) ∈ Styled.words (c.dayStyle today d)) = (d == c.cursor) := by
    intro d _
    rw [Bool.eq_iff_iff, decide_eq_true_iff, beq_iff_eq]
    exact c.reverse_mem_words_iff today d
  rw [List.filter_congr hcursor, List.filter_beq, honce]
  rfl

/-! ## §2. The page. -/

/-- The page of a calendar has a cell for each day of the weeks that cover the month. -/
theorem monthView_eq_ok {c : Calendar} {now : Instant} {weeks : List (List Date)}
    (h : c.cursor.monthGrid = .ok weeks) :
    c.monthView now = .ok (.table
      (some (Date.monthName c.cursor.month ++ " " ++ Text.ofNat c.cursor.year))
      ((["Su", "Mo", "Tu", "We", "Th", "Fr", "Sa"] : List Text).map
        (fun name => { header := name, side := .right }))
      (weeks.map (fun week => week.map
        (fun d => .line (Text.ofNat d.day) (c.dayStyle now.date d))))) := by
  unfold monthView
  rw [h]
  rfl

/-- **THE PAGE OF DAYS.**  Outside the first and the last month there is a page.  Its rows are four
to six weeks from Sunday to Saturday, with one day after the other, and every day of the month is on
it once.  A day of another month is dim, a day out of bounds is dim and struck out, and no other day
is either; and the day under the cursor, and only this one, is reversed. -/
theorem monthView_shows (c : Calendar) (now : Instant) (hfirst : ¬ c.cursor.InFirstMonth)
    (hlast : ¬ c.cursor.InLastMonth) :
    ∃ weeks : List (List Date),
      c.monthView now = .ok (.table
        (some (Date.monthName c.cursor.month ++ " " ++ Text.ofNat c.cursor.year))
        ((["Su", "Mo", "Tu", "We", "Th", "Fr", "Sa"] : List Text).map
          (fun name => { header := name, side := .right }))
        (weeks.map (fun week => week.map
          (fun d => .line (Text.ofNat d.day) (c.dayStyle now.date d))))) ∧
      (4 ≤ weeks.length ∧ weeks.length ≤ 6) ∧
      (∀ week ∈ weeks, week.length = 7 ∧
        ∀ (j : Nat) (hj : j < week.length), week[j].sinceSunday = j) ∧
      weeks.flatten.IsChain (fun a b => a.next? = some b) ∧
      (∀ d : Date, d.SameMonth c.cursor → weeks.flatten.count d = 1) ∧
      (∀ d ∈ weeks.flatten,
        let words := Styled.words (c.dayStyle now.date d)
        (¬ c.Allows d → [("dim" : Text), "strike"] <+: words) ∧
        (c.Allows d → (("dim" : Text) ∈ words ↔ ¬ d.SameMonth c.cursor) ∧
          ("strike" : Text) ∉ words)) ∧
      weeks.flatten.filter
        (fun d => decide (("reverse" : Text) ∈ Styled.words (c.dayStyle now.date d)))
        = [c.cursor] := by
  obtain ⟨weeks, hweeks⟩ : ∃ weeks, c.cursor.monthGrid = .ok weeks := by
    apply exists_ok_of_not_fails
    rw [Date.fails_monthGrid_iff]
    intro h
    exact h.elim hfirst hlast
  have hpage := Date.isPage_of_monthGrid hweeks
  refine ⟨weeks, monthView_eq_ok hweeks, hpage.count, ?_, hpage.row, hpage.once, ?_,
    c.filter_reversed_eq now.date (hpage.once _ (.refl _))⟩
  · intro week hweek
    exact ⟨hpage.whole week hweek, hpage.sunday week hweek⟩
  · intro d hd
    have hmonth : d.month ≠ c.cursor.month ↔ ¬ d.SameMonth c.cursor :=
      not_congr ⟨hpage.near d hd, And.right⟩
    obtain ⟨hout, hin⟩ := c.dim_and_strike_words now.date d
    refine ⟨hout, fun hallowed => ?_⟩
    obtain ⟨hdim, hstrike⟩ := hin hallowed
    exact ⟨hdim.trans hmonth, hstrike⟩

/-- A calendar with bounds in March 2024: the 31st, which is beyond them, is on the page once, and
the 15th, on which the cursor stands, is the day that is reversed. -/
theorem monthView_shows_march :
    let now : Instant := .startOf ⟨2024, 3, 15, by decide⟩
    let c := (new [] false false now).setBounds (some now.date) (some ⟨2024, 3, 30, by decide⟩)
    (¬ c.cursor.InFirstMonth ∧ ¬ c.cursor.InLastMonth) ∧
    ∃ weeks : List (List Date), 4 ≤ weeks.length ∧
      weeks.flatten.count ⟨2024, 3, 31, by decide⟩ = 1 ∧
      weeks.flatten.filter
        (fun d => decide (("reverse" : Text) ∈ Styled.words (c.dayStyle now.date d)))
        = [⟨2024, 3, 15, by decide⟩] := by
  intro now c
  have hfirst : ¬ c.cursor.InFirstMonth := fun h => absurd h.1 (by decide)
  have hlast : ¬ c.cursor.InLastMonth := fun h => absurd h.1 (by decide)
  obtain ⟨weeks, _, hcount, _, _, honce, _, hreverse⟩ := c.monthView_shows now hfirst hlast
  exact ⟨⟨hfirst, hlast⟩, weeks, hcount.1, honce _ ⟨rfl, rfl⟩, hreverse⟩

end Calendar

end EncodedQuery

/-
  EncodedQuery.Proofs.Shell.Screen
  ────────────────────────────────
  **WHAT A SCREEN SHOWS.**

  What a screen makes of a view is not up to the program.  A screen may put an emoji in
  the place of its code, drop what cannot be seen, and refuse a text whose marks do not
  fit together or which it cannot encode.  A command that shows views reports those that
  came through (`Screen.report`), and it has said what it had to say if all of them did
  and its plain texts were not changed (`Screen.Presents`).

  What screens promise is `Screen.Documented`: ordinary views come through.

  Main results: `performOn_display`, `Screen.report_eq_iff`, `Screen.Documented.presents`,
  `Screen.documented_terminal`.
-/
import EncodedQuery.Proofs.Shell.Run
import EncodedQuery.Proofs.Text.Encodable
import EncodedQuery.Proofs.Text.Pieces
import EncodedQuery.Screen.Lines
import EncodedQuery.Shell.Listing
import EncodedQuery.Shell.Action
import EncodedQuery.Text.Printable

namespace EncodedQuery

/-! ## §1. Views that are shown. -/

namespace Screen

variable {screen : Screen} {views : List View} {exit : Nat}

/-- The screen shows the views, and plain texts as they are, each in a line of its own. -/
def Presents (screen : Screen) (views : List View) : Prop :=
  ∀ v ∈ views, (∃ t, screen.shows v = .ok t) ∧
    ∀ t, v = .plain t → screen.shows v = .ok (t ++ "\n")

/-- What is reported of a command that shows views and leaves with an exit code: what cannot be
shown is a failure. -/
def report (screen : Screen) (views : List View) (exit : Nat) : Report :=
  match screen.showsAll views with
  | (shown, none) => { printed := shown, exit }
  | (shown, some f) => { printed := shown, exit := 1, fault := some f }

/-- All views are shown if there is nothing wrong with any. -/
theorem showsAll_eq_iff : screen.showsAll views = (views, none) ↔
    ∀ v ∈ views, ∃ t, screen.shows v = .ok t := by
  induction views with
  | nil => simp [showsAll]
  | cons v rest ih =>
      rw [showsAll, List.forall_mem_cons, ← ih]
      cases screen.shows v with
      | error f => simp
      | ok t => simp [Prod.ext_iff]

/-- When nothing is wrong, nothing is left out. -/
theorem eq_of_showsAll (h : (screen.showsAll views).2 = none) :
    (screen.showsAll views).1 = views := by
  induction views with
  | nil => rfl
  | cons v rest ih =>
      rw [showsAll] at h ⊢
      cases hv : screen.shows v with
      | error f =>
          rw [hv] at h
          cases h
      | ok t =>
          rw [hv] at h
          exact congrArg (v :: ·) (ih h)

/-- **A report without a failure tells of all views.** -/
theorem report_eq_iff {printed : List View} {exit' : Nat} :
    screen.report views exit = { printed, exit := exit' } ↔
      (∀ v ∈ views, ∃ t, screen.shows v = .ok t) ∧ printed = views ∧ exit' = exit := by
  rw [← showsAll_eq_iff, report]
  have hall : (screen.showsAll views).2 = none → (screen.showsAll views).1 = views :=
    eq_of_showsAll
  generalize screen.showsAll views = shown at hall
  obtain ⟨shown, _ | f⟩ := shown
  · cases hall rfl
    simp [Report.mk.injEq, eq_comm]
  · simp

end Screen

namespace Action

/-- Showing a view comes before what follows, unless the view cannot be shown. -/
theorem performOn_display {α : Type} (v : View) (x : Unit → Action α) (desk : Desk) :
    (display v >>= x).performOn desk =
      match desk.screen.shows v with
      | .error f => { ending := .failure f, desk }
      | .ok _ => ((x ()).performOn desk).after [v] := rfl

/-- Showing views one after the other goes on up to the first that cannot be shown. -/
theorem performOn_forM_display (views : List View) (x : Action Unit) (desk : Desk) :
    (forM views display >>= fun _ => x).performOn desk =
      match desk.screen.showsAll views with
      | (shown, none) => (x.performOn desk).after shown
      | (shown, some f) => { printed := shown, ending := .failure f, desk } := by
  induction views with
  | nil => rfl
  | cons v rest ih =>
      rw [List.forM_cons, bind_assoc, performOn_display, ih, Screen.showsAll]
      cases desk.screen.shows v with
      | error f => rfl
      | ok t =>
          rcases desk.screen.showsAll rest with ⟨shown, _ | f⟩
          · exact Performance.after_after [v] shown _
          · rfl

/-- **A command that shows views and leaves** is reported as its screen shows them. -/
theorem runOn_forM_display (views : List View) {x : Action Unit} {exit : Nat} {desk : Desk}
    (hquiet : (x.performOn desk).printed = [])
    (hleaves : ∀ views, (x.performOn desk).ending.report views = { printed := views, exit }) :
    ((forM views display >>= fun _ => x).runOn desk).1 = desk.screen.report views exit := by
  rw [runOn, performOn_forM_display, Screen.report]
  rcases desk.screen.showsAll views with ⟨shown, _ | f⟩
  · show (x.performOn desk).ending.report (shown ++ (x.performOn desk).printed) = _
    rw [hquiet, List.append_nil, hleaves]
  · rfl

end Action

/-! ## §2. What screens promise. -/

/-- The text is of characters that can be seen, with no blank at its end and no code between colons
that stands for an emoji. -/
structure Text.IsSeen (isEmoji : Text → Prop) (t : Text) : Prop where
  /-- It is of characters. -/
  encodable : t.isEncodable = true
  /-- They can be seen. -/
  printable : ∀ c ∈ t, isPrintable c = true
  /-- The last one is no blank. -/
  ends : t.getLast? ≠ some (.char ' ')
  /-- No code is in it. -/
  noEmoji : ∀ before name behind, t = before ++ ":" ++ name ++ ":" ++ behind → ¬ isEmoji name

/-- The text is of characters, and nothing in it begins a mark. -/
structure Text.IsBare (t : Text) : Prop where
  /-- It is of characters. -/
  encodable : t.isEncodable = true
  /-- There is no opening bracket. -/
  noMark : .char '[' ∉ t

/-- What stands in the cell of a table: a text without marks of its own. -/
inductive View.IsCell : View → Prop
  /-- A text without marks. -/
  | bare {t : Text} (h : t.IsBare) : IsCell (.marked t)
  /-- A text between the marks of a severity. -/
  | marked {s : Severity} {t : Text} (h : t.IsBare) : IsCell (.markedAs s.style t)

/-- A view of which every screen can be expected to show it: a text that is seen as it stands, a
text without marks of its own, or a table of such texts. -/
inductive View.IsOrdinary (isEmoji : Text → Prop) : View → Prop
  /-- A text that is seen as it stands. -/
  | seen {t : Text} (h : t.IsSeen isEmoji) : IsOrdinary isEmoji (.plain t)
  /-- A text between the marks of a severity. -/
  | marked {s : Severity} {t : Text} (h : t.IsBare) : IsOrdinary isEmoji (.markedAs s.style t)
  /-- A table. -/
  | table {title : Text} {columns : List Column} {rows : List (List View)} (htitle : title.IsBare)
      (hcolumns : ∀ c ∈ columns, c.header.IsBare) (hrows : ∀ row ∈ rows, ∀ v ∈ row, v.IsCell) :
      IsOrdinary isEmoji (.table (some title) columns rows)

namespace Screen

variable {screen : Screen} {views : List View} {isEmoji : Text → Prop}

/-- **What a screen promises**, with the names of its emoji. -/
structure Documented (screen : Screen) (isEmoji : Text → Prop) : Prop where
  /-- A text that is seen as it stands is shown as it stands. -/
  seen : ∀ t : Text, t.IsSeen isEmoji → screen.shows (.plain t) = .ok (t ++ "\n")
  /-- Marks around a text that has none of its own fit together. -/
  marked : ∀ (s : Severity) (t : Text), t.IsBare → ∃ u, screen.shows (.markedAs s.style t) = .ok u
  /-- So do those in a table of such texts. -/
  table : ∀ (title : Text) (columns : List Column) (rows : List (List View)), title.IsBare →
    (∀ c ∈ columns, c.header.IsBare) → (∀ row ∈ rows, ∀ v ∈ row, v.IsCell) →
    ∃ u, screen.shows (.table (some title) columns rows) = .ok u

/-- **Ordinary views come through.** -/
theorem Documented.presents (h : screen.Documented isEmoji)
    (hviews : ∀ v ∈ views, v.IsOrdinary isEmoji) : screen.Presents views := by
  intro v hv
  cases hviews v hv with
  | seen ht =>
      refine ⟨⟨_, h.seen _ ht⟩, ?_⟩
      rintro _ ⟨⟩
      exact h.seen _ ht
  | marked ht => exact ⟨h.marked _ _ ht, nofun⟩
  | table htitle hcolumns hrows => exact ⟨h.table _ _ _ htitle hcolumns hrows, nofun⟩

end Screen

/-! ## §3. The terminal. -/

namespace View

theorem isEncodable_markedAs (s : Severity) {t : Text} (h : t.IsBare) :
    (markedAs s.style t).isEncodable = true := by
  have hstyle : Text.isEncodable s.style = true := by cases s <;> decide
  have hmarks : ∀ mark ∈ (["[", "]", "[/"] : List Text), mark.isEncodable = true := by decide
  simp only [List.forall_mem_cons, List.not_mem_nil, false_implies, implies_true, and_true]
    at hmarks
  obtain ⟨hopen, hclose, hend⟩ := hmarks
  simp only [markedAs, isEncodable, Text.isEncodable_append, hopen, hclose, hend, hstyle,
    h.encodable, Bool.and_self]

theorem IsCell.isEncodable {v : View} (h : v.IsCell) : v.isEncodable = true := by
  cases h with
  | bare ht => exact ht.encodable
  | marked ht => exact isEncodable_markedAs _ ht

theorem areEncodable_of_cells : ∀ {row : List View}, (∀ v ∈ row, v.IsCell) →
    areEncodable row = true
  | [], _ => by rw [areEncodable]
  | v :: row, h => by
      obtain ⟨hv, hrow⟩ := List.forall_mem_cons.mp h
      rw [areEncodable, hv.isEncodable, areEncodable_of_cells hrow, Bool.and_self]

theorem rowsAreEncodable_of_cells : ∀ {rows : List (List View)},
    (∀ row ∈ rows, ∀ v ∈ row, v.IsCell) → rowsAreEncodable rows = true
  | [], _ => by rw [rowsAreEncodable]
  | row :: rows, h => by
      obtain ⟨hrow, hrows⟩ := List.forall_mem_cons.mp h
      rw [rowsAreEncodable, areEncodable_of_cells hrow, rowsAreEncodable_of_cells hrows,
        Bool.and_self]

end View

/-- **A terminal keeps the promise**, and it knows no emoji. -/
theorem Screen.documented_terminal : terminal.Documented fun _ => False where
  seen t ht := by
    have hline : .char '\n' ∉ t := fun hmem => absurd (ht.printable _ hmem) (by decide)
    have hlines : (View.plain t).lines = [t] := by
      rw [View.lines, Text.cut_eq_splitOn, List.splitOn_eq_singleton hline]
    have hshown : terminal.shows (.plain t) =
        .ok ((View.plain t).lines.flatMap (fun line => line ++ "\n")) := if_pos ht.encodable
    rw [hshown, hlines, List.flatMap_singleton]
  marked s t ht := ⟨_, if_pos (View.isEncodable_markedAs s ht)⟩
  table title columns rows htitle hcolumns hrows := by
    refine ⟨_, if_pos ?_⟩
    have hheaders : columns.all (fun c => c.header.isEncodable) = true :=
      List.all_eq_true.mpr fun c hc => (hcolumns c hc).encodable
    rw [View.isEncodable, Option.getD_some, htitle.encodable, hheaders,
      View.rowsAreEncodable_of_cells hrows, Bool.and_self, Bool.and_self]

end EncodedQuery

/-
  EncodedQuery.Proofs.Shell.Run
  ─────────────────────────────
  **HOW AN ACTION ENDS.**

  On a desk an action comes to a result, or it ends without one: it leaves, says how
  it is used, or fails.  An action that follows another one starts at the desk that this
  one left, and what the two show adds up (`performOn_bind`).  So what both keep of the
  disk is kept by the two together (`Keeps`, `KeepsUnlessDone`), and behind an action that
  is quiet on the way to its result (`Quiet`) all that is shown comes from what follows.

  Main results: `performOn_bind`, `keepsUnlessDone_bind`, `performOn_bind_of_quiet`.
-/
import EncodedQuery.Shell.Action

namespace EncodedQuery

/-- The failure, if that is the end. -/
def Ending.fault? {α : Type} : Ending α → Option Fault
  | failure f => some f
  | _ => none

theorem Performance.after_after {α : Type} (views later : List View) (p : Performance α) :
    (p.after later).after views = p.after (views ++ later) := by
  rw [after, after, after, List.append_assoc]

namespace Action

variable {α β γ : Type}

/-! ## §1. Ends. -/

/-- What becomes of an action behind another one. -/
def follow (f : α → Action β) (p : Performance α) : Performance β :=
  match p.ending with
  | .result a => ((f a).performOn p.desk).after p.printed
  | .exit n => { p with ending := .exit n }
  | .usage asked => { p with ending := .usage asked }
  | .failure fault => { p with ending := .failure fault }

theorem follow_after (f : α → Action β) (views : List View) (p : Performance α) :
    follow f (p.after views) = (follow f p).after views := by
  obtain ⟨printed, ending, desk⟩ := p
  cases ending with
  | result a => exact (Performance.after_after views printed _).symm
  | exit | usage | failure => rfl

/-- **Two actions in a row**: the second one starts where the first one came to a result. -/
theorem performOn_bind (x : Action α) (f : α → Action β) (desk : Desk) :
    (x >>= f).performOn desk = follow f (x.performOn desk) := by
  show (x.bind f).performOn desk = _
  induction x generalizing desk with
  | done | leave | usage | fail => rfl
  | print v next ih =>
      -- behind a view that cannot be shown neither action goes on
      rw [bind, performOn, performOn]
      cases desk.screen.shows v with
      | error fault => rfl
      | ok t => exact (congrArg (·.after [v]) (ih desk)).trans (follow_after f [v] _).symm
  | look path next ih | readFile path next ih | resolve path next ih => exact ih _ desk
  | changeDisk c next ih =>
      -- the action goes on behind a change that fails, too: it is told of the fault
      rw [bind, performOn, performOn]
      cases desk.disk.apply c with
      | ok disk => exact ih _ _
      | error fault => exact ih _ desk
  | readInput next ih | lookAtClock next ih => exact ih _ _
  | converse d next ih =>
      rw [bind, performOn, performOn]
      generalize d.run desk.now desk.lines = answer
      obtain ⟨views, result⟩ := answer
      dsimp only
      rcases desk.screen.showsAll views with ⟨shown, _ | fault⟩
      · exact (congrArg (·.after shown) (ih result desk)).trans (follow_after f shown _).symm
      · rfl

/-- The action comes to a result, and leaves a desk. -/
def Gives (x : Action α) (desk : Desk) (a : α) (desk' : Desk) : Prop :=
  (x.performOn desk).ending = .result a ∧ (x.performOn desk).desk = desk'

theorem performOn_bind_of_gives {x : Action α} {f : α → Action β} {desk desk' : Desk} {a : α}
    (h : x.Gives desk a desk') :
    (x >>= f).performOn desk = ((f a).performOn desk').after (x.performOn desk).printed := by
  rw [performOn_bind, follow, h.1, ← h.2]

/-- The second action matters only behind a result of the first. -/
theorem performOn_bind_cases (x : Action α) (f : α → Action β) (desk : Desk) :
    (∃ a desk', x.Gives desk a desk') ∨
      (∀ a, (x.performOn desk).ending ≠ .result a) ∧
        (∀ b, ((x >>= f).performOn desk).ending ≠ .result b) ∧
        ((x >>= f).performOn desk).desk = (x.performOn desk).desk := by
  rw [performOn_bind, follow]
  cases hend : (x.performOn desk).ending with
  | result a => exact .inl ⟨a, _, hend, rfl⟩
  | exit | usage | failure => exact .inr ⟨nofun, nofun, rfl⟩

/-- A result of both comes from a result of each. -/
theorem exists_of_gives_bind {x : Action α} {f : α → Action β} {desk desk'' : Desk} {b : β}
    (h : (x >>= f).Gives desk b desk'') :
    ∃ a desk', x.Gives desk a desk' ∧ (f a).Gives desk' b desk'' := by
  obtain ⟨a, desk', hx⟩ | ⟨-, hnone, -⟩ := performOn_bind_cases x f desk
  · refine ⟨a, desk', hx, ?_⟩
    unfold Gives at h
    rwa [performOn_bind_of_gives hx] at h
  · exact absurd h.1 (hnone b)

/-- A change that comes to a result was made. -/
theorem apply_of_gives_change {c : Disk.Change} {desk desk' : Desk} {u : Unit}
    (h : (change c).Gives desk u desk') : desk.disk.apply c = .ok desk'.disk := by
  obtain ⟨hend, rfl⟩ := h
  unfold change at hend ⊢
  rw [performOn] at hend ⊢
  cases happly : desk.disk.apply c with
  | ok disk => rfl
  | error fault =>
      rw [happly] at hend
      cases hend

/-- No action changes the screen. -/
theorem screen_performOn (x : Action α) (desk : Desk) :
    (x.performOn desk).desk.screen = desk.screen := by
  induction x generalizing desk with
  | done | leave | usage | fail => rfl
  | print v next ih =>
      rw [performOn]
      cases desk.screen.shows v with
      | error fault => rfl
      | ok t => exact ih desk
  | look path next ih | readFile path next ih | resolve path next ih => exact ih _ desk
  | changeDisk c next ih =>
      rw [performOn]
      cases desk.disk.apply c with
      | ok disk => exact ih _ _
      | error fault => exact ih _ desk
  | readInput next ih | lookAtClock next ih => exact ih _ _
  | converse d next ih =>
      rw [performOn]
      generalize d.run desk.now desk.lines = answer
      obtain ⟨views, result⟩ := answer
      dsimp only
      rcases desk.screen.showsAll views with ⟨shown, _ | fault⟩
      · exact ih result desk
      · rfl

theorem Gives.screen_eq {x : Action α} {desk desk' : Desk} {a : α} (h : x.Gives desk a desk') :
    desk'.screen = desk.screen := by
  rw [← h.2, screen_performOn]

/-! ## §2. What is kept. -/

section
variable {view : Disk → γ} {x : Action α} {f : α → Action β}

/-- However the action ends, the disk shows the same as before. -/
def Keeps (view : Disk → γ) (x : Action α) : Prop :=
  ∀ desk, view (x.performOn desk).desk.disk = view desk.disk

/-- Unless the action comes to a result, the disk shows the same as before. -/
def KeepsUnlessDone (view : Disk → γ) (x : Action α) : Prop :=
  ∀ desk, (∀ a, (x.performOn desk).ending ≠ .result a) →
    view (x.performOn desk).desk.disk = view desk.disk

theorem Keeps.unlessDone (h : Keeps view x) : KeepsUnlessDone view x := fun desk _ => h desk

theorem keeps_done (a : α) : Keeps view (done a) := fun _ => rfl

theorem keeps_fail (fault : Fault) : Keeps view (fail fault : Action α) := fun _ => rfl

theorem keeps_ofDisk (e : Except FileFault α) : Keeps view (ofDisk e) := by
  cases e with
  | ok a => exact keeps_done a
  | error fault => exact keeps_fail _

theorem keeps_bind (hx : Keeps view x) (hf : ∀ a, Keeps view (f a)) : Keeps view (x >>= f) := by
  intro desk
  obtain ⟨a, desk', hgives⟩ | ⟨-, -, hdesk⟩ := performOn_bind_cases x f desk
  · rw [performOn_bind_of_gives hgives]
    exact (hf a desk').trans (by rw [← hgives.2, hx desk])
  · rw [hdesk, hx desk]

theorem keepsUnlessDone_bind (hx : Keeps view x) (hf : ∀ a, KeepsUnlessDone view (f a)) :
    KeepsUnlessDone view (x >>= f) := by
  intro desk hnone
  obtain ⟨a, desk', hgives⟩ | ⟨-, -, hdesk⟩ := performOn_bind_cases x f desk
  · rw [performOn_bind_of_gives hgives] at hnone ⊢
    exact (hf a desk' hnone).trans (by rw [← hgives.2, hx desk])
  · rw [hdesk, hx desk]

/-- A value that is given in the end takes nothing back. -/
theorem keepsUnlessDone_map (hx : KeepsUnlessDone view x) (b : β) :
    KeepsUnlessDone view (x >>= fun _ => done b) := by
  intro desk hnone
  obtain ⟨a, desk', hgives⟩ | ⟨hend, -, hdesk⟩ := performOn_bind_cases x (fun _ => done b) desk
  · rw [performOn_bind_of_gives hgives] at hnone
    exact absurd rfl (hnone b)
  · rw [hdesk, hx desk hend]

/-- What shows the same after a change is kept by it. -/
theorem keeps_changeDisk {c : Disk.Change} {next : Except FileFault Unit → Action α}
    (hchange : ∀ d d', Disk.apply d c = .ok d' → view d' = view d)
    (hnext : ∀ r, Keeps view (next r)) : Keeps view (changeDisk c next) := by
  intro desk
  rw [performOn]
  cases happly : desk.disk.apply c with
  | ok disk => exact (hnext _ _).trans (hchange _ _ happly)
  | error f => exact hnext _ desk

theorem keeps_atPath (path : Text) : Keeps view ( entry? path) := by
  intro desk
  unfold entry?
  rw [performOn]
  rcases desk.disk.look path with f | e
  · cases f <;> rfl
  · rfl

theorem keeps_file (path : Text) : Keeps view (file path) :=
  fun desk => keeps_ofDisk (desk.disk.read path) desk

end

/-! ## §3. Actions in a row. -/

theorem bind_done (x : Action α) : x.bind done = x := by
  induction x with
  | done | leave | usage | fail => rfl
  | print v next ih => rw [bind, ih]
  | look _ next ih | readFile _ next ih | resolve _ next ih | changeDisk _ next ih
  | readInput next ih | lookAtClock next ih | converse _ next ih =>
      rw [bind]
      congr 1
      exact funext ih

theorem bind_bind (x : Action α) (f : α → Action β) (g : β → Action γ) :
    (x.bind f).bind g = x.bind fun a => (f a).bind g := by
  induction x with
  | done | leave | usage | fail => rfl
  | print v next ih => rw [bind, bind, bind, ih]
  | look _ next ih | readFile _ next ih | resolve _ next ih | changeDisk _ next ih
  | readInput next ih | lookAtClock next ih | converse _ next ih =>
      rw [bind, bind, bind]
      congr 1
      exact funext ih

instance : LawfulMonad Action := LawfulMonad.mk' Action bind_done (fun _ _ => rfl) bind_bind

/-! ## §4. What is shown. -/

/-- The action shows nothing on the way to a result. -/
def Quiet (x : Action α) : Prop :=
  ∀ desk a desk', x.Gives desk a desk' → (x.performOn desk).printed = []

theorem quiet_done (a : α) : Quiet (done a) := fun _ _ _ _ => rfl

theorem quiet_fail (fault : Fault) : Quiet (fail fault : Action α) := fun _ _ _ _ => rfl

theorem quiet_ofExcept (e : Except Fault α) : Quiet (ofExcept e) := by
  cases e <;> exact fun _ _ _ _ => rfl

theorem quiet_ofDisk (e : Except FileFault α) : Quiet (ofDisk e) := by
  cases e <;> exact fun _ _ _ _ => rfl

theorem quiet_file (path : Text) : Quiet (file path) :=
  fun desk => quiet_ofDisk (desk.disk.read path) desk

theorem quiet_atPath (path : Text) : Quiet ( entry? path) := by
  intro desk a desk' _
  unfold entry?
  rw [performOn]
  rcases desk.disk.look path with f | e
  · cases f <;> rfl
  · rfl

/-- Behind a quiet action all that is shown comes from what follows. -/
theorem performOn_bind_of_quiet {x : Action α} {f : α → Action β} {desk desk' : Desk} {a : α}
    (hquiet : Quiet x) (h : x.Gives desk a desk') :
    (x >>= f).performOn desk = (f a).performOn desk' := by
  rw [performOn_bind_of_gives h, hquiet desk a desk' h]
  rfl

theorem quiet_bind {x : Action α} {f : α → Action β} (hx : Quiet x) (hf : ∀ a, Quiet (f a)) :
    Quiet (x >>= f) := by
  intro desk b desk'' h
  obtain ⟨a, desk', hgives, hrest⟩ := exists_of_gives_bind h
  rw [performOn_bind_of_quiet hx hgives]
  exact hf a desk' b desk'' hrest

end Action

end EncodedQuery

/-
  EncodedQuery.Proofs.Builder.Origin
  ──────────────────────────────────
  **COMMITTED RANGES ARE WELL FORMED.**

  A range of days is typed, picked in two calendars or taken by its name, and it
  may be taken back and picked anew before it is committed.  However it came
  about, its ends are in order and its value is read as the same two ends.  Where
  they must not lie on one day they do not, unless the range was taken by its
  name; nothing in a committed range tells this, so a session is followed
  together with a mark for every condition.

  Main results:
    • `Marked.exists_of_reachable` — the marks go along with every session,
    • `Spread.step` — a key brings in no range on one day, unless it takes it by
      its name,
    • `Marked.ranges` — what holds of every committed range.
-/
import EncodedQuery.Proofs.Builder.Ranges

namespace EncodedQuery.Builder

/-! ## §1. Marks. -/

/-- Beside a session: which conditions came from a named range. -/
structure Marks where
  /-- The marks of the committed conditions. -/
  committed : List Bool := []
  /-- The mark of the condition that waits for its link. -/
  pending : Bool := false

/-- The marks after a change of the core, given whether it took a named range.  A condition that
waits has its mark already; a condition that is committed takes its mark along, and a condition that
is removed takes it away. -/
def Marks.after (m : Marks) (c : Core) (took : Bool) (c' : Core) : Marks :=
  let mark := if c.pending.isSome then m.pending else took
  { committed :=
      if c.conditions.conditions.length < c'.conditions.conditions.length then m.committed ++ [mark]
      else m.committed.take c'.conditions.conditions.length
    pending := mark }

/-- The key takes a named range. -/
def TakesPreset (b : Builder) (k : Key) : Prop :=
  b.stage = .rangePicker ∧ b.rangePicker.TakesPreset k

instance (b : Builder) (k : Key) : Decidable (b.TakesPreset k) :=
  inferInstanceAs (Decidable (_ ∧ _))

/-- The event takes a named range. -/
def takesPreset (b : Builder) : Event → Bool
  | .message (.key _ k) => decide (b.TakesPreset k)
  | _ => false

/-- The states that a new builder gets to, with the marks of the conditions. -/
inductive Marked (table : Table) (settings : Settings) (resolver : Resolver) :
    Builder → Marks → Prop
  /-- A new builder, and nothing to mark. -/
  | created {now : Instant} {b : Builder} (h : create table settings resolver now = .ok b) :
      Marked table settings resolver b {}
  /-- One more event. -/
  | event {b b' : Builder} {m : Marks} {e : Event} (hb : Marked table settings resolver b m)
      (h : b.after e = .ok b') :
      Marked table settings resolver b' (m.after b.core (b.takesPreset e) b'.core)

section
variable {table : Table} {settings : Settings} {resolver : Resolver} {b : Builder} {m : Marks}

theorem Marked.reachable (h : Marked table settings resolver b m) :
    Reachable table settings resolver b := by
  induction h with
  | created h => exact .created h
  | event _ h ih => exact ih.event h

/-- The marks go along with every session. -/
theorem Marked.exists_of_reachable (h : Reachable table settings resolver b) :
    ∃ m, Marked table settings resolver b m := by
  induction h with
  | created h => exact ⟨{}, .created h⟩
  | event _ h ih =>
      obtain ⟨m, hm⟩ := ih
      exact ⟨_, hm.event h⟩

end

/-! ## §2. Ranges on one day. -/

/-- A condition without the mark does not begin and end on one day, unless that is allowed. -/
def Apart (allowSameDay mark : Bool) (c : Condition) : Prop :=
  allowSameDay = false → mark = false → ∀ a ∈ c.start, ∀ z ∈ c.stop, a.date ≠ z.date

/-- The conditions of a core keep the days of their ends apart. -/
structure Spread (allowSameDay : Bool) (c : Core) (m : Marks) : Prop where
  /-- The committed ones. -/
  committed : List.Forall₂ (Apart allowSameDay) m.committed c.conditions.conditions
  /-- The one that waits. -/
  pending : ∀ d ∈ c.pending, Apart allowSameDay m.pending d

section
variable {allowSameDay took : Bool} {m : Marks}

theorem Spread.length_eq {c : Core} (h : Spread allowSameDay c m) :
    m.committed.length = c.conditions.conditions.length := h.committed.length_eq

/-- While the committed conditions stay, so do their marks. -/
theorem Spread.of_conditions_eq {c c' : Core} (h : Spread allowSameDay c m)
    (hc : c'.conditions = c.conditions)
    (hp : ∀ d ∈ c'.pending, Apart allowSameDay (m.after c took c').pending d) :
    Spread allowSameDay c' (m.after c took c') := by
  refine ⟨?_, hp⟩
  have hmarks : (m.after c took c').committed = m.committed := by
    rw [Marks.after, hc, ← h.length_eq, if_neg (Nat.lt_irrefl _), List.take_length]
  rw [hmarks, hc]
  exact h.committed

/-- A condition that waits has its mark. -/
theorem Marks.pending_after {c : Core} (m : Marks) (c' : Core) {d : Condition}
    (h : c.pending = some d) : (m.after c took c').pending = m.pending := by
  rw [Marks.after, h]
  rfl

theorem Spread.of_same {c c' : Core} (h : Spread allowSameDay c m)
    (hc : c'.conditions = c.conditions) (hp : c'.pending = c.pending) :
    Spread allowSameDay c' (m.after c took c') := by
  refine h.of_conditions_eq hc fun d hd => ?_
  rw [hp] at hd
  rw [m.pending_after c' hd]
  exact h.pending d hd

/-- A condition that is committed takes its mark along. -/
theorem Spread.of_append {c c' : Core} (h : Spread allowSameDay c m) {d : Condition}
    {link : Option Link} (hc : c'.conditions = c.conditions.append d link) (hp : c'.pending = none)
    (hd : Apart allowSameDay (m.after c took c').pending d) :
    Spread allowSameDay c' (m.after c took c') := by
  refine ⟨?_, by simp [hp]⟩
  have hmarks : (m.after c took c').committed = m.committed ++ [(m.after c took c').pending] := by
    rw [Marks.after, hc, Chain.length_append, if_pos (Nat.lt_succ_self _)]
  rw [hmarks, hc]
  exact Chain.forall₂_append (fun _ _ _ h => h) h.committed hd link

/-- Without conditions there are no marks. -/
theorem spread_of_empty {c c' : Core} (hc : c'.conditions = .empty) (hp : c'.pending = none) :
    Spread allowSameDay c' (m.after c took c') := by
  refine ⟨?_, by simp [hp]⟩
  have hmarks : (m.after c took c').committed = [] := by
    simp [Marks.after, hc, Chain.empty]
  rw [hmarks, hc]
  exact .nil

/-- **A key brings in no range on one day**, unless it takes it by its name. -/
theorem Spread.step {c c' : Core} {k : Key} {d : Option Condition} (h : Spread allowSameDay c m)
    (hcoherent : c.Coherent) (hs : Core.Step c k d c')
    (hd : ∀ e ∈ d, Apart allowSameDay took e) :
    Spread allowSameDay c' (m.after c took c') := by
  -- a key that completes a condition does so while none waits, and so gives it its own mark
  have hnew : ∀ {e : OperatorEntry} {d : Condition}, c.Completes e d → Apart allowSameDay took d →
      Apart allowSameDay (m.after c took c').pending d := by
    intro e d hd h
    have hnone : c.pending = none := by simpa using mt hcoherent.pending.mp hd.chooses.stage.2.1
    rw [Marks.after, hnone]
    exact h
  cases hs with
  | keep | chooseField | leaveOperators | openValue | back | reject | finish =>
      exact h.of_same rfl rfl
  | first hcompletes _ _ => exact h.of_append rfl rfl (hnew hcompletes (hd _ rfl))
  | later hcompletes _ _ =>
      refine h.of_conditions_eq rfl ?_
      rintro d ⟨⟩
      exact hnew hcompletes (hd _ rfl)
  | commit link _ hwaits =>
      refine h.of_append rfl rfl ?_
      rw [m.pending_after _ hwaits]
      exact h.pending _ hwaits
  | @removeLast d rest hpop =>
      have hmarks : (m.after c took { c with conditions := rest }).committed =
          m.committed.take rest.conditions.length := by
        rw [Marks.after, if_neg (Nat.not_lt.mpr (Chain.length_le_of_pop? hpop))]
      refine ⟨?_, fun d hd => ?_⟩
      · rw [hmarks]
        exact Chain.forall₂_of_pop? (fun _ _ _ h => h) h.committed hpop
      · rw [m.pending_after _ (show c.pending = some d from hd)]
        exact h.pending d hd
  | restart | cancel => exact spread_of_empty rfl rfl

end

/-! ## §3. What a key completes. -/

section
variable {table : Table} {b : Builder}

/-- A typed range has nothing wrong with its order. -/
theorem problem_of_typedRange? {a z : Instant} (h : b.typedRange? = some (a, z)) :
    RangePicker.problem b.rangePicker.allowSameDay a z = [] := by
  unfold typedRange? at h
  dsimp only at h
  split at h
  next =>
    generalize (if .char ':' ∈ Text.strip b.stopInput.value then _ else _) = stop at h
    split at h <;> cases h
    next hok => exact List.isEmpty_iff.mp hok
  next => cases h

/-- **A completed condition keeps the days of its ends apart**, unless the key takes a named
range. -/
theorem apart_of_completed? (hb : b.InOrder table) {now : Instant} {k : Key} {c : Condition}
    (h : b.completed? now k = some c) :
    Apart b.rangePicker.allowSameDay (decide (b.TakesPreset k)) c := by
  -- a single condition has no ends at all
  have hsingle : c.start = none →
      Apart b.rangePicker.allowSameDay (decide (b.TakesPreset k)) c := by
    intro hnone _ _ a ha
    rw [hnone] at ha
    cases ha
  rcases completed?_cases h with ⟨item, _, hc⟩ | ⟨_, _, value, hc⟩ | ⟨_, _, a, z, hgives, hc⟩
  · unfold plainCondition? at hc
    split at hc
    · cases hc
    · obtain ⟨f, e, _, _, rfl⟩ := valueCondition?_eq_some hc
      exact hsingle rfl
  · obtain ⟨f, e, _, _, rfl⟩ := valueCondition?_eq_some hc
    exact hsingle rfl
  · obtain ⟨f, e, _, _, rfl⟩ := rangeCondition?_eq_some hc
    intro hallow htook
    replace htook : ¬ b.TakesPreset k := of_decide_eq_false htook
    have horder : RangePicker.problem b.rangePicker.allowSameDay a z = [] := by
      rcases hgives with ⟨hs, p, hp, hclosed⟩ | ⟨_, htyped⟩
      · have hopen : b.rangePicker.active = true := hb.coherent.rangePicker.mpr hs
        exact RangePicker.problem_of_update hopen hp hclosed fun hk => htook ⟨hs, hk⟩
      · exact problem_of_typedRange? htyped
    rintro _ ⟨⟩ _ ⟨⟩
    exact ((RangePicker.problem_eq_nil_iff _ _ _).mp horder).2 hallow

end

/-! ## §4. Every session. -/

section
variable {table : Table} {settings : Settings} {resolver : Resolver} {b : Builder} {m : Marks}

/-- Whether both ends may lie on one day is settled when the builder is made. -/
theorem History.allowSameDay_eq (h : History table settings resolver b) :
    b.rangePicker.allowSameDay = settings.allowSameDay :=
  (RangePicker.make_of_renewed_eq (congrArg Frame.rangePicker (h.frame_eq ides))).2

theorem Marked.spread (h : Marked table settings resolver b m) :
    Spread settings.allowSameDay b.core m := by
  induction h with
  | created h =>
      unfold create at h
      split at h <;> cases h
      exact ⟨by simp [core, new, Chain.empty], by simp [core, new]⟩
  | @event b b' m e hb h ih =>
      have horder := hb.reachable.inOrder
      rcases core_after h with hcore | ⟨now, k, rfl, hkey⟩
      · rw [hcore]
        exact ih.of_same rfl rfl
      · refine ih.step horder.coherent (horder.step hkey) fun c hc => ?_
        rw [← hb.reachable.history.allowSameDay_eq]
        exact apart_of_completed? horder hc

/-- A row of keys, with the marks. -/
def typeMarked (now : Instant) : List Key → Builder × Marks → Except Fault (Builder × Marks)
  | [], s => .ok s
  | k :: ks, s => do
      let b' ← s.1.update now k
      typeMarked now ks (b', s.2.after s.1.core (decide (s.1.TakesPreset k)) b'.core)

/-- **Every committed range of days is well formed.**  Its ends stand beside its value and are in
order, and its value is their literal, which is read as the same two ends.  Where the ends of a
range must not lie on one day they do not, unless it was taken by its name. -/
theorem Marked.ranges (h : Marked table settings resolver b m) :
    List.Forall₂
      (fun fromPreset c =>
        c.field.type.isDate = true → c.operator = Operator.between.token →
          ∃ a z, c.start = some a ∧ c.stop = some z ∧ a ≤ z ∧
            c.value = Instant.rangeLiteral a z ∧
            Instant.readRange c.value = .ok (some (a, z)) ∧
            (settings.allowSameDay = false → fromPreset = false → a.date ≠ z.date))
      m.committed b.conditions.conditions := by
  have hcomposed := h.reachable.composed.committed
  have haccepted := h.reachable.inOrder.sound.committed
  rw [List.forall₂_iff_get]
  refine ⟨h.spread.length_eq, fun i hm hi hdate hoperator => ?_⟩
  have happart : Apart settings.allowSameDay (m.committed.get ⟨i, hm⟩)
      (b.conditions.conditions.get ⟨i, hi⟩) := h.spread.committed.get hm hi
  generalize hc : b.conditions.conditions.get ⟨i, hi⟩ = c at *
  have hmem : c ∈ b.conditions.conditions := hc ▸ List.get_mem _ _
  rcases hcomposed c hmem with hsingle | ⟨a, z, hrange⟩
  · exact absurd hoperator (hsingle.operator hdate)
  · obtain ⟨ha, hz, hle⟩ := hrange.of_check (haccepted c hmem).check
    refine ⟨a, z, hrange.start, hrange.stop, hle, hrange.value, ?_, fun hallow hmark => ?_⟩
    · rw [hrange.value, (Instant.readRange_rangeLiteral a z).1 ⟨ha, hz⟩,
        Instant.wholeSecond_eq_self hrange.wholeStart, Instant.wholeSecond_eq_self hrange.wholeStop]
    · exact happart hallow hmark a hrange.start z hrange.stop

/-- A row of keys for a new builder leads to a state with marks. -/
theorem exists_marked (table : Table) (settings : Settings) (resolver : Resolver) (now : Instant)
    (ks : List Key) (p : Builder × Marks → Bool)
    (h : ((create table settings resolver now).bind
      (fun b => typeMarked now ks (b, {}))).toOption.any p) :
    ∃ b m, Marked table settings resolver b m ∧ p (b, m) = true := by
  have hrun : ∀ (ks : List Key) (s : Builder × Marks), Marked table settings resolver s.1 s.2 →
      (typeMarked now ks s).toOption.any p = true →
      ∃ b m, Marked table settings resolver b m ∧ p (b, m) = true := by
    intro ks
    induction ks with
    | nil => exact fun s hs hp => ⟨s.1, s.2, hs, hp⟩
    | cons k rest ih =>
        intro s hs hp
        rw [typeMarked] at hp
        cases hu : s.1.update now k with
        | error f => rw [hu] at hp; cases hp
        | ok b' =>
            rw [hu] at hp
            exact ih _ (hs.event (e := .message (.key now k)) hu) hp
  cases hc : create table settings resolver now with
  | error f => rw [hc] at h; cases h
  | ok b =>
      rw [hc] at h
      exact hrun ks (b, {}) (.created hc) h

/-- Ranges must not begin and end on one day.  Today is taken by its name all the same, and the
range that is picked in the calendars next ends on the next day. -/
theorem ranges_named_and_picked :
    ∃ b m, Marked oneDay { allowSameDay := false } noSearches b m ∧ m.committed = [true, false] ∧
      ∃ c d, b.conditions.conditions = [c, d] ∧
        (∃ a z, c.start = some a ∧ c.stop = some z ∧ a ≤ z) ∧
        ∃ a z, Instant.readRange d.value = .ok (some (a, z)) ∧ a ≤ z ∧ a.date ≠ z.date := by
  obtain ⟨b, m, hm, hrun⟩ := exists_marked oneDay { allowSameDay := false } noSearches ides
    [.enter, .down, .down, .down, .down, .enter, .char 'p', .enter,
     .enter, .down, .down, .down, .down, .enter, .enter, .enter, .right, .enter, .enter, .enter]
    (fun s => decide (s.2.committed = [true, false]) && s.1.conditions.conditions.all
      (fun c => decide (c.field.type.isDate = true ∧ c.operator = Operator.between.token)))
    (by decide +kernel)
  simp only [Bool.and_eq_true, decide_eq_true_eq, List.all_eq_true] at hrun
  obtain ⟨hmarks, hall⟩ := hrun
  have hranges := hm.ranges
  rw [hmarks, List.forall₂_cons_left_iff] at hranges
  obtain ⟨c, _, hc, hlater, hconditions⟩ := hranges
  obtain ⟨d, _, hd, hrest, rfl⟩ := List.forall₂_cons_left_iff.mp hlater
  obtain rfl := List.forall₂_nil_left_iff.mp hrest
  rw [hconditions] at hall
  obtain ⟨a, z, hstart, hstop, hle, _⟩ := hc (hall c (by simp)).1 (hall c (by simp)).2
  obtain ⟨a', z', _, _, hle', _, hread, hdays⟩ := hd (hall d (by simp)).1 (hall d (by simp)).2
  exact ⟨b, m, hm, hmarks, c, d, hconditions, ⟨a, z, hstart, hstop, hle⟩, a', z', hread, hle',
    hdays rfl rfl⟩

end

end EncodedQuery.Builder

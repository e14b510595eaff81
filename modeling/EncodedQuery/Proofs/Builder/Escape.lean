/-
  EncodedQuery.Proofs.Builder.Escape
  ──────────────────────────────────
  **ESC ALWAYS GETS OUT.**

  Esc leads from the widget for a value back to the operators, from there to the
  fields, and from the fields out of the builder.  While a link is asked for it
  leads out differently: the condition that waits is committed, and a field is
  asked for next.  The pickers for days have ways out of their own, so it takes
  Esc five times to get out of the deepest of them.

  A picker that is closed while its stage lasts would ignore Esc for ever.  That
  it is open is part of the order that every key keeps; that the calendar inside
  the picker for a range is open is kept step by step.

  Main results: `Builder.update_esc`, `Reachable.escapes`, `Reachable.escapes_loaded`.
-/
import EncodedQuery.Proofs.Builder.Ranges
import EncodedQuery.Proofs.Builder.Searching
import EncodedQuery.Proofs.Picker.Escape
import EncodedQuery.Proofs.Source.Names

namespace EncodedQuery

namespace Builder

/-! ## §1. Every reachable state. -/

/-- The picker for a range stays awake, whatever a builder does to it. -/
theorem awake_of_steps {p p' : RangePicker} (h : Relation.ReflTransGen RangePicker.Step p p')
    (hp : p.Awake) : p'.Awake := by
  induction h with
  | refl => exact hp
  | tail _ h ih =>
      cases h with
      | key h => exact ih.update h
      | activate => exact RangePicker.awake_activate _ _
      | reopen => exact RangePicker.awake_reopen _
      | deactivate => exact ih.deactivate

/-- A condition waits only after another one was committed. -/
theorem Core.Step.pending_cases {c c' : Core} {k : Key} {d : Option Condition}
    (hs : Core.Step c k d c') :
    c'.pending = c.pending ∨ c'.pending = none ∨ c.conditions.conditions ≠ [] := by
  cases hs with
  | keep | chooseField | leaveOperators | openValue | back | reject | removeLast | finish =>
      exact .inl rfl
  | first | commit | restart | cancel => exact .inr (.inl rfl)
  | later _ _ hc => exact .inr (.inr hc)

section
variable {table : Table} {settings : Settings} {resolver : Resolver} {b : Builder}

/-- **In every reachable state the picker for a range is awake.** -/
theorem Reachable.awake (h : Reachable table settings resolver b) : b.rangePicker.Awake := by
  induction h with
  | created h =>
      unfold create at h
      split at h <;> cases h
      exact RangePicker.awake_new _ _ _ _
  | @event b b' e hb h ih =>
      cases e with
      | message m =>
          cases m with
          | key now k => exact awake_of_steps (moves_key hb.inOrder.coherent h).rangePicker ih
          | answer r =>
              cases h
              rw [(shown_deliver b r).rest]
              exact ih
      | poll =>
          cases h
          have hshown := shown_foldl_deliver b.reference.resolver.poll.1 b.collected
          rw [show b.poll.2 = _ from hshown.rest]
          exact ih
      | ask | post =>
          cases h
          exact ih

/-- **The condition that waits is on a field that has a name.** -/
theorem Reachable.pending_onNamed (h : Reachable table settings resolver b)
    (hnames : table.NamesAlike) : ∀ c ∈ b.pending, OnNamed c := by
  rcases hnames with hnamed | hodd
  · intro c hc
    have haccepts : b.table.Accepts c := h.inOrder.sound.pending c hc
    rw [h.inOrder.table] at haccepts
    exact hnamed _ haccepts.field
  · -- no condition on such a field is ever committed, so none waits
    have hnone : b.pending = none := by
      induction h with
      | created h =>
          unfold create at h
          split at h <;> cases h
          rfl
      | @event b b' e hb h ih =>
          have hempty : b.conditions.conditions = [] := by
            refine List.eq_nil_iff_forall_not_mem.mpr fun c hc => ?_
            have haccepts : b.table.Accepts c := hb.inOrder.sound.committed c hc
            rw [hb.inOrder.table] at haccepts
            have hsome := hodd _ haccepts.field
            rw [hb.onNamed c hc] at hsome
            cases hsome
          rcases core_after h with hcore | ⟨now, k, rfl, hkey⟩
          · exact (congrArg Core.pending hcore).trans ih
          · rcases (hb.inOrder.step hkey).pending_cases with hsame | hnone | hne
            · exact hsame.trans ih
            · exact hnone
            · exact absurd hempty hne
    simp [hnone]

end

/-! ## §2. One step closer. -/

/-- The number of times that Esc has to be pressed. -/
def depth (b : Builder) : Nat :=
  match b.stage with
  | .finished => 0
  | .field => 1
  | .operator | .link => 2
  | .value | .choice | .reference | .rangeText => 3
  | .calendar => b.calendar.depth + 2
  | .rangePicker => b.rangePicker.depth + 2

theorem depth_le (b : Builder) : b.depth ≤ 5 := by
  have hcalendar := b.calendar.depth_le
  have hrange := b.rangePicker.depth_le
  unfold depth
  split <;> omega

theorem depth_pos {b : Builder} (h : b.stage ≠ .finished) : 0 < b.depth := by
  unfold depth
  split <;> first | exact absurd ‹_› h | exact Nat.succ_pos _

/-- The builder was left with nothing done: it takes no keys, and nothing is committed. -/
structure GivenUp (b : Builder) : Prop where
  /-- It takes no keys. -/
  active : b.active = false
  /-- The filter was given up. -/
  cancelled : b.cancelled = true
  /-- Nothing is committed. -/
  conditions : b.conditions = Chain.empty

theorem givenUp_cancel (b : Builder) : b.cancel.GivenUp := ⟨rfl, rfl, rfl⟩

/-- What a key leads to is closer to the way out, or out. -/
def Closer (b b' : Builder) : Prop := (b'.active = true ∧ b'.depth < b.depth) ∨ b'.GivenUp

section
variable {b : Builder} (ha : b.active = true)
include ha

/-- From a value Esc leads back to the operators. -/
theorem closer_backToOperators (h : 2 < b.depth) : Closer b b.backToOperators := .inl ⟨ha, h⟩

/-- While a record is asked for, Esc closes its picker. -/
theorem closer_referenceKey (hs : b.stage = .reference) (hopen : b.reference.active = true) :
    (b.referenceKey .esc).conditions = b.conditions ∧ Closer b (b.referenceKey .esc) := by
  have hkey : b.referenceKey .esc =
      backToOperators { b with reference := b.reference.update .esc } := by
    simp [referenceKey, ReferencePicker.update, ReferencePicker.deactivate, hopen]
  rw [hkey]
  exact ⟨rfl, .inl ⟨ha, by simp [depth, hs, backToOperators]⟩⟩

theorem closer_calendarKey (hs : b.stage = .calendar) (hopen : b.calendar.active = true)
    (now : Instant) :
    ∃ b', b.calendarKey now .esc = .ok b' ∧ b'.conditions = b.conditions ∧ Closer b b' := by
  obtain ⟨c, hc, hcases⟩ := Calendar.update_esc hopen now
  have hdepth : b.depth = b.calendar.depth + 2 := by simp [depth, hs]
  unfold calendarKey
  rw [hc]
  refine ⟨_, rfl, ?_⟩
  dsimp only
  rcases hcases with ⟨hactive, hlt⟩ | ⟨hactive, hdone⟩
  · rw [if_pos hactive]
    exact ⟨rfl, .inl ⟨ha, by simp [depth, hs, hlt]⟩⟩
  · rw [if_neg (by simp [hactive]), if_neg (by simp [hdone])]
    refine ⟨rfl, .inl ⟨ha, ?_⟩⟩
    rw [hdepth]
    exact Nat.lt_add_of_pos_left b.calendar.depth_pos

theorem closer_rangePickerKey (hs : b.stage = .rangePicker) (hopen : b.rangePicker.active = true)
    (hawake : b.rangePicker.Awake) (now : Instant) :
    ∃ b', b.rangePickerKey now .esc = .ok b' ∧ b'.conditions = b.conditions ∧ Closer b b' := by
  obtain ⟨p, hp, hcases⟩ := RangePicker.update_esc hawake hopen now
  have hdepth : b.depth = b.rangePicker.depth + 2 := by simp [depth, hs]
  unfold rangePickerKey
  rw [hp]
  refine ⟨_, rfl, ?_⟩
  dsimp only
  rcases hcases with ⟨hactive, hlt⟩ | ⟨hactive, hdone⟩
  · rw [if_pos hactive]
    exact ⟨rfl, .inl ⟨ha, by simp [depth, hs, hlt]⟩⟩
  · rw [if_neg (by simp [hactive]), hdone]
    refine ⟨rfl, .inl ⟨ha, ?_⟩⟩
    rw [hdepth]
    exact Nat.lt_add_of_pos_left b.rangePicker.depth_pos

/-- While a link is asked for, Esc commits the condition that waits, and a field is asked for
next. -/
theorem closer_linkKey (hs : b.stage = .link) {c : Condition} (hp : b.pending = some c)
    (hc : OnNamed c) :
    b.described (b.linkKey .esc) = .ok (b.linkKey .esc) ∧ Closer b (b.linkKey .esc) := by
  have hcore : (b.linkKey .esc).core = { b.core.cleared with
      conditions := b.conditions.append c (some .and), stage := .field } :=
    core_commit hp (some .and)
  have hactive : (b.linkKey .esc).active = true := (congrArg Core.active hcore).trans ha
  have hstage : (b.linkKey .esc).stage = .field := congrArg Core.stage hcore
  have hconditions : (b.linkKey .esc).conditions = b.conditions.append c (some .and) :=
    congrArg Core.conditions hcore
  -- only the name of the last condition could keep the message from being made
  have hnot : ¬ Fails (b.described (b.linkKey .esc)) := by
    rw [fails_described_iff, hconditions, onOddName_append_iff]
    rintro ⟨_, hodd⟩
    rw [OnOddName, hc] at hodd
    cases hodd
  obtain ⟨b', hb'⟩ := exists_ok_of_not_fails hnot
  have heq : b.linkKey .esc = b' := by
    unfold described at hb'
    split at hb' <;> cases hb'
    rfl
  refine ⟨heq ▸ hb', .inl ⟨hactive, ?_⟩⟩
  simp [depth, hstage, hs]

/-- **Esc leads closer to the way out of a builder**, or out with nothing done. -/
theorem update_esc {table : Table} (hb : b.InOrder table) (hawake : b.rangePicker.Awake)
    (hn : ∀ c ∈ b.pending, OnNamed c) (now : Instant) :
    ∃ b', b.update now .esc = .ok b' ∧ Closer b b' := by
  have hupdate : ∀ {b'}, b.stageKey now .esc = .ok b' → b.described b' = .ok b' →
      b.update now .esc = .ok b' := by
    intro b' hkey hdescribed
    simp only [update, ha, Bool.not_true, Bool.false_eq_true, if_false, globalKey?, hkey]
    exact hdescribed
  -- at every stage but that of the link, Esc commits nothing, so nothing is described
  have hsame : ∀ {b'}, b'.conditions = b.conditions → b.described b' = .ok b' := by
    intro b' heq
    exact described_of_length_le (by rw [heq])
  have hcoherent := hb.coherent
  cases hs : b.stage with
  | field =>
      have hkey : b.stageKey now .esc = .ok b.cancel := by simp [stageKey, hs, fieldKey]
      exact ⟨_, hupdate hkey (described_of_length_le (Nat.zero_le _)), .inr (givenUp_cancel b)⟩
  | operator =>
      have hkey : b.stageKey now .esc
          = .ok { b with field := none, error := [], stage := .field } := by
        simp [stageKey, hs, operatorKey]
      exact ⟨_, hupdate hkey (hsame rfl), .inl ⟨ha, by simp [depth, hs]⟩⟩
  | value =>
      have hkey : b.stageKey now .esc = .ok b.backToOperators := by simp [stageKey, hs, valueKey]
      exact ⟨_, hupdate hkey (hsame rfl), closer_backToOperators ha (by simp [depth, hs])⟩
  | choice =>
      have hkey : b.stageKey now .esc = .ok b.backToOperators := by simp [stageKey, hs, choiceKey]
      exact ⟨_, hupdate hkey (hsame rfl), closer_backToOperators ha (by simp [depth, hs])⟩
  | rangeText =>
      have hkey : b.stageKey now .esc = .ok b.backToOperators := by
        simp [stageKey, hs, rangeTextKey]
      exact ⟨_, hupdate hkey (hsame rfl), closer_backToOperators ha (by simp [depth, hs])⟩
  | reference =>
      have hkey : b.stageKey now .esc = .ok (b.referenceKey .esc) := by simp [stageKey, hs]
      obtain ⟨heq, hcloser⟩ := closer_referenceKey ha hs (hcoherent.reference.mpr hs)
      exact ⟨_, hupdate hkey (hsame heq), hcloser⟩
  | calendar =>
      obtain ⟨b', hkey, heq, hcloser⟩ := closer_calendarKey ha hs (hcoherent.calendar.mpr hs) now
      exact ⟨b', hupdate (by rw [stageKey, hs]; exact hkey) (hsame heq), hcloser⟩
  | rangePicker =>
      obtain ⟨b', hkey, heq, hcloser⟩ :=
        closer_rangePickerKey ha hs (hcoherent.rangePicker.mpr hs) hawake now
      exact ⟨b', hupdate (by rw [stageKey, hs]; exact hkey) (hsame heq), hcloser⟩
  | link =>
      have hkey : b.stageKey now .esc = .ok (b.linkKey .esc) := by simp [stageKey, hs]
      obtain ⟨c, hp⟩ := Option.isSome_iff_exists.mp (hcoherent.pending.mpr hs)
      obtain ⟨hdescribed, hcloser⟩ := closer_linkKey ha hs hp (hn c hp)
      exact ⟨_, hupdate hkey hdescribed, hcloser⟩
  | finished =>
      have hleft := (hcoherent.left hs).1
      cases ha.symm.trans hleft

end

/-! ## §3. The way out. -/

/-- Esc, pressed at one instant after the other. -/
def escape (b : Builder) (nows : List Instant) : Except Fault Builder :=
  nows.foldlM (fun b now => b.update now .esc) b

theorem escape_of_inactive {b : Builder} (h : b.active = false) :
    ∀ nows : List Instant, b.escape nows = .ok b
  | [] => rfl
  | now :: rest => by
      rw [escape, List.foldlM_cons, update_of_inactive h]
      exact escape_of_inactive h rest

section
variable {table : Table} {settings : Settings} {resolver : Resolver}

/-- As often as it has to be pressed, Esc gets out. -/
theorem escapes_of_depth_le (hnames : table.NamesAlike) : ∀ {nows : List Instant} {b : Builder},
    Reachable table settings resolver b → b.active = true → b.depth ≤ nows.length →
      ∃ b', b.escape nows = .ok b' ∧ b'.GivenUp
  | [], b, h, ha, hle => by
      have hpos : 0 < b.depth := depth_pos (fun hs => by
        have hleft := (h.inOrder.coherent.left hs).1
        cases ha.symm.trans hleft)
      exact absurd hle (Nat.not_le.mpr hpos)
  | now :: rest, b, h, ha, hle => by
      obtain ⟨b₁, hkey, hcloser⟩ := update_esc ha h.inOrder h.awake (h.pending_onNamed hnames) now
      rw [escape, List.foldlM_cons, hkey]
      show ∃ b', b₁.escape rest = .ok b' ∧ b'.GivenUp
      rcases hcloser with ⟨hactive, hlt⟩ | hgiven
      · have h₁ : Reachable table settings resolver b₁ :=
          h.event (e := .message (.key now .esc)) hkey
        exact escapes_of_depth_le hnames h₁ hactive (Nat.le_of_lt_succ (Nat.lt_of_lt_of_le hlt hle))
      · exact ⟨b₁, escape_of_inactive hgiven.active rest, hgiven⟩

variable {b : Builder}

/-- Over a table that was loaded, whatever its source answered, Esc gets out. -/
theorem Reachable.escapes_loaded (h : Reachable table settings resolver b) {s : Source}
    {name : Text} {made : List Request} (hload : ((s.loadTable name).run.run made).1 = .ok table)
    (ha : b.active = true) {nows : List Instant} (hfive : 5 ≤ nows.length) :
    ∃ b', b.escape nows = .ok b' ∧ b'.GivenUp :=
  escapes_of_depth_le (s.gives_loadTable name made table hload) h ha
    (Nat.le_trans b.depth_le hfive)

/-- **ESC ALWAYS GETS OUT.**  In every state in which a new builder takes keys, pressing Esc five
times fails nowhere and leaves a builder that takes no keys, was given up, and has nothing
committed.  Every table that a source loads names its fields alike. -/
theorem Reachable.escapes (h : Reachable table settings resolver b) (hnames : table.NamesAlike)
    (ha : b.active = true) {nows : List Instant} (hfive : 5 ≤ nows.length) :
    ∃ b', b.escape nows = .ok b' ∧ b'.GivenUp :=
  escapes_of_depth_le hnames h ha (Nat.le_trans b.depth_le hfive)

/-- From the page of years of the end of a range, all five are needed. -/
theorem escapes_from_years :
    ∃ b, Reachable oneDay {} noSearches b ∧ b.active = true ∧ b.depth = 5 ∧
      ∃ b', b.escape (List.replicate 5 ides) = .ok b' ∧ b'.GivenUp := by
  obtain ⟨b, hb, hdeep⟩ := exists_reachable oneDay {} noSearches ides
    [.enter, .down, .down, .down, .down, .enter, .tab, .char 'y']
    (fun b => b.active && decide (b.depth = 5)) (by decide +kernel)
  simp only [Bool.and_eq_true, decide_eq_true_eq] at hdeep
  have hnames : oneDay.NamesAlike := .inl (by decide)
  exact ⟨b, hb, hdeep.1, hdeep.2, hb.escapes hnames hdeep.1 (by decide)⟩

end

end Builder

end EncodedQuery

/-
  EncodedQuery.Proofs.Builder.Core
  ────────────────────────────────
  **THE BUILDER AS A SMALL MACHINE.**

  Most of a builder is widgets.  What decides which conditions it commits, and
  which picker takes its keys, is its core: the committed conditions, the stage,
  the condition that is being put together, and for each picker whether it is
  open.  `Core.Step` lists everything that a key can do to the core, with the
  condition that it completes, if any.

  Main results, for a core that takes keys:
    • `Coherent.step` — stage, chosen parts and open pickers stay in accord,
    • `Sound.step` — only accepted conditions are committed,
    • `Step.conditions_cases` — what one key does to the committed conditions,
    • `Step.forall_conditions` — what holds of every completed condition holds of
      every committed one.
-/
import EncodedQuery.Builder.State
import EncodedQuery.Proofs.Condition.Accepted
import EncodedQuery.Proofs.Condition.Linked

namespace EncodedQuery

/-- A stage that asks for a value. -/
def Stage.takesValue : Stage → Bool
  | .value | .choice | .reference | .calendar | .rangePicker | .rangeText => true
  | _ => false

/-- A stage that asks for a range of days. -/
def Stage.takesRange : Stage → Bool
  | .rangePicker | .rangeText => true
  | _ => false

namespace Builder

/-! ## §1. The core. -/

/-- The part of a builder that decides what it commits and which picker is open. -/
@[ext]
structure Core where
  /-- The table. -/
  table : Table
  /-- The committed conditions. -/
  conditions : Chain
  /-- The stage. -/
  stage : Stage
  /-- The chosen field. -/
  field : Option Field
  /-- The chosen operator. -/
  operator : Option OperatorEntry
  /-- The condition that waits for its link. -/
  pending : Option Condition
  /-- The fields on offer. -/
  fields : List Field
  /-- The operators on offer. -/
  operators : List OperatorEntry
  /-- The calendar takes keys. -/
  calendarOpen : Bool
  /-- The picker for a range takes keys. -/
  rangeOpen : Bool
  /-- The picker for a record takes keys. -/
  referenceOpen : Bool
  /-- The table whose records that picker offers. -/
  referenceTable : Text
  /-- The filter is complete. -/
  finished : Bool
  /-- Keys are taken. -/
  active : Bool

/-- The core of a builder. -/
def core (b : Builder) : Core where
  table := b.table
  conditions := b.conditions
  stage := b.stage
  field := b.field
  operator := b.operator
  pending := b.pending
  fields := b.fieldList.items.map PickItem.value
  operators := b.operatorList.items.map PickItem.value
  calendarOpen := b.calendar.active
  rangeOpen := b.rangePicker.active
  referenceOpen := b.reference.active
  referenceTable := b.reference.table
  finished := b.finished
  active := b.active

namespace Core

/-- All pickers closed. -/
def closed (c : Core) : Core :=
  { c with calendarOpen := false, rangeOpen := false, referenceOpen := false }

/-- Nothing chosen, nothing waiting, all pickers closed. -/
def cleared (c : Core) : Core := { c.closed with field := none, operator := none, pending := none }

/-- The widget of a stage open, and no other. -/
def opened (c : Core) (s : Stage) : Core :=
  { c with
    stage := s
    calendarOpen := decide (s = .calendar)
    rangeOpen := decide (s = .rangePicker)
    referenceOpen := decide (s = .reference) }

/-- The operator `e` is being chosen, or was chosen before. -/
def Chooses (c : Core) (e : OperatorEntry) : Prop :=
  (c.stage = .operator ∧ e ∈ c.operators) ∨ (c.stage.takesValue = true ∧ c.operator = some e)

/-- `d` is a condition on the chosen field with the operator `e`. -/
structure Completes (c : Core) (e : OperatorEntry) (d : Condition) : Prop where
  /-- The operator is one that the user chooses. -/
  chooses : c.Chooses e
  /-- The field is the chosen one. -/
  field : c.field = some d.field
  /-- The operator is that one. -/
  operator : d.operator = e.token
  /-- It has no link yet. -/
  link : d.link = none

/-- The check of a condition finds an error. -/
def Rejects (c : Core) (d : Condition) : Prop :=
  (Check.condition (some c.table) d).any Issue.isError = true

/-! ## §2. Steps. -/

/-- What a key does to the core, together with the condition that it completes. -/
inductive Step : Core → Key → Option Condition → Core → Prop
  /-- The core stays as it is. -/
  | keep {c k} : Step c k none c
  /-- A field is chosen. -/
  | chooseField {c f} (hs : c.stage = .field) (hf : f ∈ c.fields) :
      Step c .enter none
        { c with field := some f, operator := none,
                 operators := OperatorEntry.offered (some f.type), stage := .operator }
  /-- The choice of a field is taken back. -/
  | leaveOperators {c} (hs : c.stage = .operator) :
      Step c .esc none { c with field := none, stage := .field }
  /-- The widget for a value opens. -/
  | openValue {c k f e s t} (he : c.Chooses e) (hf : c.field = some f)
      (hv : e.requiresValue = true) (hs : s.takesValue = true)
      (ht : s = .reference → t = f.reference) (hr : s.takesRange = e.dateOnly) :
      Step c k none { c.opened s with operator := some e, referenceTable := t }
  /-- The choice of an operator is taken back. -/
  | back {c k} (hs : c.stage.takesValue = true) :
      Step c k none { c.closed with operator := none, stage := .operator }
  /-- A condition is completed and rejected. -/
  | reject {c k e d} (hd : c.Completes e d) (hr : c.Rejects d) :
      Step c k (some d) { c with operator := some e }
  /-- The first condition is completed and committed. -/
  | first {c k e d} (hd : c.Completes e d) (hr : ¬ c.Rejects d)
      (hc : c.conditions.conditions = []) :
      Step c k (some d)
        { c.cleared with conditions := c.conditions.append d none, stage := .field }
  /-- A later condition is completed and waits for its link. -/
  | later {c k e d} (hd : c.Completes e d) (hr : ¬ c.Rejects d)
      (hc : c.conditions.conditions ≠ []) :
      Step c k (some d) { c.opened .link with operator := some e, pending := some d }
  /-- The waiting condition is committed. -/
  | commit {c k d} (link : Option Link) (hs : c.stage = .link) (hd : c.pending = some d) :
      Step c k none { c.cleared with conditions := c.conditions.append d link, stage := .field }
  /-- The last condition is removed. -/
  | removeLast {c d rest} (hp : c.conditions.pop? = some (d, rest)) :
      Step c (.ctrl 'd') none { c with conditions := rest }
  /-- Everything starts over. -/
  | restart {c} : Step c (.ctrl 'x') none { c.cleared with conditions := .empty, stage := .field }
  /-- Everything is given up. -/
  | cancel {c} (hs : c.stage = .field) :
      Step c .esc none { c.cleared with conditions := .empty, active := false }
  /-- The filter is complete. -/
  | finish {c} (hs : c.stage = .field) (hc : c.conditions.conditions ≠ []) :
      Step c (.ctrl 'f') none { c with stage := .finished, finished := true, active := false }

/-! ## §3. Coherence. -/

/-- Stage, chosen parts and open pickers are in accord. -/
structure Coherent (c : Core) : Prop where
  /-- The calendar is open in its stage. -/
  calendar : c.calendarOpen = true ↔ c.stage = .calendar
  /-- The picker for a range is open in its stage. -/
  rangePicker : c.rangeOpen = true ↔ c.stage = .rangePicker
  /-- The picker for a record is open in its stage. -/
  reference : c.referenceOpen = true ↔ c.stage = .reference
  /-- It offers the records that the field refers to. -/
  referenceTable : c.stage = .reference → ∃ f, c.field = some f ∧ c.referenceTable = f.reference
  /-- An operator is asked for once a field is chosen. -/
  operator : c.stage = .operator → c.field.isSome
  /-- A value is asked for once a field and an operator that needs one are chosen. -/
  value : c.stage.takesValue = true →
    c.field.isSome ∧ ∃ e, c.operator = some e ∧ e.requiresValue = true
  /-- A condition waits exactly while its link is asked for. -/
  pending : c.pending.isSome ↔ c.stage = .link
  /-- The filter is complete exactly in the last stage. -/
  finished : c.finished = true ↔ c.stage = .finished
  /-- A complete filter has a condition, and takes no keys. -/
  left : c.stage = .finished → c.active = false ∧ c.conditions.conditions ≠ []

/-- A stage in which the user chooses something is neither the first nor one of the last. -/
theorem Chooses.stage {c : Core} {e : OperatorEntry} (h : c.Chooses e) :
    c.stage ≠ .field ∧ c.stage ≠ .link ∧ c.stage ≠ .finished := by
  rcases h with ⟨hs, _⟩ | ⟨hs, _⟩
  · simp [hs]
  · revert hs
    cases c.stage <;> simp [Stage.takesValue]

/-- A core in its first stage with nothing chosen is coherent. -/
theorem coherent_of_field {c : Core} (hs : c.stage = .field) (hc : c.calendarOpen = false)
    (hr : c.rangeOpen = false) (href : c.referenceOpen = false) (hp : c.pending = none)
    (hf : c.finished = false) : c.Coherent := by
  constructor <;> simp [hs, hc, hr, href, hp, hf, Stage.takesValue]

theorem Coherent.finished_eq_false {c : Core} (h : c.Coherent) (ha : c.active = true) :
    c.finished = false := by
  by_contra hne
  have hf : c.finished = true := by simpa using hne
  have := (h.left (h.finished.mp hf)).1
  rw [ha] at this
  cases this

/-- **A key keeps a core coherent.** -/
theorem Coherent.step {c c' : Core} {k : Key} {d : Option Condition} (h : c.Coherent)
    (ha : c.active = true) (hs : Step c k d c') : c'.Coherent := by
  have hfinished := h.finished_eq_false ha
  -- the step says which stage comes next, and the stage which picker has to be open
  cases hs with
  | keep => exact h
  | chooseField hs hf =>
      have hc := h.calendar
      have hr := h.rangePicker
      have href := h.reference
      have hp := h.pending
      constructor <;> simp_all [Stage.takesValue]
  | leaveOperators hs =>
      have hc := h.calendar
      have hr := h.rangePicker
      have href := h.reference
      have hp := h.pending
      apply coherent_of_field <;> simp_all
  | @openValue _ f e s t he hf hv hs ht hr =>
      have hp := h.pending
      have hstage := he.stage
      have hs' : s ≠ .link ∧ s ≠ .finished ∧ s ≠ .operator := by
        revert hs
        cases s <;> simp [Stage.takesValue]
      constructor <;> simp_all [opened]
  | back hs =>
      have hv := h.value hs
      have hp := h.pending
      have hstage : c.stage ≠ .link := by
        intro heq
        simp [heq, Stage.takesValue] at hs
      constructor <;> simp_all [closed, Stage.takesValue]
  | @reject _ e d hd hr =>
      refine { h with value := fun hs => ?_ }
      -- in a stage for a value the operator was chosen before
      obtain ⟨hf, e', he', hv⟩ := h.value hs
      rcases hd.chooses with ⟨hop, _⟩ | ⟨_, heq⟩
      · rw [show c.stage = .operator from hop] at hs
        cases hs
      · refine ⟨hf, e, rfl, ?_⟩
        rw [heq] at he'
        cases he'
        exact hv
  | first hd hr hc => exact coherent_of_field rfl rfl rfl rfl rfl hfinished
  | later hd hr hc =>
      constructor <;> simp_all [opened, Stage.takesValue]
  | commit link hs hd => exact coherent_of_field rfl rfl rfl rfl rfl hfinished
  | removeLast hp =>
      refine { h with left := fun hs => ?_ }
      have := (h.left hs).1
      rw [ha] at this
      cases this
  | restart => exact coherent_of_field rfl rfl rfl rfl rfl hfinished
  | cancel hs => exact coherent_of_field hs rfl rfl rfl rfl hfinished
  | finish hs hc =>
      have hcal := h.calendar
      have hr := h.rangePicker
      have href := h.reference
      have hp := h.pending
      constructor <;> simp_all [Stage.takesValue]

/-! ## §4. Soundness. -/

/-- Everything that the core holds was on offer, and what it commits was accepted. -/
structure Sound (c : Core) : Prop where
  /-- The fields on offer belong to the table. -/
  fields : ∀ f ∈ c.fields, f ∈ c.table.fields
  /-- The chosen field belongs to the table, and its operators are on offer. -/
  field : ∀ f, c.field = some f →
    f ∈ c.table.fields ∧ c.operators = OperatorEntry.offered (some f.type)
  /-- The chosen operator is on offer for the chosen field. -/
  operator : ∀ f e, c.field = some f → c.operator = some e →
    e ∈ OperatorEntry.offered (some f.type)
  /-- The waiting condition is accepted. -/
  pending : ∀ d, c.pending = some d → c.table.Accepts d
  /-- So are the committed ones. -/
  committed : ∀ d ∈ c.conditions.conditions, c.table.Accepts d
  /-- They are linked. -/
  linked : c.conditions.Linked

/-- The operator that the user chooses is on offer for the field. -/
theorem Sound.offered {c : Core} (h : c.Sound) {e : OperatorEntry} (he : c.Chooses e) {f : Field}
    (hf : c.field = some f) : e ∈ OperatorEntry.offered (some f.type) := by
  rcases he with ⟨_, hmem⟩ | ⟨_, heq⟩
  · rwa [(h.field f hf).2] at hmem
  · exact h.operator f e hf heq

/-- A completed condition is accepted unless the check finds an error. -/
theorem Sound.accepts {c : Core} (h : c.Sound) {e : OperatorEntry} {d : Condition}
    (hd : c.Completes e d) (hr : ¬ c.Rejects d) : c.table.Accepts d where
  field := (h.field _ hd.field).1
  operator := ⟨e, h.offered hd.chooses hd.field, hd.operator⟩
  check := by
    intro i hi
    by_contra hne
    exact hr (List.any_eq_true.mpr ⟨i, hi, by simpa using hne⟩)

/-- A core in which nothing is chosen is sound when what it commits is. -/
theorem sound_of_cleared {c : Core} (hf : ∀ f ∈ c.fields, f ∈ c.table.fields)
    (hfield : c.field = none) (hp : c.pending = none)
    (hc : ∀ d ∈ c.conditions.conditions, c.table.Accepts d) (hl : c.conditions.Linked) :
    c.Sound where
  fields := hf
  field := by simp [hfield]
  operator := by simp [hfield]
  pending := by simp [hp]
  committed := hc
  linked := hl

theorem Sound.committed_append {c : Core} (h : c.Sound) {d : Condition} (hd : c.table.Accepts d)
    (link : Option Link) :
    ∀ d' ∈ (c.conditions.append d link).conditions, c.table.Accepts d' :=
  Chain.forall_mem_append (fun _ link hc => hc.relink link) h.committed hd link

/-- **A key keeps a core sound.** -/
theorem Sound.step {c c' : Core} {k : Key} {d : Option Condition} (h : c.Sound)
    (hs : Step c k d c') : c'.Sound := by
  -- only `first` and `commit` commit anything: what was accepted now, or when it began to wait
  cases hs with
  | keep => exact h
  | @chooseField f hs hf =>
      exact { h with
        field := fun g hg => by cases hg; exact ⟨h.fields f hf, rfl⟩
        operator := fun _ _ _ he => by cases he }
  | leaveOperators hs =>
      exact { h with field := by simp, operator := by simp }
  | @openValue _ f e s t he hf hv hs ht hr =>
      refine { h with operator := fun g e' hg he' => ?_ }
      cases he'
      exact h.offered he hg
  | back hs => exact { h with operator := by simp }
  | @reject _ e d hd hr =>
      refine { h with operator := fun g e' hg he' => ?_ }
      cases he'
      exact h.offered hd.chooses hg
  | @first _ e d hd hr hc =>
      exact sound_of_cleared h.fields rfl rfl (h.committed_append (h.accepts hd hr) none)
        (Chain.linked_append h.linked d none)
  | @later _ e d hd hr hc =>
      refine { h with
        operator := fun g e' hg he' => ?_
        pending := fun d' hd' => ?_ }
      · cases he'
        exact h.offered hd.chooses hg
      · cases hd'
        exact h.accepts hd hr
  | @commit _ d link hs hd =>
      exact sound_of_cleared h.fields rfl rfl (h.committed_append (h.pending d hd) link)
        (Chain.linked_append h.linked d link)
  | removeLast hp =>
      exact { h with
        committed := Chain.forall_mem_of_pop? (fun _ link hc => hc.relink link) h.committed hp
        linked := Chain.linked_of_pop? h.linked hp }
  | restart =>
      exact sound_of_cleared h.fields rfl rfl (by simp [Chain.empty]) Chain.linked_empty
  | cancel hs =>
      exact sound_of_cleared h.fields rfl rfl (by simp [Chain.empty]) Chain.linked_empty
  | finish hs hc => exact { h with }

/-! ## §5. The committed conditions. -/

/-- **What a key does to the committed conditions**: nothing, or it appends a condition that was
completed or waited, or it removes the last one, or all of them. -/
theorem Step.conditions_cases {c c' : Core} {k : Key} {d : Option Condition} (hs : Step c k d c') :
    c'.conditions = c.conditions ∨
    (∃ e link, (d = some e ∧ ¬ c.Rejects e ∨ c.pending = some e) ∧
      c'.conditions = c.conditions.append e link) ∨
    (k = .ctrl 'd' ∧ ∃ e, c.conditions.pop? = some (e, c'.conditions)) ∨
    ((k = .ctrl 'x' ∨ (k = .esc ∧ c.stage = .field)) ∧ c'.conditions = .empty) := by
  cases hs with
  | keep | chooseField | leaveOperators | openValue | back | reject | later | finish =>
      exact .inl rfl
  | first hd hr hc => exact .inr (.inl ⟨_, none, .inl ⟨rfl, hr⟩, rfl⟩)
  | commit link hs hd => exact .inr (.inl ⟨_, link, .inr hd, rfl⟩)
  | removeLast hp => exact .inr (.inr (.inl ⟨rfl, _, hp⟩))
  | restart => exact .inr (.inr (.inr ⟨.inl rfl, rfl⟩))
  | cancel hs => exact .inr (.inr (.inr ⟨.inr ⟨rfl, hs⟩, rfl⟩))

/-- What holds, whatever the link, of the condition that a key completes, of the one that waits and
of the committed ones still holds of those that wait or are committed afterwards. -/
theorem Step.forall_conditions {P : Condition → Prop} (hlink : ∀ c link, P c → P { c with link })
    {c c' : Core} {k : Key} {d : Option Condition} (hs : Step c k d c') (hd : ∀ e ∈ d, P e)
    (hp : ∀ e ∈ c.pending, P e) (hc : ∀ e ∈ c.conditions.conditions, P e) :
    (∀ e ∈ c'.pending, P e) ∧ ∀ e ∈ c'.conditions.conditions, P e := by
  have hnone : ∀ e ∈ (none : Option Condition), P e := by simp
  cases hs with
  | keep | chooseField | leaveOperators | openValue | back | reject | finish => exact ⟨hp, hc⟩
  | first hd' _ _ => exact ⟨hnone, Chain.forall_mem_append hlink hc (hd _ rfl) none⟩
  | later _ _ _ => exact ⟨hd, hc⟩
  | commit link _ hd' => exact ⟨hnone, Chain.forall_mem_append hlink hc (hp _ hd') link⟩
  | removeLast hpop => exact ⟨hp, Chain.forall_mem_of_pop? hlink hc hpop⟩
  | restart | cancel => exact ⟨hnone, by simp [Chain.empty]⟩

/-- A rejected condition leaves the committed conditions, the stage, the field and the waiting
condition as they are. -/
theorem Step.of_rejects {c c' : Core} {k : Key} {d : Condition} (hs : Step c k (some d) c')
    (hr : c.Rejects d) :
    c'.conditions = c.conditions ∧ c'.stage = c.stage ∧ c'.field = c.field ∧
      c'.pending = c.pending := by
  cases hs with
  | reject => exact ⟨rfl, rfl, rfl, rfl⟩
  | first _ hn _ | later _ hn _ => exact absurd hr hn

/-- A condition that a key completes is accepted unless the check finds an error in it. -/
theorem Sound.accepts_of_step {c c' : Core} {k : Key} {d : Condition} (h : c.Sound)
    (hs : Step c k (some d) c') (hr : ¬ c.Rejects d) : c.table.Accepts d := by
  cases hs with
  | reject hd _ | first hd _ _ | later hd _ _ => exact h.accepts hd hr

/-- An accepted condition is committed, if it is the first one, or waits for its link. -/
theorem Step.of_not_rejects {c c' : Core} {k : Key} {d : Condition} (hs : Step c k (some d) c')
    (hr : ¬ c.Rejects d) :
    (c.conditions.conditions = [] ∧ c'.conditions = c.conditions.append d none) ∨
    (c.conditions.conditions ≠ [] ∧ c'.conditions = c.conditions ∧ c'.pending = some d ∧
      c'.stage = .link) := by
  cases hs with
  | reject _ hn => exact absurd hn hr
  | first _ _ hc => exact .inl ⟨hc, rfl⟩
  | later _ _ hc => exact .inr ⟨hc, rfl, rfl, rfl⟩

/-- A condition that a key completes has no link yet. -/
theorem Step.link_eq_none {c c' : Core} {k : Key} {d : Condition} (hs : Step c k (some d) c') :
    d.link = none := by
  cases hs with
  | reject hd _ | first hd _ _ | later hd _ _ => exact hd.link

/-- Unless a condition is accepted, no key leads to a condition that waits for its link. -/
theorem Step.stays_unlinked {c c' : Core} {k : Key} {d : Option Condition} (hs : Step c k d c')
    (hr : ∀ e, d = some e → c.Rejects e) (hlink : c.stage ≠ .link) (hp : c.pending = none) :
    c'.stage ≠ .link ∧ c'.pending = none ∧
      c'.conditions.conditions.length ≤ c.conditions.conditions.length := by
  cases hs with
  | keep | reject => exact ⟨hlink, hp, Nat.le_refl _⟩
  | chooseField | leaveOperators | back | finish => exact ⟨nofun, hp, Nat.le_refl _⟩
  | @openValue _ _ _ s _ _ _ _ hs _ _ =>
      refine ⟨?_, hp, Nat.le_refl _⟩
      rintro rfl
      exact absurd hs (by decide)
  | first _ hn _ | later _ hn _ => exact absurd (hr _ rfl) hn
  | commit _ hs _ => exact absurd hs hlink
  | removeLast hpop => exact ⟨hlink, hp, Chain.length_le_of_pop? hpop⟩
  | restart => exact ⟨nofun, rfl, Nat.zero_le _⟩
  | cancel hs => exact ⟨hlink, rfl, Nat.zero_le _⟩

end Core

end Builder

end EncodedQuery

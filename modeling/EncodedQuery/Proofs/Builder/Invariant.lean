/-
  EncodedQuery.Proofs.Builder.Invariant
  ─────────────────────────────────────
  **BUILDERS IN ORDER.**

  A builder is in order for a table when it works on that table, its core is
  coherent and sound, and its lists are in order.  A new builder is in order,
  and every event keeps it so: a key is a step of the core, and answers to
  searches leave the core alone.

  The owner of a builder can also load a filter over a complete one and turn the
  builder on again.  What a history keeps is coherence while keys are taken.

  Main results: `Reachable.inOrder`, `History.coherent`.
-/
import EncodedQuery.Proofs.Builder.Frame
import EncodedQuery.Proofs.Builder.Step

namespace EncodedQuery.Builder

/-! ## §1. New builders. -/

/-- The builder is in order for the table. -/
structure InOrder (table : Table) (b : Builder) : Prop where
  /-- It works on the table. -/
  table : b.table = table
  /-- Its stage, its chosen parts and its open pickers are in accord. -/
  coherent : b.core.Coherent
  /-- What it holds was on offer, and what it commits was accepted. -/
  sound : b.core.Sound
  /-- Its lists are in order. -/
  lists : b.WellListed

/-- The fields on offer in a new builder are those of its table. -/
theorem fields_new (table : Table) (settings : Settings) (resolver : Resolver) (now : Instant) :
    (new table settings resolver now).core.fields = Field.sorted table.fields := by
  show ((Field.sorted table.fields).map fieldItem).map PickItem.value = _
  rw [List.map_map]
  exact List.map_id _

theorem inOrder_new (table : Table) (settings : Settings) (resolver : Resolver) (now : Instant) :
    InOrder table (new table settings resolver now) where
  table := rfl
  coherent := Core.coherent_of_field rfl rfl rfl rfl rfl rfl
  sound := by
    refine Core.sound_of_cleared ?_ rfl rfl (by simp [core, new, Chain.empty]) Chain.linked_empty
    intro f hf
    rw [fields_new] at hf
    exact List.mem_mergeSort.mp hf
  lists := wellListed_new table settings resolver now

theorem inOrder_create {table : Table} {settings : Settings} {resolver : Resolver} {now : Instant}
    {b : Builder} (h : create table settings resolver now = .ok b) : InOrder table b := by
  unfold create at h
  split at h <;> cases h
  exact inOrder_new table settings resolver now

/-! ## §2. Events. -/

/-- A key is a step of the core, taken or not. -/
theorem InOrder.step {table : Table} {b b' : Builder} (hb : b.InOrder table) {now : Instant}
    {k : Key} (h : b.update now k = .ok b') :
    Core.Step b.core k (b.completed? now k) b'.core := by
  cases ha : b.active with
  | true => exact step_update hb.coherent hb.lists.1 hb.lists.2.1 ha h
  | false =>
      rw [update_of_inactive ha] at h
      cases h
      rw [completed?_of_inactive ha]
      exact .keep

/-- Answers to searches leave the core as it is. -/
theorem core_after {b b' : Builder} {e : Event} (h : b.after e = .ok b') :
    b'.core = b.core ∨ ∃ now k, e = .message (.key now k) ∧ b.update now k = .ok b' := by
  cases e with
  | message m =>
      cases m with
      | key now k => exact .inr ⟨now, k, rfl, h⟩
      | answer r => exact .inl (core_receive_answer h)
  | poll =>
      cases h
      exact .inl (core_poll b)
  | ask | post =>
      cases h
      exact .inl rfl

/-- **An event keeps a builder in order.** -/
theorem InOrder.after {table : Table} {b b' : Builder} (hb : b.InOrder table) {e : Event}
    (h : b.after e = .ok b') : b'.InOrder table := by
  have hlists := (keeps_after h).lists hb.lists
  have htable : b'.table = table := (congrArg Frame.table (keeps_after h).frame).trans hb.table
  rcases core_after h with hcore | ⟨now, k, rfl, hkey⟩
  · exact ⟨htable, hcore ▸ hb.coherent, hcore ▸ hb.sound, hlists⟩
  · refine ⟨htable, ?_, hb.sound.step (hb.step hkey), hlists⟩
    cases ha : b.active with
    | true => exact hb.coherent.step ha (hb.step hkey)
    | false =>
        rw [update_of_inactive ha] at hkey
        cases hkey
        exact hb.coherent

/-- **Every reachable builder is in order.** -/
theorem Reachable.inOrder {table : Table} {settings : Settings} {resolver : Resolver}
    {b : Builder} (h : Reachable table settings resolver b) : b.InOrder table := by
  induction h with
  | created h => exact inOrder_create h
  | event _ h ih => exact ih.after h

/-! What keys keep, a row of keys keeps. -/

section
variable {P : Builder → Prop} {now : Instant}
  (hkey : ∀ {b b' : Builder} {k : Key}, P b → b.update now k = .ok b' → P b')
include hkey

theorem of_typeKeys {ks : List Key} :
    ∀ {b b' : Builder}, P b → b.typeKeys now ks = .ok b' → P b' := by
  induction ks with
  | nil =>
      intro b b' hb h
      cases h
      exact hb
  | cons k rest ih =>
      intro b b' hb h
      rw [typeKeys] at h
      cases hu : b.update now k with
      | error f => rw [hu] at h; cases h
      | ok b₁ =>
          rw [hu] at h
          replace h : (if b₁.active then b₁.typeKeys now rest else .ok b₁) = .ok b' := h
          split at h
          · exact ih (hkey hb hu) h
          · cases h
            exact hkey hb hu

/-- A row of keys leads to a state of the same kind. -/
theorem exists_of_typeKeys {b : Builder} (hb : P b) {ks : List Key} {p : Builder → Bool}
    (h : (b.typeKeys now ks).toOption.any p = true) : ∃ b', P b' ∧ p b' = true := by
  cases hk : b.typeKeys now ks with
  | error f => rw [hk] at h; cases h
  | ok b' =>
      rw [hk] at h
      exact ⟨b', of_typeKeys hkey hb hk, h⟩

/-- So does a row of keys for a new builder. -/
theorem exists_of_created {table : Table} {settings : Settings} {resolver : Resolver}
    (hcreated : ∀ {b : Builder}, create table settings resolver now = .ok b → P b)
    {ks : List Key} {p : Builder → Bool}
    (h : ((create table settings resolver now).bind (fun b => b.typeKeys now ks)).toOption.any p) :
    ∃ b, P b ∧ p b = true := by
  cases hc : create table settings resolver now with
  | error f => rw [hc] at h; cases h
  | ok b₀ =>
      rw [hc] at h
      exact exists_of_typeKeys hkey (hcreated hc) h

end

/-- A row of keys for a new builder leads to a reachable state. -/
theorem exists_reachable (table : Table) (settings : Settings) (resolver : Resolver)
    (now : Instant) (ks : List Key) (p : Builder → Bool)
    (h : ((create table settings resolver now).bind (fun b => b.typeKeys now ks)).toOption.any p) :
    ∃ b, Reachable table settings resolver b ∧ p b = true :=
  exists_of_created (fun hb h => hb.event (e := .message (.key now _)) h) .created h

/-! ## §3. Histories. -/

/-- The core of a builder that is turned on. -/
def Core.awake (c : Core) : Core :=
  { c with
    active := true
    finished := false
    stage := if c.stage = .finished then .field else c.stage }

/-- Turning a builder on keeps its core coherent. -/
theorem Core.Coherent.awake {c : Core} (h : c.Coherent) : c.awake.Coherent := by
  by_cases hs : c.stage = .finished
  · have hc := h.calendar
    have hr := h.rangePicker
    have href := h.reference
    have hp := h.pending
    apply coherent_of_field <;> simp_all [Core.awake]
  · have hf : c.finished = false := Bool.eq_false_iff.mpr (mt h.finished.mp hs)
    have heq : c.awake = { c with active := true } := by
      ext1 <;> simp [Core.awake, hs, hf]
    rw [heq]
    exact { h with left := fun hs' => absurd hs' hs }

theorem core_setActive_true (b : Builder) : (b.setActive true).core = b.core.awake := rfl

theorem core_setConditions (b : Builder) (s : Chain) :
    (b.setConditions s).core =
      { b.core.cleared with conditions := Chain.ofList s.conditions, stage := .field } := by
  unfold setConditions
  rw [core_refreshValidation]
  show { (clearScratch { b with conditions := Chain.ofList s.conditions }).core with
    stage := .field } = _
  rw [core_clearScratch]
  rfl

section
variable {table : Table} {settings : Settings} {resolver : Resolver} {b : Builder}

/-- The lists of a builder are in order, whatever happened to it. -/
theorem History.wellListed (h : History table settings resolver b) : b.WellListed := by
  induction h with
  | created h => exact (inOrder_create h).lists
  | event _ h ih => exact (keeps_after h).lists ih
  | loaded _ s ih => exact (keeps_setConditions _ s).lists ih
  | turned _ on ih => exact (keeps_setActive _ on).lists ih

/-- **A builder that takes keys is coherent, whatever happened to it**, and so is one that takes
none, once it is turned on. -/
theorem History.coherent (h : History table settings resolver b) :
    (b.active = true → b.core.Coherent) ∧ b.core.awake.Coherent := by
  -- a filter that is loaded over a complete one leaves the builder complete in its first stage,
  -- so coherence alone is no invariant; what is carried is coherence once it is turned on
  induction h with
  | created h =>
      have hc := (inOrder_create h).coherent
      exact ⟨fun _ => hc, hc.awake⟩
  | @event b b' e hb h ih =>
      rcases core_after h with hcore | ⟨now, k, rfl, hkey⟩
      · rw [hcore, show b'.active = b.active from congrArg Core.active hcore]
        exact ih
      · cases ha : b.active with
        | true =>
            have hlists := hb.wellListed
            have hc := (ih.1 ha).step ha (step_update (ih.1 ha) hlists.1 hlists.2.1 ha hkey)
            exact ⟨fun _ => hc, hc.awake⟩
        | false =>
            rw [update_of_inactive ha] at hkey
            cases hkey
            exact ih
  | @loaded b hb s ih =>
      rw [core_setConditions]
      refine ⟨fun ha => ?_, Core.coherent_of_field rfl rfl rfl rfl rfl rfl⟩
      replace ha : b.active = true :=
        (congrArg Core.active (core_setConditions b s)).symm.trans ha
      exact Core.coherent_of_field rfl rfl rfl rfl rfl ((ih.1 ha).finished_eq_false ha)
  | @turned b hb on ih =>
      cases on with
      | true =>
          rw [core_setActive_true]
          exact ⟨fun _ => ih.2, ih.2.awake⟩
      | false => exact ⟨nofun, ih.2⟩

end

/-! ## §4. Examples. -/

/-- A table with one text field. -/
def oneField : Table := ⟨"incident", [{ name := "state", label := "State" }]⟩

/-- A table with one day. -/
def oneDay : Table := ⟨"incident", [{ name := "due_date", label := "Due", type := .date }]⟩

/-- The searches of a builder without a source of records. -/
def noSearches : Resolver := resolverOf {} none false

/-- An instant in March 2024. -/
def ides : Instant := Instant.startOf ⟨2024, 3, 15, by decide⟩

end EncodedQuery.Builder

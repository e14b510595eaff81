/-
  EncodedQuery.Proofs.Builder.Searching
  ─────────────────────────────────────
  **THE ANSWER THAT IS SHOWN BELONGS TO THE TEXT IN THE BOX.**

  A builder looks only at the table of an answer before it shows the candidates,
  never at the text that was searched for.  That the text is the one in the box
  rests on the numbers: whatever changes the box, closes the picker or opens it
  for another table comes with a new number, or finds the picker closed, and a
  picker is never closed without one.

  The invariant is about everything that is on its way: a job under the current
  number was started for the table and the text that the open picker has now.

  Main results:
    • `ReferencePicker.Follows` — how a picker may change, and that keys change
      it so (`follows_update`),
    • `Searching.delivers` — what is delivered while jobs are under way.
-/
import EncodedQuery.Proofs.Builder.Invariant
import EncodedQuery.Proofs.Builder.Moves
import EncodedQuery.Proofs.Reference.Delivery

namespace EncodedQuery

/-! ## §1. Pickers. -/

namespace ReferencePicker

/-- The job is a search for what the open picker shows in its box. -/
structure Asks (p : ReferencePicker) (job : SearchJob) : Prop where
  /-- The picker takes keys. -/
  active : p.active = true
  /-- Its table is searched. -/
  table : job.table = p.table
  /-- The text in its box is searched for. -/
  text : job.text = Text.strip p.input.value

/-- The job was submitted on the way from one picker to the other. -/
structure Issued (p p' : ReferencePicker) (job : SearchJob) : Prop where
  /-- Its number is new. -/
  lt : p.resolver.sequence < job.sequence
  /-- Later numbers may have been given out since. -/
  le : job.sequence ≤ p'.resolver.sequence
  /-- If there are none, it is a search for what is in the box. -/
  asks : job.sequence = p'.resolver.sequence → p'.Asks job

/-- One picker comes from the other, with a new number for every change of its box. -/
structure Follows (p p' : ReferencePicker) : Prop where
  /-- Numbers are never taken back. -/
  sequence : p.resolver.sequence ≤ p'.resolver.sequence
  /-- Under the same number an open picker stays open for the same search. -/
  kept : p'.resolver.sequence = p.resolver.sequence → p.active = true →
    p'.active = true ∧ p'.table = p.table ∧ Text.strip p'.input.value = Text.strip p.input.value
  /-- Jobs are only added. -/
  jobs : ∃ new, p'.resolver.jobs = p.resolver.jobs ++ new ∧ ∀ job ∈ new, Issued p p' job
  /-- So are answers. -/
  inbox : ∃ got : List SearchResult, p'.resolver.inbox = p.resolver.inbox ++ got ∧
    ∀ a ∈ got, Issued p p' a.job

variable {p p' p'' : ReferencePicker}

/-- Without a search, a new number is all that a change needs. -/
theorem follows_of_quiet (hjobs : p'.resolver.jobs = p.resolver.jobs)
    (hinbox : p'.resolver.inbox = p.resolver.inbox)
    (h : p.resolver.sequence < p'.resolver.sequence ∨
      p'.resolver.sequence = p.resolver.sequence ∧ (p.active = true →
        p'.active = true ∧ p'.table = p.table ∧
          Text.strip p'.input.value = Text.strip p.input.value)) : Follows p p' where
  sequence := by
    rcases h with hlt | ⟨heq, _⟩
    · exact Nat.le_of_lt hlt
    · exact Nat.le_of_eq heq.symm
  kept := by
    rcases h with hlt | ⟨_, hkept⟩
    · exact fun heq => absurd heq (Nat.ne_of_gt hlt)
    · exact fun _ => hkept
  jobs := ⟨[], by rw [hjobs, List.append_nil], nofun⟩
  inbox := ⟨[], by rw [hinbox, List.append_nil], nofun⟩

theorem Follows.refl (p : ReferencePicker) : Follows p p :=
  follows_of_quiet rfl rfl (.inr ⟨rfl, fun h => ⟨h, rfl, rfl⟩⟩)

theorem Issued.follows {job : SearchJob} (h : Issued p p' job) (h' : Follows p' p'') :
    Issued p p'' job where
  lt := h.lt
  le := Nat.le_trans h.le h'.sequence
  asks := by
    intro heq
    have hnow : job.sequence = p'.resolver.sequence :=
      Nat.le_antisymm h.le (heq ▸ h'.sequence)
    have hasks := h.asks hnow
    obtain ⟨hactive, htable, htext⟩ := h'.kept (heq.symm.trans hnow) hasks.active
    exact ⟨hactive, hasks.table.trans htable.symm, hasks.text.trans htext.symm⟩

theorem Follows.trans (h : Follows p p') (h' : Follows p' p'') : Follows p p'' where
  sequence := Nat.le_trans h.sequence h'.sequence
  kept := by
    intro heq hactive
    have hmid : p'.resolver.sequence = p.resolver.sequence :=
      Nat.le_antisymm (heq ▸ h'.sequence) h.sequence
    obtain ⟨hactive', htable, htext⟩ := h.kept hmid hactive
    obtain ⟨hactive'', htable', htext'⟩ := h'.kept (heq.trans hmid.symm) hactive'
    exact ⟨hactive'', htable'.trans htable, htext'.trans htext⟩
  jobs := by
    obtain ⟨new, hjobs, hnew⟩ := h.jobs
    obtain ⟨new', hjobs', hnew'⟩ := h'.jobs
    refine ⟨new ++ new', by rw [hjobs', hjobs, List.append_assoc], fun job hjob => ?_⟩
    rcases List.mem_append.mp hjob with hjob | hjob
    · exact (hnew job hjob).follows h'
    · have hissued := hnew' job hjob
      exact { hissued with lt := Nat.lt_of_le_of_lt h.sequence hissued.lt }
  inbox := by
    obtain ⟨got, hinbox, hgot⟩ := h.inbox
    obtain ⟨got', hinbox', hgot'⟩ := h'.inbox
    refine ⟨got ++ got', by rw [hinbox', hinbox, List.append_assoc], fun a ha => ?_⟩
    rcases List.mem_append.mp ha with ha | ha
    · exact (hgot a ha).follows h'
    · have hissued := hgot' a ha
      exact { hissued with lt := Nat.lt_of_le_of_lt h.sequence hissued.lt }

theorem follows_deactivate (p : ReferencePicker) : Follows p p.deactivate :=
  follows_of_quiet rfl rfl (.inl (Nat.lt_succ_self _))

/-- A picker opens without a new number, but only after it was closed. -/
theorem follows_activate (h : p.active = false) (table : Text) : Follows p (p.activate table) :=
  follows_of_quiet rfl rfl (.inr ⟨rfl, fun ha => absurd (h.symm.trans ha) (by decide)⟩)

/-- A search is for what is in the box, whatever was in it before. -/
theorem follows_startSearch {q : ReferencePicker} (hq : q.resolver = p.resolver)
    (h : q.active = true) : Follows p q.startSearch := by
  have hsequence := q.resolver.sequence_search q.table q.input.value
  obtain ⟨new, hnew, hjobs, _⟩ := q.resolver.outstanding_search {} q.table q.input.value
  obtain ⟨got, hinbox, hgot⟩ := q.resolver.inbox_search q.table q.input.value
  -- whatever comes of it, the picker has the resolver of the search
  have hkeeps : q.startSearch.resolver = (q.resolver.search q.table q.input.value).2 ∧
      q.startSearch.active = q.active ∧ q.startSearch.table = q.table ∧
      q.startSearch.input = q.input := by
    unfold startSearch
    dsimp only
    split <;> exact ⟨rfl, rfl, rfl, rfl⟩
  obtain ⟨hresolver, hactive, htable, hinput⟩ := hkeeps
  rw [hq] at hresolver hsequence hjobs hinbox hnew hgot
  have hlast : q.startSearch.resolver.sequence = p.resolver.sequence + 1 := by
    rw [hresolver, hsequence]
  have hissued : Issued p q.startSearch
      ⟨p.resolver.sequence + 1, q.table, Text.strip q.input.value⟩ :=
    { lt := Nat.lt_succ_self _
      le := Nat.le_of_eq hlast.symm
      asks := fun _ => ⟨hactive.trans h, htable.symm, by rw [hinput]⟩ }
  refine ⟨?_, ?_, ⟨new, ?_, ?_⟩, ⟨got, ?_, ?_⟩⟩
  · rw [hlast]
    exact Nat.le_succ _
  · intro heq
    rw [hlast] at heq
    exact absurd heq (Nat.succ_ne_self _)
  · rw [hresolver, hjobs]
  · intro job hjob
    rcases hnew with rfl | rfl
    · cases hjob
    · rwa [List.mem_singleton.mp hjob]
  · rw [hresolver, hinbox]
  · intro a ha
    rwa [hgot a ha]

theorem follows_updateInput (h : p.active = true) (k : Key) : Follows p (p.updateInput k) := by
  unfold updateInput
  dsimp only
  split
  next heq =>
    exact follows_of_quiet rfl rfl (.inr ⟨rfl, fun ha => ⟨ha, rfl, congrArg Text.strip heq⟩⟩)
  next => exact follows_startSearch rfl h

theorem follows_confirm (p : ReferencePicker) : Follows p p.confirm := by
  unfold confirm
  dsimp only
  split
  · exact follows_of_quiet rfl rfl (.inl (Nat.lt_succ_self _))
  · split
    · exact follows_of_quiet rfl rfl (.inr ⟨rfl, fun ha => ⟨ha, rfl, rfl⟩⟩)
    · exact follows_of_quiet rfl rfl (.inl (Nat.lt_succ_self _))

/-- **A key changes a picker only under a new number**, unless it leaves the box as it is. -/
theorem follows_update (p : ReferencePicker) (k : Key) : Follows p (p.update k) := by
  unfold update
  cases ha : p.active with
  | false => exact .refl p
  | true =>
      simp only [Bool.not_true, Bool.false_eq_true, if_false]
      split
      · exact follows_of_quiet rfl rfl (.inl (Nat.lt_succ_self _))
      · split
        · exact follows_confirm p
        · split
          · split
            · exact .refl p
            · exact follows_of_quiet rfl rfl (.inr ⟨rfl, fun _ => ⟨rfl, rfl, rfl⟩⟩)
          · split
            · exact follows_of_quiet rfl rfl (.inr ⟨rfl, fun _ => ⟨rfl, rfl, rfl⟩⟩)
            · exact follows_updateInput ha k

theorem follows_step (h : Step p p') : Follows p p' := by
  cases h with
  | key k => exact follows_update p k
  | activate h table => exact follows_activate h table
  | deactivate => exact follows_deactivate p
  | cancel => exact follows_of_quiet rfl rfl (.inl (Nat.lt_succ_self _))

/-- **Whatever a builder does to a picker, it follows.** -/
theorem follows_of_steps (h : Relation.ReflTransGen Step p p') : Follows p p' := by
  induction h with
  | refl => exact .refl p
  | tail _ h ih => exact ih.trans (follows_step h)

end ReferencePicker

/-! ## §2. Keys for the builder. -/

namespace Builder

open ReferencePicker (Follows)

/-- **A key for the builder changes the picker only under a new number**, or while it is closed. -/
theorem follows_key {b : Builder} (hc : b.core.Coherent) {now : Instant} {k : Key} {b' : Builder}
    (h : b.update now k = .ok b') : Follows b.reference b'.reference :=
  ReferencePicker.follows_of_steps (moves_key hc h).reference

/-! ## §3. A builder and its workers. -/

/-- The answers in the inbox are collected, but not yet delivered. -/
def collected (b : Builder) : Builder :=
  { b with reference := { b.reference with resolver := b.reference.resolver.poll.2 } }

/-- The states that a new builder and its workers get to by keys, by collecting answers and by what
the workers do, in any order. -/
inductive Searching (table : Table) (settings : Settings) (resolver : Resolver) :
    Builder → Workers → Prop
  /-- A new builder, and nothing to do. -/
  | created {now : Instant} {b : Builder} (h : create table settings resolver now = .ok b) :
      Searching table settings resolver b {}
  /-- A key; the jobs that it submits wait for workers. -/
  | key {b b' : Builder} {w : Workers} {now : Instant} {k : Key}
      (hb : Searching table settings resolver b w) (h : b.update now k = .ok b') :
      Searching table settings resolver b' (w.receive b.reference.resolver b'.reference.resolver)
  /-- The answers in the inbox are delivered. -/
  | poll {b : Builder} {w : Workers} (hb : Searching table settings resolver b w) :
      Searching table settings resolver b.poll.2 w
  /-- A worker does something. -/
  | work {b : Builder} {w w' : Workers} {e : Workers.Event} {r : Resolver}
      (hb : Searching table settings resolver b w)
      (h : Workers.Step b.reference.resolver w e r w') :
      Searching table settings resolver
        { b with reference := { b.reference with resolver := r } } w'

section
variable {table : Table} {settings : Settings} {resolver : Resolver} {b : Builder} {w : Workers}

/-- The builder goes through reachable states. -/
theorem Searching.reachable (h : Searching table settings resolver b w) :
    Reachable table settings resolver b := by
  induction h with
  | created h => exact .created h
  | @key b b' w now k hb h ih => exact ih.event (e := .message (.key now k)) h
  | poll hb ih => exact ih.event (e := .poll) rfl
  | work hb h ih =>
      cases h with
      | start | skip => exact ih
      | ask => exact ih.event (e := .ask _) rfl
      | post => exact ih.event (e := .post _) rfl

/-- A row of keys for a new builder, whatever waits afterwards. -/
theorem exists_searching (table : Table) (settings : Settings) (resolver : Resolver)
    (now : Instant) (ks : List Key) (p : Builder → Bool)
    (h : ((create table settings resolver now).bind (fun b => b.typeKeys now ks)).toOption.any p) :
    ∃ b w, Searching table settings resolver b w ∧ p b = true := by
  obtain ⟨b, ⟨w, hw⟩, hp⟩ := exists_of_created
    (P := fun b => ∃ w, Searching table settings resolver b w)
    (fun ⟨_, hb⟩ h => ⟨_, hb.key h⟩) (fun h => ⟨{}, .created h⟩) h
  exact ⟨b, w, hw, hp⟩

/-- Everything that is on its way under the current number is a search for what is in the box. -/
def Current (p : ReferencePicker) (w : Workers) : Prop :=
  ∀ job ∈ w.outstanding p.resolver, job.sequence ≤ p.resolver.sequence ∧
    (job.sequence = p.resolver.sequence → p.Asks job)

theorem current_of_follows {p p' : ReferencePicker} (h : Current p w) (hp : Follows p p') :
    Current p' (w.receive p.resolver p'.resolver) := by
  obtain ⟨new, hjobs, hnew⟩ := hp.jobs
  obtain ⟨got, hinbox, hgot⟩ := hp.inbox
  -- what was on its way before, and what was submitted since
  have hold : ∀ job ∈ w.outstanding p.resolver, job.sequence ≤ p'.resolver.sequence ∧
      (job.sequence = p'.resolver.sequence → p'.Asks job) := by
    intro job hjob
    obtain ⟨hle, hasks⟩ := h job hjob
    refine ⟨Nat.le_trans hle hp.sequence, fun heq => ?_⟩
    have hsame : p'.resolver.sequence = p.resolver.sequence :=
      Nat.le_antisymm (heq ▸ hle) hp.sequence
    have ha := hasks (heq.trans hsame)
    obtain ⟨hactive, htable, htext⟩ := hp.kept hsame ha.active
    exact ⟨hactive, ha.table.trans htable.symm, ha.text.trans htext.symm⟩
  intro job hjob
  rw [Workers.outstanding, Workers.receive_taken, hinbox, List.map_append] at hjob
  rcases List.mem_append.mp hjob with hjob | hjob
  · rcases List.mem_append.mp (Workers.receive_waiting_subset hjobs hjob) with hjob | hjob
    · exact hold job (List.mem_append_left _ hjob)
    · exact ⟨(hnew job hjob).le, (hnew job hjob).asks⟩
  · rcases List.mem_append.mp hjob with hjob | hjob
    · exact hold job (List.mem_append_right _ (List.mem_append_left _ hjob))
    · rcases List.mem_append.mp hjob with hjob | hjob
      · exact hold job (List.mem_append_right _ (List.mem_append_right _ hjob))
      · obtain ⟨a, ha, rfl⟩ := List.mem_map.mp hjob
        exact ⟨(hgot a ha).le, (hgot a ha).asks⟩

end

/-! ## §4. Delivery. -/

/-- Only what the picker for a record shows of an answer has changed. -/
structure Shown (b b' : Builder) : Prop where
  /-- Everything but the picker is as it was. -/
  rest : b' = { b with reference := b'.reference }
  /-- The picker is open or closed as it was. -/
  active : b'.reference.active = b.reference.active
  /-- It searches the same table. -/
  table : b'.reference.table = b.reference.table
  /-- Its box holds the same text. -/
  input : b'.reference.input = b.reference.input
  /-- Its searches are the same. -/
  resolver : b'.reference.resolver = b.reference.resolver

theorem Shown.refl (b : Builder) : Shown b b := ⟨rfl, rfl, rfl, rfl, rfl⟩

theorem Shown.trans {b b' b'' : Builder} (h : Shown b b') (h' : Shown b' b'') : Shown b b'' where
  rest := by
    have hrest := h'.rest
    rw [h.rest] at hrest
    exact hrest
  active := h'.active.trans h.active
  table := h'.table.trans h.table
  input := h'.input.trans h.input
  resolver := h'.resolver.trans h.resolver

theorem shown_deliver (b : Builder) (a : SearchResult) : Shown b (b.deliver a) := by
  unfold deliver
  split
  · unfold ReferencePicker.handleResult
    split <;> exact ⟨rfl, rfl, rfl, rfl, rfl⟩
  · exact .refl b

theorem shown_foldl_deliver (answers : List SearchResult) :
    ∀ b : Builder, Shown b (answers.foldl deliver b) := by
  -- the builder changes with every answer
  induction answers with
  | nil => exact .refl
  | cons a rest ih => exact fun b => (shown_deliver b a).trans (ih _)

section
variable {table : Table} {settings : Settings} {resolver : Resolver} {b : Builder} {w : Workers}

/-- **What is on its way under the current number belongs to the box**, in every state. -/
theorem Searching.current (hnew : resolver.IsNew) (h : Searching table settings resolver b w) :
    Current b.reference w := by
  induction h with
  | created h =>
      unfold create at h
      split at h <;> cases h
      intro job hjob
      have hmem : job ∈ Workers.outstanding resolver {} := hjob
      simp [Workers.outstanding, Workers.taken, hnew.inbox] at hmem
  | key hb h ih =>
      exact current_of_follows ih (follows_key hb.reachable.inOrder.coherent h)
  | @poll b w hb ih =>
      have hshown := shown_foldl_deliver b.reference.resolver.poll.1 b.collected
      intro job hjob
      have hresolver : b.poll.2.reference.resolver = b.reference.resolver.poll.2 := hshown.resolver
      have hold : job ∈ w.outstanding b.reference.resolver := by
        rw [hresolver] at hjob
        exact (Resolver.outstanding_poll _ w).subset (List.mem_append_right _ hjob)
      obtain ⟨hle, hasks⟩ := ih job hold
      rw [hresolver]
      refine ⟨hle, fun heq => ?_⟩
      obtain ⟨hactive, htable, htext⟩ := hasks heq
      exact ⟨hshown.active.trans hactive, htable.trans hshown.table.symm,
        htext.trans (congrArg (fun i : TextInput => Text.strip i.value) hshown.input).symm⟩
  | work hb h ih =>
      intro job hjob
      obtain ⟨hle, hasks⟩ := ih job (h.outstanding.subset hjob)
      show job.sequence ≤ Resolver.sequence _ ∧ (job.sequence = Resolver.sequence _ → _)
      rw [h.sequence]
      exact ⟨hle, fun heq => ⟨(hasks heq).active, (hasks heq).table, (hasks heq).text⟩⟩

/-- **WHAT IS DELIVERED BELONGS TO WHAT IS IN THE SEARCH BOX.**  In every state that a new builder
gets to by keys and by answers collected while workers go on, each collected answer is shown: a
record is being asked for, the table of the answer is the one that the chosen field refers to, and
its text is the stripped text in the box.  Delivering changes nothing but the picker for a
record. -/
theorem Searching.delivers (hnew : resolver.IsNew) (h : Searching table settings resolver b w) :
    (∀ before a behind, b.reference.resolver.poll.1 = before ++ a :: behind →
      let b₁ := before.foldl deliver b.collected
      b₁.deliver a = { b₁ with reference := b₁.reference.handleResult a } ∧
      b₁.stage = .reference ∧ (∃ f, b₁.field = some f ∧ a.table = f.reference) ∧
      a.text = Text.strip b₁.reference.input.value) ∧
    b.poll.2 = { b with reference := b.poll.2.reference } := by
  have hcoherent := h.reachable.inOrder.coherent
  constructor
  · intro before a behind hpoll b₁
    have hshown : Shown b.collected b₁ := shown_foldl_deliver before b.collected
    have hmem : a ∈ b.reference.resolver.poll.1 := by simp [hpoll]
    obtain ⟨hinbox, hnow⟩ := List.mem_filter.mp hmem
    -- the answer is a job on its way under the current number
    have hjob : a.job ∈ w.outstanding b.reference.resolver :=
      List.mem_append_right _ (List.mem_append_right _ (List.mem_map_of_mem hinbox))
    have hasks := (h.current hnew a.job hjob).2 (of_decide_eq_true hnow)
    have hstage : b.stage = .reference := hcoherent.reference.mp hasks.active
    obtain ⟨f, hf, htable⟩ := hcoherent.referenceTable hstage
    have hstage₁ : b₁.stage = .reference := by
      rw [hshown.rest]
      exact hstage
    have hactive₁ : b₁.reference.active = true := hshown.active.trans hasks.active
    have htable₁ : a.table = b₁.reference.table := hasks.table.trans hshown.table.symm
    refine ⟨?_, hstage₁, ⟨f, ?_, hasks.table.trans htable⟩, ?_⟩
    · rw [deliver, if_pos ⟨hstage₁, hactive₁, htable₁⟩]
    · rw [hshown.rest]
      exact hf
    · rw [hshown.input]
      exact hasks.text
  · have hshown := shown_foldl_deliver b.reference.resolver.poll.1 b.collected
    exact hshown.rest

end

/-- A table with one reference to a user. -/
def oneReference : Table :=
  ⟨"incident", [{ name := "caller_id", label := "Caller", type := .reference,
                  reference := "sys_user" }]⟩

/-- Searches whose jobs wait for workers, and which find nothing. -/
def lateSearches : Resolver := resolverOf {} (some ⟨fun _ _ => .ok []⟩) true

/-- The text `an` is typed, and a worker answers the search for it. -/
theorem Searching.delivers_typed :
    ∃ b w, Searching oneReference {} lateSearches b w ∧
      ∃ a, b.reference.resolver.poll.1 = [a] ∧ a.text = "an" ∧
        b.stage = .reference ∧ a.text = Text.strip b.reference.input.value ∧
        b.poll.2 = { b with reference := b.poll.2.reference } := by
  let job : SearchJob := ⟨2, "sys_user", "an"⟩
  let typed (b : Builder) : Bool :=
    match b.update ides (.char 'n') with
    | .ok b' =>
        b'.reference.resolver.jobs = b.reference.resolver.jobs ++ [job] &&
          b'.reference.resolver.deferred && b'.reference.resolver.starts job &&
          b'.reference.resolver.source.isSome && b'.reference.resolver.inbox.isEmpty
    | .error _ => false
  obtain ⟨b, w, hb, htyped⟩ := exists_searching oneReference {} lateSearches ides
    [.enter, .enter, .char 'a'] typed (by decide +kernel)
  cases hkey : b.update ides (.char 'n') with
  | error f => simp [typed, hkey] at htyped
  | ok b' =>
      simp only [typed, hkey, Bool.and_eq_true, decide_eq_true_eq, List.isEmpty_iff] at htyped
      obtain ⟨⟨⟨⟨hjobs, hdeferred⟩, hfresh⟩, hsource⟩, hinbox⟩ := htyped
      obtain ⟨source, hsource⟩ := Option.isSome_iff_exists.mp hsource
      have hwaiting : (w.receive b.reference.resolver b'.reference.resolver).waiting
          = w.waiting ++ job :: [] := by
        rw [Workers.receive, if_pos hdeferred, hjobs, List.drop_left]
      -- the worker takes the job, asks the source and leaves the answer
      have hstarted := (hb.key hkey).work (.start hwaiting hfresh)
      have hasked := hstarted.work (.ask rfl hsource)
      have hposted := hasked.work (.post rfl)
      let a : SearchResult := (b'.reference.resolver.ask source job).1
      let r : Resolver := (b'.reference.resolver.ask source job).2.post a
      have hpoll : r.poll.1 = [a] := by
        have hinbox' : r.inbox = [a] := by
          show b'.reference.resolver.inbox ++ [a] = [a]
          rw [hinbox]
          rfl
        have hnow : job.sequence = b'.reference.resolver.sequence := of_decide_eq_true hfresh
        show r.inbox.filter _ = [a]
        rw [hinbox']
        exact List.filter_cons_of_pos (decide_eq_true hnow)
      obtain ⟨hshown, hrest⟩ := Searching.delivers ⟨rfl, rfl, rfl⟩ hposted
      obtain ⟨_, hstage, _, htext⟩ := hshown [] a [] hpoll
      exact ⟨_, _, hposted, a, hpoll, rfl, hstage, htext, hrest⟩

end Builder

end EncodedQuery

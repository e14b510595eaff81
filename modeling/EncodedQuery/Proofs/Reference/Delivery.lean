/-
  EncodedQuery.Proofs.Reference.Delivery
  ──────────────────────────────────────
  **NO STALE ANSWER IS DELIVERED AND NO CURRENT ONE IS LOST.**

  The owner of a resolver searches, cancels and collects answers; meanwhile
  workers take jobs, ask the source and leave answers, in any order.  A run is a
  list of what happened, and says everything about it: which number a search has
  is the number of searches and cancellations up to it.

  The invariant is that every answer stands for one submitted job.  What is
  delivered together with what is still on its way is a part of the submitted
  jobs, each taken once, and no two of these have the same number.

  Main results:
    • `Orderly.step` — the invariant of a run,
    • `Run.idle` — a dropped job is not heard of again,
    • `Run.deliveries` — what the owner sees.
-/
import EncodedQuery.Proofs.Reference.Workers
import Mathlib.Data.List.Count

namespace EncodedQuery.Resolver

/-! ## §1. Runs. -/

/-- What happens to the searches of one owner. -/
inductive Event where
  /-- The owner searches. -/
  | search (table text : Text)
  /-- The owner cancels the last search. -/
  | cancel
  /-- The owner collects these answers. -/
  | poll (answers : List SearchResult)
  /-- A worker does something. -/
  | work (e : Workers.Event)

namespace Event

/-- Earlier searches become stale. -/
def supersedes : Event → Bool
  | search .. | cancel => true
  | _ => false

/-- The answers that the owner gets. -/
def delivered : Event → List SearchResult
  | poll answers => answers
  | _ => []

/-- The request of search number `n` is made, or its answer left. -/
def WorksOn (n : Nat) : Event → Prop
  | work (.ask job) => job.sequence = n
  | work (.post a) => a.sequence = n
  | _ => False

end Event

/-- A resolver and its workers. -/
structure Session where
  /-- The resolver. -/
  resolver : Resolver
  /-- The workers. -/
  workers : Workers := {}

/-- How a session changes by an event. -/
inductive Step : Session → Event → Session → Prop
  /-- The job of the search, if there is one, waits for a worker. -/
  | search {r w table text} :
      Step ⟨r, w⟩ (.search table text)
        ⟨(r.search table text).2, w.receive r (r.search table text).2⟩
  /-- Nothing new waits. -/
  | cancel {r w} : Step ⟨r, w⟩ .cancel ⟨r.cancel, w⟩
  /-- The inbox is emptied. -/
  | poll {r w} : Step ⟨r, w⟩ (.poll r.poll.1) ⟨r.poll.2, w⟩
  /-- A worker goes on. -/
  | work {r w e r' w'} (h : Workers.Step r w e r' w') : Step ⟨r, w⟩ (.work e) ⟨r', w'⟩

/-- Events, one after the other. -/
inductive Run : Session → List Event → Session → Prop
  /-- Nothing happens. -/
  | nil {s} : Run s [] s
  /-- One event, and then the others. -/
  | cons {s e s' es s''} (h : Step s e s') (hs : Run s' es s'') : Run s (e :: es) s''

theorem run_append_iff {s s'' : Session} : ∀ {es es' : List Event},
    Run s (es ++ es') s'' ↔ ∃ s', Run s es s' ∧ Run s' es' s'' := by
  intro es
  induction es generalizing s with
  | nil =>
      intro es'
      constructor
      · exact fun h => ⟨s, .nil, h⟩
      · rintro ⟨_, ⟨⟩, h⟩
        exact h
  | cons e es ih =>
      intro es'
      constructor
      · rintro (_ | ⟨h, hs⟩)
        obtain ⟨s', hleft, hright⟩ := ih.mp hs
        exact ⟨s', .cons h hleft, hright⟩
      · rintro ⟨s', _ | ⟨h, hleft⟩, hright⟩
        exact .cons h (ih.mpr ⟨s', hleft, hright⟩)

/-- The number of the last search or cancellation. -/
def lastNumber (es : List Event) : Nat := es.countP Event.supersedes

/-- The job was submitted by a search, under the number that the search has in the run. -/
def Submitted (es : List Event) (job : SearchJob) : Prop :=
  ∃ before table text behind, es = before ++ .search table text :: behind ∧
    job = ⟨lastNumber before + 1, table, Text.strip text⟩

theorem Submitted.le {es : List Event} {job : SearchJob} (h : Submitted es job) :
    job.sequence ≤ lastNumber es := by
  obtain ⟨before, table, text, behind, rfl, rfl⟩ := h
  simp only [lastNumber, List.countP_append, List.countP_cons, Event.supersedes, if_true]
  omega

theorem Submitted.append {es : List Event} {job : SearchJob} (h : Submitted es job)
    (es' : List Event) : Submitted (es ++ es') job := by
  obtain ⟨before, table, text, behind, rfl, rfl⟩ := h
  exact ⟨before, table, text, behind ++ es', by simp, rfl⟩

/-! ## §2. The invariant. -/

/-- A resolver that has not been used. -/
structure IsNew (r : Resolver) : Prop where
  /-- No search has a number. -/
  sequence : r.sequence = 0
  /-- No job was submitted. -/
  jobs : r.jobs = []
  /-- No answer has come. -/
  inbox : r.inbox = []

/-- The state of a session after these events. -/
structure Orderly (es : List Event) (s : Session) : Prop where
  /-- The events say what number is the last. -/
  sequence : s.resolver.sequence = lastNumber es
  /-- Jobs are submitted by searches. -/
  submitted : ∀ job ∈ s.resolver.jobs, Submitted es job
  /-- Each search has its own number. -/
  distinct : (s.resolver.jobs.map SearchJob.sequence).Nodup
  /-- A job is on its way, or answered, or dropped. -/
  once : ((es.flatMap Event.delivered).map SearchResult.job
    ++ s.workers.outstanding s.resolver).Subperm s.resolver.jobs
  /-- A job that was worked on does not wait any more. -/
  worked : ∀ n, (∃ e ∈ es, e.WorksOn n) →
    n ≤ s.resolver.sequence ∧ ∀ job ∈ s.workers.waiting, job.sequence ≠ n
  /-- Whatever goes wrong with a request is put down to the source. -/
  faults : ∀ a ∈ s.workers.answered, ∀ f, a.outcome = .error f → f.isSource = true

theorem orderly_new {r : Resolver} (h : r.IsNew) : Orderly [] ⟨r, {}⟩ where
  sequence := h.sequence
  submitted := by simp [h.jobs]
  distinct := by simp [h.jobs]
  once := by simp [Workers.outstanding, Workers.taken, h.jobs, h.inbox]
  worked := by simp
  faults := by simp

section
variable {es : List Event} {s s' : Session} {e : Event}

/-- No two jobs that are on their way or delivered have the same number. -/
theorem Orderly.nodup (h : Orderly es s) :
    (((es.flatMap Event.delivered).map SearchResult.job
      ++ s.workers.outstanding s.resolver).map SearchJob.sequence).Nodup := by
  obtain ⟨part, hperm, hsub⟩ := h.once
  exact (hperm.map _).nodup_iff.mp ((hsub.map _).nodup h.distinct)

/-- A job that waits is not in a worker's hands as well. -/
theorem Orderly.ne_of_taken (h : Orderly es s) {job other : SearchJob}
    (hjob : job ∈ s.workers.waiting) (hother : other ∈ s.workers.taken) :
    job.sequence ≠ other.sequence := by
  have hnodup := h.nodup
  rw [Workers.outstanding, List.map_append, List.map_append, List.map_append] at hnodup
  have hrest := (List.nodup_append.mp hnodup).2.1
  have happart := (List.nodup_append.mp hrest).2.2
  exact happart _ (List.mem_map_of_mem hjob) _
    (List.mem_append_left _ (List.mem_map_of_mem hother))

/-- A number is worked on by the worker that has its job in hand. -/
theorem mem_taken_of_worksOn {n : Nat} (hs : Step s e s') (hn : e.WorksOn n) :
    ∃ job ∈ s.workers.taken, job.sequence = n := by
  cases hs with
  | search | cancel | poll => exact absurd hn (by simp [Event.WorksOn])
  | work h =>
      cases h with
      | start | skip => exact absurd hn (by simp [Event.WorksOn])
      | @ask job before behind source hw _ =>
          refine ⟨job, List.mem_append_left _ ?_, hn⟩
          simp [hw]
      | @post a before behind hw =>
          refine ⟨a.job, List.mem_append_right _ (List.mem_map_of_mem ?_), hn⟩
          simp [hw]

/-- Nothing is worked on before it is submitted. -/
theorem Orderly.le_of_taken (h : Orderly es s) {job : SearchJob} (hjob : job ∈ s.workers.taken) :
    job.sequence ≤ s.resolver.sequence := by
  have hmem : job ∈ s.resolver.jobs :=
    h.once.subset (List.mem_append_right _ (List.mem_append_right _ (List.mem_append_left _ hjob)))
  rw [h.sequence]
  exact (h.submitted job hmem).le

/-- Numbers are never taken back. -/
theorem Step.sequence_le (hs : Step s e s') : s.resolver.sequence ≤ s'.resolver.sequence := by
  cases hs with
  | @search r w table text => exact (sequence_search r table text).symm ▸ Nat.le_succ _
  | cancel => exact Nat.le_succ _
  | poll => exact Nat.le_refl _
  | work h => exact Nat.le_of_eq h.sequence.symm

/-- What waits after an event waited before, or was submitted under a new number. -/
theorem Step.waiting_cases (hs : Step s e s') :
    ∀ job ∈ s'.workers.waiting, job ∈ s.workers.waiting ∨ s.resolver.sequence < job.sequence := by
  intro job hjob
  cases hs with
  | @search r w table text =>
      obtain ⟨since, hsince, hjobs, _⟩ := outstanding_search r w table text
      rcases List.mem_append.mp (Workers.receive_waiting_subset hjobs hjob) with hmem | hmem
      · exact .inl hmem
      · rcases hsince with rfl | rfl
        · cases hmem
        · rw [List.mem_singleton.mp hmem]
          exact .inr (Nat.lt_succ_self _)
  | cancel | poll => exact .inl hjob
  | work h => exact .inl (h.waiting_subset hjob)

/-- What an event submits has a number of its own. -/
theorem Orderly.jobs_step (h : Orderly es s) (hs : Step s e s') :
    (∀ job ∈ s'.resolver.jobs, Submitted (es ++ [e]) job) ∧
      (s'.resolver.jobs.map SearchJob.sequence).Nodup := by
  cases hs with
  | @search r w table text =>
      obtain ⟨since, hsince, hjobs, _⟩ := outstanding_search r w table text
      have hle : ∀ job ∈ r.jobs, job.sequence ≤ r.sequence :=
        fun job hjob => Nat.le_trans (h.submitted job hjob).le (Nat.le_of_eq h.sequence.symm)
      show (∀ job ∈ (r.search table text).2.jobs, _) ∧ _
      rw [hjobs]
      constructor
      · intro job hjob
        rcases List.mem_append.mp hjob with hjob | hjob
        · exact (h.submitted job hjob).append _
        · refine ⟨es, table, text, [], rfl, ?_⟩
          rcases hsince with rfl | rfl
          · cases hjob
          · rw [List.mem_singleton.mp hjob, ← h.sequence]
      · rw [List.map_append, List.nodup_append]
        refine ⟨h.distinct, ?_, ?_⟩
        · rcases hsince with rfl | rfl <;> simp
        · intro n hn m hm
          obtain ⟨job, hjob, rfl⟩ := List.mem_map.mp hn
          have := hle job hjob
          rcases hsince with rfl | rfl
          · cases hm
          · have hm' : m = r.sequence + 1 := by simpa using hm
            omega
  | cancel => exact ⟨fun job hjob => (h.submitted job hjob).append _, h.distinct⟩
  | poll => exact ⟨fun job hjob => (h.submitted job hjob).append _, h.distinct⟩
  | work hw =>
      have hjobs := hw.jobs
      exact ⟨fun job hjob => (h.submitted job (hjobs ▸ hjob)).append _, hjobs ▸ h.distinct⟩

/-- What is delivered was on its way, and only a search puts something on its way. -/
theorem Orderly.once_step (h : Orderly es s) (hs : Step s e s') :
    (((es ++ [e]).flatMap Event.delivered).map SearchResult.job
      ++ s'.workers.outstanding s'.resolver).Subperm s'.resolver.jobs := by
  refine List.subperm_ext_iff.mpr fun job _ => ?_
  have honce := h.once.count_le job
  rw [List.count_append] at honce
  simp only [List.flatMap_append, List.flatMap_cons, List.flatMap_nil, List.append_nil,
    List.map_append, List.count_append]
  cases hs with
  | @search r w table text =>
      obtain ⟨since, _, hjobs, hout⟩ := outstanding_search r w table text
      have hnew := hout.count_le job
      have hcount := congrArg (List.count job) hjobs
      rw [List.count_append] at hnew hcount
      simp only [Event.delivered, List.map_nil, List.count_nil] at honce ⊢
      omega
  | cancel => exact honce
  | @poll r w =>
      have hout := (outstanding_poll r w).count_le job
      rw [List.count_append] at hout
      have hjobs : r.poll.2.jobs = r.jobs := rfl
      simp only [Event.delivered, hjobs] at honce ⊢
      omega
  | work hw =>
      have hout := hw.outstanding.count_le job
      simp only [Event.delivered, List.map_nil, List.count_nil, hw.jobs] at honce ⊢
      omega

/-- **Every event keeps a session orderly.** -/
theorem Orderly.step (h : Orderly es s) (hs : Step s e s') : Orderly (es ++ [e]) s' where
  sequence := by
    have hcount : lastNumber (es ++ [e]) = lastNumber es + if e.supersedes then 1 else 0 := by
      simp [lastNumber, List.countP_append, List.countP_cons]
    rw [hcount, ← h.sequence]
    cases hs with
    | @search r w table text => exact sequence_search r table text
    | cancel | poll => rfl
    | work hw => exact hw.sequence
  submitted := (h.jobs_step hs).1
  distinct := (h.jobs_step hs).2
  once := h.once_step hs
  worked := by
    intro n hn
    -- the number was worked on before, or its job is in a worker's hands
    have hold : n ≤ s.resolver.sequence ∧ ∀ job ∈ s.workers.waiting, job.sequence ≠ n := by
      obtain ⟨e', he', hwork⟩ := hn
      rcases List.mem_append.mp he' with he' | he'
      · exact h.worked n ⟨e', he', hwork⟩
      · rw [List.mem_singleton.mp he'] at hwork
        obtain ⟨other, hother, rfl⟩ := mem_taken_of_worksOn hs hwork
        exact ⟨h.le_of_taken hother, fun job hjob => h.ne_of_taken hjob hother⟩
    refine ⟨Nat.le_trans hold.1 hs.sequence_le, fun job hjob => ?_⟩
    rcases hs.waiting_cases job hjob with hmem | hlt
    · exact hold.2 job hmem
    · have := hold.1
      omega
  faults := by
    cases hs with
    | search =>
        show ∀ a ∈ (Workers.receive _ _ _).answered, _
        rw [Workers.receive_answered]
        exact h.faults
    | cancel | poll => exact h.faults
    | work hw => exact hw.fault_isSource h.faults

end

theorem Run.orderly {s : Session} {es : List Event} {s' : Session} (hs : Run s es s') :
    ∀ {before : List Event}, Orderly before s → Orderly (before ++ es) s' := by
  induction hs with
  | nil =>
      intro before h
      rwa [List.append_nil]
  | @cons s e s₁ es s₂ hstep _ ih =>
      intro before h
      have := ih (h.step hstep)
      rwa [List.append_assoc] at this

/-! ## §3. Dropped jobs. -/

/-- The job of the number was dropped or answered: it neither waits nor is in hand. -/
def Idle (n : Nat) (s : Session) : Prop :=
  n ≤ s.resolver.sequence ∧ ∀ job ∈ s.workers.waiting ++ s.workers.taken, job.sequence ≠ n

theorem Idle.step {n : Nat} {s s' : Session} {e : Event} (h : Idle n s) (hs : Step s e s') :
    ¬ e.WorksOn n ∧ Idle n s' := by
  constructor
  · intro hwork
    obtain ⟨job, hjob, hn⟩ := mem_taken_of_worksOn hs hwork
    exact h.2 job (List.mem_append_right _ hjob) hn
  · refine ⟨Nat.le_trans h.1 hs.sequence_le, fun job hjob => ?_⟩
    rcases List.mem_append.mp hjob with hjob | hjob
    · rcases hs.waiting_cases job hjob with hmem | hlt
      · exact h.2 job (List.mem_append_left _ hmem)
      · have := h.1
        omega
    · refine h.2 job ?_
      cases hs with
      | search =>
          rw [Workers.receive_taken] at hjob
          exact List.mem_append_right _ hjob
      | cancel | poll => exact List.mem_append_right _ hjob
      | work hw => exact hw.taken_subset hjob

/-- **A job that was dropped is not heard of again.** -/
theorem Run.idle {n : Nat} {s : Session} {es : List Event} {s' : Session} (hs : Run s es s')
    (h : Idle n s) : ∀ e ∈ es, ¬ e.WorksOn n := by
  induction hs with
  | nil => nofun
  | cons hstep _ ih =>
      obtain ⟨hfirst, hnext⟩ := h.step hstep
      intro e he
      rcases List.mem_cons.mp he with rfl | he
      · exact hfirst
      · exact ih hnext e he

/-- A stale job is dropped, and nobody has worked on it. -/
theorem Orderly.idle_of_stale {es : List Event} {s s' : Session} {job : SearchJob}
    (h : Orderly es s) (hs : Step s (.work (.start job)) s')
    (hstale : job.sequence ≠ s.resolver.sequence) :
    (∀ e ∈ es, ¬ e.WorksOn job.sequence) ∧ Idle job.sequence s' := by
  cases hs with
  | @work r w _ r' w' hw =>
      cases hw with
      | start _ hfresh =>
          exact absurd (of_decide_eq_true hfresh) hstale
      | skip hwaiting _ =>
          have hjob : job ∈ w.waiting := by simp [hwaiting]
          constructor
          · exact fun e he hwork => (h.worked _ ⟨e, he, hwork⟩).2 job hjob rfl
          · have hmem : job ∈ r.jobs :=
              h.once.subset (List.mem_append_right _ (List.mem_append_left _ hjob))
            refine ⟨Nat.le_trans (h.submitted job hmem).le (Nat.le_of_eq h.sequence.symm), ?_⟩
            intro other hother
            rcases List.mem_append.mp hother with hother | hother
            · -- the number of the job stands once among those that waited
              have hnodup := h.nodup
              rw [Workers.outstanding, List.map_append, List.map_append] at hnodup
              have hwait := (List.nodup_append.mp (List.nodup_append.mp hnodup).2.1).1
              rw [hwaiting, List.map_append, List.map_cons] at hwait
              have hnew := (List.nodup_cons.mp (List.perm_middle.nodup_iff.mp hwait)).1
              rw [← List.map_append] at hnew
              exact fun heq => hnew (heq ▸ List.mem_map_of_mem hother)
            · exact fun heq => h.ne_of_taken hjob hother heq.symm

/-! ## §4. Current answers. -/

/-- An answer stays in the inbox until the owner collects, cancels or searches again. -/
theorem Run.mem_inbox {s : Session} {es : List Event} {s' : Session} (hs : Run s es s')
    (hes : ∀ e ∈ es, e.supersedes = false ∧ ∀ answers, e ≠ .poll answers) {a : SearchResult}
    (ha : a ∈ s.resolver.inbox) :
    a ∈ s'.resolver.inbox ∧ s'.resolver.sequence = s.resolver.sequence := by
  induction hs with
  | nil => exact ⟨ha, rfl⟩
  | cons hstep _ ih =>
      obtain ⟨hfirst, hrest⟩ := List.forall_mem_cons.mp hes
      cases hstep with
      | search | cancel => cases hfirst.1
      | poll => exact absurd rfl (hfirst.2 _)
      | work hw =>
          obtain ⟨hmem, hsequence⟩ := ih hrest (hw.inbox_subset ha)
          exact ⟨hmem, hsequence.trans hw.sequence⟩

/-- **The answers that are collected are those of one search, and at most one.** -/
theorem Orderly.poll_eq {es : List Event} {s : Session} (h : Orderly es s) {a : SearchResult}
    (ha : a ∈ s.resolver.inbox) (hnow : a.sequence = s.resolver.sequence) :
    s.resolver.poll.1 = [a] := by
  have hnodup : (s.resolver.poll.1.map SearchResult.sequence).Nodup := by
    have hall := h.nodup
    rw [Workers.outstanding, List.map_append, List.map_append, List.map_append] at hall
    have hrest := (List.nodup_append.mp (List.nodup_append.mp hall).2.1).2.1
    have hinbox := (List.nodup_append.mp hrest).2.1
    rw [List.map_map] at hinbox
    exact (List.filter_sublist.map _).nodup hinbox
  have hmem : a ∈ s.resolver.poll.1 := List.mem_filter.mpr ⟨ha, decide_eq_true hnow⟩
  have hsame : ∀ b ∈ s.resolver.poll.1, b.sequence = s.resolver.sequence :=
    fun b hb => of_decide_eq_true (List.mem_filter.mp hb).2
  cases hpoll : s.resolver.poll.1 with
  | nil =>
      rw [hpoll] at hmem
      cases hmem
  | cons b rest =>
      rw [hpoll] at hnodup hmem hsame
      -- a second answer would have the number of the first one
      have hrest : rest = [] := by
        refine List.eq_nil_iff_forall_not_mem.mpr fun c hc => ?_
        refine (List.nodup_cons.mp hnodup).1 (List.mem_map.mpr ⟨c, hc, ?_⟩)
        rw [hsame c (List.mem_cons_of_mem _ hc), hsame b List.mem_cons_self]
      rw [hrest] at hmem ⊢
      rw [List.mem_singleton.mp hmem]

/-! ## §5. What the owner sees. -/

/-- **STALE ANSWERS ARE NEVER DELIVERED, AND CURRENT ONES ARE NEVER LOST.**  In every run of a new
resolver:
  • a collected answer has the number of the last search or cancellation before,
  • no number is delivered twice,
  • of a job that is stale when a worker takes it no request is made and no answer left,
  • an answer that is left belongs to a search of the run, and a failure is one of the source,
  • an answer to the last search is what the next collection gives, and all that it gives. -/
theorem Run.deliveries {r : Resolver} (hnew : r.IsNew) {es : List Event} {s : Session}
    (hs : Run ⟨r, {}⟩ es s) :
    (∀ before answers behind, es = before ++ .poll answers :: behind →
      ∀ a ∈ answers, a.sequence = lastNumber before) ∧
    ((es.flatMap Event.delivered).map SearchResult.sequence).Nodup ∧
    (∀ before job behind, es = before ++ .work (.start job) :: behind →
      job.sequence ≠ lastNumber before → ∀ e ∈ es, ¬ e.WorksOn job.sequence) ∧
    (∀ a, .work (.post a) ∈ es →
      Submitted es a.job ∧ ∀ f, a.outcome = .error f → f.isSource = true) ∧
    (∀ before a behind, es = before ++ .work (.post a) :: behind →
      a.sequence = lastNumber before →
      (∀ e ∈ behind, e.supersedes = false ∧ ∀ answers, e ≠ .poll answers) →
      s.resolver.poll.1 = [a]) := by
  have horderly : ∀ {es s}, Run ⟨r, {}⟩ es s → Orderly es s :=
    fun hs => hs.orderly (orderly_new hnew)
  refine ⟨?_, ?_, ?_, ?_, ?_⟩
  · rintro before answers behind rfl a ha
    obtain ⟨s₁, hbefore, _ | ⟨hpoll, _⟩⟩ := run_append_iff.mp hs
    cases hpoll
    rw [← (horderly hbefore).sequence]
    exact of_decide_eq_true (List.mem_filter.mp ha).2
  · have hall := (horderly hs).nodup
    rw [List.map_append, List.map_map] at hall
    exact (List.nodup_append.mp hall).1
  · rintro before job behind rfl hstale
    obtain ⟨s₁, hbefore, _ | ⟨hstart, hbehind⟩⟩ := run_append_iff.mp hs
    rw [← (horderly hbefore).sequence] at hstale
    obtain ⟨hpast, hidle⟩ := (horderly hbefore).idle_of_stale hstart hstale
    intro e he
    rcases List.mem_append.mp he with he | he
    · exact hpast e he
    · rcases List.mem_cons.mp he with rfl | he
      · exact id
      · exact hbehind.idle hidle e he
  · intro a ha
    obtain ⟨before, behind, rfl⟩ := List.append_of_mem ha
    obtain ⟨s₁, hbefore, _ | ⟨hpost, _⟩⟩ := run_append_iff.mp hs
    have h := horderly hbefore
    cases hpost with
    | @work r₁ w₁ _ r₂ w₂ hw =>
        cases hw with
        | post hanswered =>
            have hmem : a ∈ w₁.answered := by simp [hanswered]
            have hjob : a.job ∈ r₁.jobs :=
              h.once.subset (List.mem_append_right _ (List.mem_append_right _
                (List.mem_append_left _ (List.mem_append_right _ (List.mem_map_of_mem hmem)))))
            exact ⟨(h.submitted _ hjob).append _, h.faults a hmem⟩
  · rintro before a behind rfl hlast hquiet
    obtain ⟨s₁, hbefore, _ | ⟨hpost, hbehind⟩⟩ := run_append_iff.mp hs
    rw [← (horderly hbefore).sequence] at hlast
    cases hpost with
    | @work r₁ w₁ _ r₂ w₂ hw =>
        cases hw with
        | post _ =>
            obtain ⟨hmem, hsequence⟩ :=
              hbehind.mem_inbox hquiet (List.mem_append_right _ (List.mem_singleton_self a))
            exact (horderly hs).poll_eq hmem (hlast.trans hsequence.symm)

/-- The first search is overtaken by the second one before a worker takes it. -/
theorem Run.deliveries_of_two :
    let r : Resolver := { source := some ⟨fun _ _ => .ok []⟩, deferred := true }
    let first : SearchJob := ⟨1, "sys_user", "an"⟩
    let second : SearchJob := ⟨2, "sys_user", "ann"⟩
    let a : SearchResult := ⟨2, "sys_user", "ann", .ok []⟩
    let es : List Event :=
      [.search "sys_user" "an", .search "sys_user" "ann ", .work (.start first),
       .work (.start second), .work (.ask second), .work (.post a)]
    ∃ s, Run ⟨r, {}⟩ es s ∧ s.resolver.poll.1 = [a] ∧ ∀ e ∈ es, ¬ e.WorksOn 1 := by
  intro r first second a es
  let r₁ := (r.search "sys_user" "an").2
  let r₂ := (r₁.search "sys_user" "ann ").2
  let r₃ := (r₂.ask ⟨fun _ _ => .ok []⟩ second).2
  have h₁ : Step ⟨r, {}⟩ (.search "sys_user" "an") ⟨r₁, ⟨[first], [], []⟩⟩ := .search
  have h₂ : Step ⟨r₁, ⟨[first], [], []⟩⟩ (.search "sys_user" "ann ")
      ⟨r₂, ⟨[first, second], [], []⟩⟩ := .search
  have h₃ : Step ⟨r₂, ⟨[first, second], [], []⟩⟩ (.work (.start first))
      ⟨r₂, ⟨[second], [], []⟩⟩ := .work (.skip (show _ = [] ++ first :: [second] from rfl) rfl)
  have h₄ : Step ⟨r₂, ⟨[second], [], []⟩⟩ (.work (.start second)) ⟨r₂, ⟨[], [second], []⟩⟩ :=
    .work (.start (show _ = [] ++ second :: [] from rfl) rfl)
  have h₅ : Step ⟨r₂, ⟨[], [second], []⟩⟩ (.work (.ask second)) ⟨r₃, ⟨[], [], [a]⟩⟩ :=
    .work (.ask (show _ = [] ++ second :: [] from rfl) rfl)
  have h₆ : Step ⟨r₃, ⟨[], [], [a]⟩⟩ (.work (.post a)) ⟨r₃.post a, ⟨[], [], []⟩⟩ :=
    .work (.post (show _ = [] ++ a :: [] from rfl))
  have hs : Run ⟨r, {}⟩ es ⟨r₃.post a, ⟨[], [], []⟩⟩ :=
    .cons h₁ (.cons h₂ (.cons h₃ (.cons h₄ (.cons h₅ (.cons h₆ .nil)))))
  obtain ⟨_, _, hstale, _, hcurrent⟩ := Run.deliveries ⟨rfl, rfl, rfl⟩ hs
  refine ⟨_, hs, hcurrent (es.take 5) a [] rfl rfl (by simp), ?_⟩
  exact hstale (es.take 2) first (es.drop 3) rfl (by decide)

end EncodedQuery.Resolver

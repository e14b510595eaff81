/-
  EncodedQuery.Proofs.Reference.Workers
  ─────────────────────────────────────
  **SEARCHES ON THEIR WAY.**

  A submitted job waits until a worker takes it.  The worker looks whether the
  job is stale, and drops it then; otherwise it makes the request, and in the
  end leaves the answer in the inbox.  Any number of workers do this at a time,
  so jobs overtake each other, and a job that was not stale when it was taken
  can be stale when it is answered.

  Workers are described by where the jobs are, not by who does them.

  Main results:
    • `Workers.Step.outstanding` — a worker makes no job up and doubles none,
    • `Resolver.Searches.outstanding` — a search adds the one job that it submits.
-/
import EncodedQuery.Reference.Resolver
import Mathlib.Data.List.Perm.Subperm

namespace EncodedQuery

/-- The search that an answer belongs to. -/
def SearchResult.job (a : SearchResult) : SearchJob := ⟨a.sequence, a.table, a.text⟩

/-! ## §1. Workers. -/

/-- Where the jobs are that were submitted and not yet answered. -/
structure Workers where
  /-- The jobs that no worker has taken. -/
  waiting : List SearchJob := []
  /-- The jobs that were not stale when they were taken; their requests come next. -/
  started : List SearchJob := []
  /-- The answers that are not yet in the inbox. -/
  answered : List SearchResult := []

namespace Workers

/-- What a worker does. -/
inductive Event where
  /-- Takes a job. -/
  | start (job : SearchJob)
  /-- Makes the request of a job. -/
  | ask (job : SearchJob)
  /-- Leaves an answer in the inbox. -/
  | post (a : SearchResult)

/-- How the resolver and the workers change by what a worker does. -/
inductive Step : Resolver → Workers → Event → Resolver → Workers → Prop
  /-- The job is not stale. -/
  | start {r w job before behind} (hw : w.waiting = before ++ job :: behind)
      (hfresh : r.starts job = true) :
      Step r w (.start job) r
        { w with waiting := before ++ behind, started := w.started ++ [job] }
  /-- The job is stale. -/
  | skip {r w job before behind} (hw : w.waiting = before ++ job :: behind)
      (hstale : r.starts job = false) :
      Step r w (.start job) r { w with waiting := before ++ behind }
  /-- The source is asked. -/
  | ask {r w job before behind source} (hw : w.started = before ++ job :: behind)
      (hsource : r.source = some source) :
      Step r w (.ask job) (r.ask source job).2
        { w with started := before ++ behind, answered := w.answered ++ [(r.ask source job).1] }
  /-- The answer is there. -/
  | post {r w a before behind} (hw : w.answered = before ++ a :: behind) :
      Step r w (.post a) (r.post a) { w with answered := before ++ behind }

/-- The jobs that workers have in hand. -/
def taken (w : Workers) : List SearchJob := w.started ++ w.answered.map SearchResult.job

/-- The jobs whose answers are not yet collected. -/
def outstanding (r : Resolver) (w : Workers) : List SearchJob :=
  w.waiting ++ (w.taken ++ r.inbox.map SearchResult.job)

/-- The workers with the jobs that were submitted since, which wait unless they run at once. -/
def receive (w : Workers) (old new : Resolver) : Workers :=
  if new.deferred then { w with waiting := w.waiting ++ new.jobs.drop old.jobs.length } else w

/-! ## §2. What a worker leaves as it is. -/

variable {r r' : Resolver} {w w' : Workers} {e : Event}

/-- **No job is made up or doubled by a worker.** -/
theorem Step.outstanding (h : Step r w e r' w') :
    (Workers.outstanding r' w').Subperm (Workers.outstanding r w) := by
  refine List.subperm_ext_iff.mpr fun job _ => ?_
  -- a job is counted wherever it is
  cases h with
  | start hw hfresh =>
      simp only [Workers.outstanding, taken, hw, List.count_append, List.count_cons,
        List.count_nil]
      omega
  | skip hw hstale =>
      simp only [Workers.outstanding, taken, hw, List.count_append, List.count_cons]
      omega
  | @ask asked before behind source hw hsource =>
      have hjob : (r.ask source asked).1.job = asked := rfl
      have hinbox : (r.ask source asked).2.inbox = r.inbox := rfl
      simp only [Workers.outstanding, taken, hw, hinbox, List.map_append, List.map_cons,
        List.map_nil, hjob, List.count_append, List.count_cons, List.count_nil]
      omega
  | post hw =>
      simp only [Workers.outstanding, taken, Resolver.post, hw, List.map_append, List.map_cons,
        List.map_nil, List.count_append, List.count_cons, List.count_nil]
      omega

/-- Searches are started and made stale by their owner alone. -/
theorem Step.sequence (h : Step r w e r' w') : r'.sequence = r.sequence := by
  cases h <;> rfl

theorem Step.jobs (h : Step r w e r' w') : r'.jobs = r.jobs := by
  cases h <;> rfl

/-- What a worker takes was waiting before. -/
theorem Step.waiting_subset (h : Step r w e r' w') : w'.waiting ⊆ w.waiting := by
  intro job hjob
  cases h with
  | start hw _ | skip hw _ =>
      rw [hw]
      rcases List.mem_append.mp hjob with hjob | hjob
      · exact List.mem_append_left _ hjob
      · exact List.mem_append_right _ (List.mem_cons_of_mem _ hjob)
  | ask | post => exact hjob

/-- What a worker has in hand was waiting or in hand before. -/
theorem Step.taken_subset (h : Step r w e r' w') : w'.taken ⊆ w.waiting ++ w.taken := by
  intro other hother
  cases h with
  | start hw _ | ask hw _ | post hw =>
      simp only [taken, hw, List.map_append, List.map_cons, List.map_nil, List.mem_append,
        List.mem_cons, List.not_mem_nil, or_false] at hother ⊢
      tauto
  | skip => exact List.mem_append_right _ hother

/-- Nothing is taken out of the inbox by a worker. -/
theorem Step.inbox_subset (h : Step r w e r' w') : r.inbox ⊆ r'.inbox := by
  cases h with
  | start | skip | ask => exact List.Subset.refl _
  | post => exact List.subset_append_left _ _

/-- A failed request is put down to the source, whatever went wrong. -/
theorem Step.fault_isSource (h : Step r w e r' w')
    (hw : ∀ a ∈ w.answered, ∀ f, a.outcome = .error f → f.isSource = true) :
    ∀ a ∈ w'.answered, ∀ f, a.outcome = .error f → f.isSource = true := by
  intro a ha f hf
  cases h with
  | start | skip => exact hw a ha f hf
  | @ask job before behind source hstarted hsource =>
      rcases List.mem_append.mp ha with ha | ha
      · exact hw a ha f hf
      · rw [List.mem_singleton.mp ha] at hf
        unfold Resolver.ask at hf
        dsimp only at hf
        split at hf
        · cases hf
        · cases hf
          unfold Resolver.asSourceFault
          split
          next h => exact h
          next => rfl
  | post hanswered =>
      refine hw a ?_ f hf
      rw [hanswered]
      rcases List.mem_append.mp ha with ha | ha
      · exact List.mem_append_left _ ha
      · exact List.mem_append_right _ (List.mem_cons_of_mem _ ha)

@[simp] theorem receive_answered (old new : Resolver) :
    (w.receive old new).answered = w.answered := by
  unfold receive
  split <;> rfl

@[simp] theorem receive_taken (old new : Resolver) : (w.receive old new).taken = w.taken := by
  unfold receive
  split <;> rfl

/-- Only what was submitted since is new. -/
theorem receive_waiting_subset {old new : Resolver} {since : List SearchJob}
    (h : new.jobs = old.jobs ++ since) : (w.receive old new).waiting ⊆ w.waiting ++ since := by
  unfold receive
  split
  · rw [h, List.drop_left]
    exact List.Subset.refl _
  · exact List.subset_append_left _ _

end Workers

/-! ## §3. What the owner does. -/

namespace Resolver

variable (r : Resolver) (w : Workers)

/-- What is collected is no longer on its way, and what is stale is dropped. -/
theorem outstanding_poll :
    (r.poll.1.map SearchResult.job ++ w.outstanding r.poll.2).Subperm (w.outstanding r) := by
  have hkept : (r.poll.1.map SearchResult.job).Sublist (r.inbox.map SearchResult.job) :=
    List.filter_sublist.map _
  refine List.subperm_ext_iff.mpr fun job _ => ?_
  have hle := hkept.count_le job
  have hempty : r.poll.2.inbox = [] := rfl
  simp only [Workers.outstanding, hempty, List.map_nil, List.count_append, List.count_nil]
  omega

/-- A job that is run at once leaves its answer in the inbox, or nothing. -/
theorem run_cases (job : SearchJob) :
    r.run job = r ∨ ∃ a q, a.job = job ∧
      r.run job = { r with inbox := r.inbox ++ [a], requests := r.requests ++ [q] } := by
  unfold run
  split
  · exact .inl rfl
  · split
    · exact .inr ⟨_, _, rfl, rfl⟩
    · exact .inl rfl

/-- **A submitted job is on its way once**, to a worker or, run at once, into the inbox. -/
theorem outstanding_submit (job : SearchJob) :
    ((w.receive r (r.submit job)).outstanding (r.submit job)).Subperm
      (w.outstanding r ++ [job]) := by
  refine List.subperm_ext_iff.mpr fun other _ => ?_
  unfold submit Workers.receive
  by_cases hdeferred : r.deferred = true
  · simp only [hdeferred, if_true, List.drop_left, Workers.outstanding, Workers.taken,
      List.count_append]
    omega
  · rw [if_neg hdeferred]
    -- run at once, the job never waits
    rcases run_cases { r with jobs := r.jobs ++ [job] } job with heq | ⟨a, q, hjob, heq⟩
    · rw [heq, if_neg hdeferred]
      simp only [Workers.outstanding, List.count_append]
      omega
    · rw [heq, if_neg hdeferred]
      simp only [Workers.outstanding, List.map_append, List.map_cons, List.map_nil, hjob,
        List.count_append]
      omega

/-- Submitting a job changes nothing but the jobs, the inbox and the requests. -/
theorem submit_keeps (job : SearchJob) :
    (r.submit job).sequence = r.sequence ∧ (r.submit job).jobs = r.jobs ++ [job] := by
  unfold submit
  dsimp only
  split
  · exact ⟨rfl, rfl⟩
  · rcases run_cases { r with jobs := r.jobs ++ [job] } job with heq | ⟨a, q, _, heq⟩ <;>
      rw [heq] <;> exact ⟨rfl, rfl⟩

/-- What a submitted job leaves in the inbox at once is its own answer. -/
theorem inbox_submit (job : SearchJob) :
    ∃ got : List SearchResult, (r.submit job).inbox = r.inbox ++ got ∧ ∀ a ∈ got, a.job = job := by
  unfold submit
  dsimp only
  split
  · exact ⟨[], (List.append_nil _).symm, nofun⟩
  · rcases run_cases { r with jobs := r.jobs ++ [job] } job with heq | ⟨a, q, hjob, heq⟩
    · rw [heq]
      exact ⟨[], (List.append_nil _).symm, nofun⟩
    · rw [heq]
      refine ⟨[a], rfl, fun b hb => ?_⟩
      rw [List.mem_singleton.mp hb, hjob]

/-- A search makes the earlier ones stale, and submits a job or none. -/
theorem search_cases (table text : Text) :
    (r.search table text).2 = r.cancel ∨
    (r.search table text).2 = r.cancel.submit ⟨r.sequence + 1, table, Text.strip text⟩ := by
  unfold search
  dsimp only
  split
  · exact .inl rfl
  · exact .inr rfl

theorem sequence_search (table text : Text) :
    (r.search table text).2.sequence = r.sequence + 1 := by
  rcases r.search_cases table text with heq | heq
  · rw [heq]
    rfl
  · rw [heq]
    exact (submit_keeps r.cancel _).1

/-- **A search submits one job or none**, and this is all that comes on its way. -/
theorem outstanding_search (table text : Text) :
    ∃ new : List SearchJob,
      (new = [] ∨ new = [⟨r.sequence + 1, table, Text.strip text⟩]) ∧
      (r.search table text).2.jobs = r.jobs ++ new ∧
      ((w.receive r (r.search table text).2).outstanding (r.search table text).2).Subperm
        (w.outstanding r ++ new) := by
  rcases r.search_cases table text with heq | heq
  · rw [heq]
    refine ⟨[], .inl rfl, (List.append_nil _).symm, ?_⟩
    have hwaiting : w.receive r r.cancel = w := by
      unfold Workers.receive
      split
      · simp [cancel]
      · rfl
    rw [hwaiting, List.append_nil]
    exact List.Subperm.refl _
  · rw [heq]
    exact ⟨_, .inr rfl, (submit_keeps r.cancel _).2, outstanding_submit r.cancel w _⟩

/-- What a search leaves in the inbox at once is the answer to its own job. -/
theorem inbox_search (table text : Text) :
    ∃ got : List SearchResult, (r.search table text).2.inbox = r.inbox ++ got ∧
      ∀ a ∈ got, a.job = ⟨r.sequence + 1, table, Text.strip text⟩ := by
  rcases r.search_cases table text with heq | heq
  · rw [heq]
    exact ⟨[], (List.append_nil _).symm, nofun⟩
  · rw [heq]
    exact inbox_submit r.cancel _

end Resolver

end EncodedQuery

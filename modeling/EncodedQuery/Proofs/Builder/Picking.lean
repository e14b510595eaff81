/-
  EncodedQuery.Proofs.Builder.Picking
  ───────────────────────────────────
  **WHAT IS PICKED WAS FOUND FOR THE TEXT IN THE BOX, ONCE THE SEARCH IS OVER.**

  Typing on keeps the candidates of the last answer until the next answer is
  there.  Enter takes the candidate under the cursor in the meantime too, though
  it was found for another text than the one in the box.  As soon as no answer is
  awaited, what Enter takes belongs to the box.

  Sessions are those of `Searching`, with the answers that were delivered so far.

  Main results:
    • `Delivering.lists` — what is listed was found by the last delivered answer,
    • `Delivering.confirms` — what Enter takes, during a search and after it,
    • `confirms_superseded` — a candidate is taken that belongs to no answer for
      the text in the box.
-/
import EncodedQuery.Proofs.Builder.Searching
import EncodedQuery.Proofs.Reference.Listed

namespace EncodedQuery

/-- The picker lists what the last answer found, whatever a builder does to it. -/
theorem ReferencePicker.lists_of_steps {p p' : ReferencePicker} {last : Option SearchResult}
    (h : Relation.ReflTransGen Step p p') (hp : p.Lists last) : p'.Lists last := by
  induction h with
  | refl => exact hp
  | tail _ h ih =>
      cases h with
      | key k => exact ih.update k
      | activate => exact lists_activate _ _
      | deactivate => exact ih.deactivate
      | cancel => exact ih.cancel

namespace Builder

open ReferencePicker (Lists)

/-! ## §1. Delivered answers. -/

/-- The answer is one to the search for what is in the box of the open picker. -/
structure IsAnswered (b : Builder) (a : SearchResult) : Prop where
  /-- A record is asked for. -/
  stage : b.stage = .reference
  /-- It is an answer for the box. -/
  asks : b.reference.Asks a.job
  /-- Its search is the last one. -/
  now : a.sequence = b.reference.resolver.sequence

theorem IsAnswered.of_shown {b b' : Builder} {a : SearchResult} (h : b.IsAnswered a)
    (hs : Shown b b') : b'.IsAnswered a where
  stage := by
    rw [hs.rest]
    exact h.stage
  asks := ⟨hs.active.trans h.asks.active, h.asks.table.trans hs.table.symm,
    h.asks.text.trans (congrArg (fun i : TextInput => Text.strip i.value) hs.input).symm⟩
  now := h.now.trans (congrArg Resolver.sequence hs.resolver).symm

/-- Delivered one after the other, answers are given to the picker, and the last one stays. -/
theorem lists_foldl_deliver : ∀ (answers : List SearchResult) {b : Builder}
    {log : List SearchResult}, (∀ a ∈ answers, b.IsAnswered a) →
      b.reference.Lists log.getLast? →
        (answers.foldl deliver b).reference.Lists (log ++ answers).getLast?
  | [], b, log, _, h => by rwa [List.append_nil]
  | a :: rest, b, log, hall, h => by
      obtain ⟨ha, hrest⟩ := List.forall_mem_cons.mp hall
      have hgiven : b.deliver a = { b with reference := b.reference.handleResult a } := by
        rw [deliver, if_pos ⟨ha.stage, ha.asks.active, ha.asks.table⟩]
      have hlists : (b.deliver a).reference.Lists (log ++ [a]).getLast? := by
        rw [hgiven, List.getLast?_concat]
        exact ReferencePicker.lists_handleResult ha.asks.table ha.asks.text ha.now
      rw [List.append_cons, List.foldl_cons]
      exact lists_foldl_deliver rest (fun c hc => (hrest c hc).of_shown (shown_deliver b a)) hlists

/-- The states that a new builder and its workers get to, with the answers that were delivered. -/
inductive Delivering (table : Table) (settings : Settings) (resolver : Resolver) :
    Builder → Workers → List SearchResult → Prop
  /-- A new builder, and nothing delivered. -/
  | created {now : Instant} {b : Builder} (h : create table settings resolver now = .ok b) :
      Delivering table settings resolver b {} []
  /-- A key; the jobs that it submits wait for workers. -/
  | key {b b' : Builder} {w : Workers} {log : List SearchResult} {now : Instant} {k : Key}
      (hb : Delivering table settings resolver b w log) (h : b.update now k = .ok b') :
      Delivering table settings resolver b'
        (w.receive b.reference.resolver b'.reference.resolver) log
  /-- The answers in the inbox are delivered. -/
  | poll {b : Builder} {w : Workers} {log : List SearchResult}
      (hb : Delivering table settings resolver b w log) :
      Delivering table settings resolver b.poll.2 w (log ++ b.reference.resolver.poll.1)
  /-- A worker does something. -/
  | work {b : Builder} {w w' : Workers} {log : List SearchResult} {e : Workers.Event}
      {r : Resolver} (hb : Delivering table settings resolver b w log)
      (h : Workers.Step b.reference.resolver w e r w') :
      Delivering table settings resolver
        { b with reference := { b.reference with resolver := r } } w' log

section
variable {table : Table} {settings : Settings} {resolver : Resolver} {b : Builder} {w : Workers}
  {log : List SearchResult}

theorem Delivering.searching (h : Delivering table settings resolver b w log) :
    Searching table settings resolver b w := by
  induction h with
  | created h => exact .created h
  | key _ h ih => exact ih.key h
  | poll _ ih => exact ih.poll
  | work _ h ih => exact ih.work h

/-- The answers that are collected are answers for the box. -/
theorem Searching.isAnswered (hnew : resolver.IsNew) (h : Searching table settings resolver b w) :
    ∀ a ∈ b.reference.resolver.poll.1, b.collected.IsAnswered a := by
  intro a ha
  obtain ⟨hinbox, hnow⟩ := List.mem_filter.mp ha
  have hjob : a.job ∈ w.outstanding b.reference.resolver :=
    List.mem_append_right _ (List.mem_append_right _ (List.mem_map_of_mem hinbox))
  have hasks := (h.current hnew a.job hjob).2 (of_decide_eq_true hnow)
  exact ⟨h.reachable.inOrder.coherent.reference.mp hasks.active,
    ⟨hasks.active, hasks.table, hasks.text⟩, of_decide_eq_true hnow⟩

/-- **What is listed was found by the last answer that was delivered.** -/
theorem Delivering.lists (hnew : resolver.IsNew)
    (h : Delivering table settings resolver b w log) : b.reference.Lists log.getLast? := by
  induction h with
  | created h =>
      unfold create at h
      split at h <;> cases h
      exact ReferencePicker.lists_new _ _
  | key hb h ih =>
      have hcoherent := hb.searching.reachable.inOrder.coherent
      exact ReferencePicker.lists_of_steps (moves_key hcoherent h).reference ih
  | @poll b w log hb ih =>
      -- collecting takes answers out of the inbox only; delivering them is what is seen
      have hcollected : b.collected.reference.Lists log.getLast? :=
        ih.of_eq rfl ih.valid rfl rfl rfl rfl (Nat.le_refl _)
      exact lists_foldl_deliver _ (hb.searching.isAnswered hnew) hcollected
  | work hb h ih => exact ih.of_eq rfl ih.valid rfl rfl rfl rfl (Nat.le_of_eq h.sequence.symm)

/-! ## §2. What is picked. -/

/-- The value belongs to a text: it is the text, or the identifier of a candidate that an answer for
exactly this text found in the table. -/
def BelongsTo (log : List SearchResult) (table text value : Text) : Prop :=
  value = text ∨
    ∃ a ∈ log, a.table = table ∧ a.text = text ∧ ∃ d ∈ a.candidates, value = d.identifier

/-- **WHAT ENTER TAKES.**  When a key completes a condition while a record is asked for, that key is
Enter, and the value is the stripped text in the box or the identifier of a candidate of the last
delivered answer, found in the table that the field refers to.  When no answer is awaited, the value
belongs to the text in the box; while one is awaited, that answer is to a superseded search. -/
theorem Delivering.confirms (hnew : resolver.IsNew)
    (h : Delivering table settings resolver b w log) (hs : b.stage = .reference)
    {now : Instant} {k : Key} {c : Condition} (hc : b.completed? now k = some c) :
    ∃ f, b.field = some f ∧ c.field = f ∧ k = .enter ∧
      (b.reference.searching = false →
        BelongsTo log f.reference (Text.strip b.reference.input.value) c.value) ∧
      (b.reference.searching = true →
        c.value = Text.strip b.reference.input.value ∨
          ∃ a ∈ log.getLast?, a.table = f.reference ∧
            a.sequence < b.reference.resolver.sequence ∧
            ∃ d ∈ a.candidates, c.value = d.identifier) := by
  have hcoherent := h.searching.reachable.inOrder.coherent
  have hopen : b.reference.active = true := hcoherent.reference.mpr hs
  obtain ⟨f, hf, htable⟩ := hcoherent.referenceTable hs
  replace htable : b.reference.table = f.reference := htable
  -- the picker closes with a choice, and its value is the one of the condition
  unfold completed? at hc
  split at hc
  next =>
    simp only [stageCondition?, hs] at hc
    split at hc
    next hdone =>
      obtain ⟨f', e, hf', _, rfl⟩ := valueCondition?_eq_some hc
      cases hf.symm.trans hf'
      obtain ⟨henter, hvalue⟩ :=
        (h.lists hnew).of_completed hopen (by simpa using hdone.1) hdone.2
      refine ⟨f, hf, rfl, henter, fun hover => ?_, fun hawaited => ?_⟩
      · rcases hvalue with htyped | ⟨a, ha, hshows, hd⟩
        · exact .inl htyped
        · exact .inr ⟨a, List.mem_of_getLast? ha, hshows.table.trans htable, hshows.text hover, hd⟩
      · rcases hvalue with htyped | ⟨a, ha, hshows, hd⟩
        · exact .inl htyped
        · exact .inr ⟨a, ha, hshows.table.trans htable, hshows.superseded hawaited, hd⟩
    next => cases hc
  next => cases hc

end

/-! ## §3. During a search. -/

/-- Two users. -/
def annLee : Row := Row.ofRecord [("sys_id", .text "u1"), ("name", .text "Ann Lee")]

def annabelPark : Row := Row.ofRecord [("sys_id", .text "u2"), ("name", .text "Annabel Park")]

/-- Searches that find both for `an`, and the second one for anything else; answers are there at
once, but have to be collected. -/
def twoUsers : Resolver :=
  resolverOf {} (some ⟨fun _ r =>
    .ok (if r = Candidate.searchRequest "sys_user" "an" 20 then [annLee, annabelPark]
      else [annabelPark])⟩) false

/-- Enter completes a condition with this value while the box holds this text. -/
def Picks (b : Builder) (text value : Text) : Prop :=
  b.stage = .reference ∧ b.reference.input.value = text ∧
    (b.completed? ides .enter).map Condition.value = some value

instance (b : Builder) (text value : Text) : Decidable (Picks b text value) :=
  inferInstanceAs (Decidable (_ ∧ _ ∧ _))

/-- The answer that waits is the only one, and one for this text. -/
def Waits (b : Builder) (text : Text) : Prop :=
  b.reference.resolver.poll.1.map SearchResult.text = [text]

instance (b : Builder) (text : Text) : Decidable (Waits b text) :=
  inferInstanceAs (Decidable (_ = _))

/-- Typing `an` and collecting the answer leads to a state. -/
theorem exists_delivering_an {p : Builder → Bool}
    (h : ((create oneReference {} twoUsers ides).bind (fun b =>
      b.typeKeys ides [.enter, .enter, .char 'a', .char 'n'])).toOption.any
        (fun b => decide (Waits b "an") && p b.poll.2)) :
    ∃ b w a, Delivering oneReference {} twoUsers b w [a] ∧ a.text = "an" ∧ p b = true := by
  obtain ⟨b, ⟨w, hb⟩, hp⟩ := exists_of_created
    (P := fun b => ∃ w, Delivering oneReference {} twoUsers b w [])
    (fun ⟨_, hb⟩ h => ⟨_, hb.key h⟩) (fun h => ⟨{}, .created h⟩) h
  rw [Bool.and_eq_true, decide_eq_true_eq] at hp
  obtain ⟨a, ha, htext⟩ := List.map_eq_singleton_iff.mp hp.1
  have hpoll := hb.poll
  rw [ha, List.nil_append] at hpoll
  exact ⟨b.poll.2, w, a, hpoll, htext, hp.2⟩

/-- With the answer for `an` there, Enter takes the first candidate for `an`. -/
theorem confirms_an :
    ∃ b w log c f, Delivering oneReference {} twoUsers b w log ∧ b.stage = .reference ∧
      b.completed? ides .enter = some c ∧ c.value = "u1" ∧ b.field = some f ∧
      BelongsTo log f.reference (Text.strip b.reference.input.value) c.value := by
  obtain ⟨b, w, a, hb, _, hp⟩ := exists_delivering_an
    (p := fun b => decide (Picks b "an" "u1") && !b.reference.searching) (by decide +kernel)
  simp only [Bool.and_eq_true, decide_eq_true_eq, Bool.not_eq_true'] at hp
  obtain ⟨⟨hstage, _, hvalue⟩, hover⟩ := hp
  obtain ⟨c, hc, hvalue⟩ := Option.map_eq_some_iff.mp hvalue
  obtain ⟨f, hf, _, _, hbelongs, _⟩ := Delivering.confirms ⟨rfl, rfl, rfl⟩ hb hstage hc
  exact ⟨b, w, [a], c, f, hb, hstage, hc, hvalue, hf, hbelongs hover⟩

/-- **With the search for `annab` under way, Enter takes the first candidate for `an`**: it belongs
to no answer for the text in the box. -/
theorem confirms_superseded :
    ∃ b w log c f, Delivering oneReference {} twoUsers b w log ∧ b.stage = .reference ∧
      b.completed? ides .enter = some c ∧ b.field = some f ∧
      ¬ BelongsTo log f.reference (Text.strip b.reference.input.value) c.value := by
  obtain ⟨b₁, w₁, a, hb₁, htext, hp⟩ := exists_delivering_an
    (p := fun b => (b.typeKeys ides [.char 'n', .char 'a', .char 'b']).toOption.any
      (fun b => decide (Picks b "annab" "u1") && b.field.isSome)) (by decide +kernel)
  obtain ⟨b, ⟨w, hb⟩, hp⟩ := exists_of_typeKeys
    (P := fun b => ∃ w, Delivering oneReference {} twoUsers b w [a])
    (fun ⟨_, hb⟩ h => ⟨_, hb.key h⟩) ⟨w₁, hb₁⟩ hp
  simp only [Bool.and_eq_true, decide_eq_true_eq] at hp
  obtain ⟨⟨hstage, hinput, hvalue⟩, hfield⟩ := hp
  obtain ⟨c, hc, hvalue⟩ := Option.map_eq_some_iff.mp hvalue
  obtain ⟨f, hf⟩ := Option.isSome_iff_exists.mp hfield
  refine ⟨b, w, [a], c, f, hb, hstage, hc, hf, ?_⟩
  rw [hinput, hvalue]
  -- `u1` is not the text in the box, and the only answer is one for `an`
  rintro (heq | ⟨a', ha', _, heq, _⟩)
  · exact absurd heq (by decide)
  · rw [List.mem_singleton.mp ha', htext] at heq
    exact absurd heq (by decide)

end Builder

end EncodedQuery

/-
  EncodedQuery.Proofs.Saved.History
  ─────────────────────────────────
  **WHAT A RUN TELLS OF SAVED FILTERS.**

  Calls on a store without a file, one after the other, at later and later
  readings of a clock.  What is stored in the end can be told from the calls
  alone:

    • `Lives es f` — `f` was saved, and no later call deleted it or saved
      another under its name and table, where a save that is refused saves
      nothing,
    • `Draft.recorded` — it is as it was saved, with the uses since then, and
      a favourite if it was last marked as one.

  One more call does to the filters that live what it does to those in a file.

  Identifiers differ because the readings do.  The counts of uses stay small
  enough to be written because a run takes at least a second for every call, and
  the calendar ends.

  Main results: `lives_concat_iff`, `Lives.isTimed`, `Lives.isWritable`.
-/
import EncodedQuery.Proofs.Saved.Order
import EncodedQuery.Proofs.Saved.Run
import Mathlib.Data.List.Induction

namespace EncodedQuery.StoreFile

/-! ## §1. Runs. -/

/-- A call, and what the clock says when it is made. -/
structure Event where
  /-- The reading of the clock. -/
  now : Instant
  /-- The call. -/
  call : Call

/-- The file after a call; one that fails leaves it alone. -/
def after (file : StoreFile) (e : Event) : StoreFile :=
  match file.perform e.now e.call with
  | .ok file' => file'
  | .error _ => file

/-- The file after calls on a store without one. -/
def replay (es : List Event) : StoreFile := es.foldl after .missing

/-- The clock is read in whole seconds after the start of 1970, later at every call. -/
structure Clocked (es : List Event) : Prop where
  /-- The readings are whole seconds. -/
  isReading : ∀ e ∈ es, e.now.IsReading
  /-- They grow. -/
  increasing : es.Pairwise (fun a b => a.now.epochSeconds < b.now.epochSeconds)

/-! ## §2. What the calls tell. -/

/-- When the filter was used, if it was. -/
def Event.use? (id : Text) (e : Event) : Option Instant :=
  match e.call with
  | .markUsed used => if used = id then some e.now else none
  | _ => none

/-- Whether it was made a favourite or an ordinary one, if it was made either. -/
def Event.favorite? (id : Text) (e : Event) : Option Bool :=
  match e.call with
  | .setFavorite changed favorite => if changed = id then some favorite else none
  | _ => none

/-- The call deletes the filter that was saved as `d`, or saves another in its place; a call that is
refused does neither. -/
def Event.Ends (id : Text) (d : Draft) (e : Event) : Prop :=
  match e.call with
  | .delete deleted => deleted = id
  | .save d' => d'.isAccepted = true ∧ d'.name = d.name ∧ d'.table = d.table
  | _ => False

/-- The conditions that are saved. -/
def Event.conditions (e : Event) : List Json :=
  match e.call with
  | .save d => d.conditions
  | _ => []

instance (id : Text) (d : Draft) (e : Event) : Decidable (e.Ends id d) := by
  unfold Event.Ends
  split <;> infer_instance

/-- The filter that was saved as `d`, after the calls since then. -/
def Draft.recorded (d : Draft) (now : Instant) (later : List Event) : SavedFilter :=
  { id := freshId now
    name := .text d.name
    table := .text d.table
    query := .text d.query
    description := .text d.description
    conditions := d.conditions
    createdAt := now
    lastUsed := (later.filterMap (Event.use? (freshId now))).getLast?.map fun t => { clock := t }
    useCount := (later.filterMap (Event.use? (freshId now))).length
    isFavorite := (later.filterMap (Event.favorite? (freshId now))).getLast?.getD d.isFavorite }

/-- **The filter was saved, and neither deleted nor replaced since then.** -/
def Lives (es : List Event) (f : SavedFilter) : Prop :=
  ∃ earlier now d later, es = earlier ++ ⟨now, .save d⟩ :: later ∧ d.isAccepted = true ∧
    (∀ e ∈ later, ¬ e.Ends (freshId now) d) ∧ f = d.recorded now later

/-! ## §3. One more call. -/

section Step

variable {es : List Event} {e : Event} {f : SavedFilter} {d : Draft} {now : Instant}

theorem replay_concat (es : List Event) (e : Event) : replay (es ++ [e]) = (replay es).after e :=
  List.foldl_append ..

theorem Draft.recorded_nil (d : Draft) (now : Instant) : d.recorded now [] = d.saved now := rfl

/-- What is recorded of one more call is what the call makes of the filter. -/
theorem Draft.recorded_concat (d : Draft) (now : Instant) (later : List Event) (e : Event) :
    d.recorded now (later ++ [e]) = e.call.update e.now (d.recorded now later) := by
  obtain ⟨t, c⟩ := e
  cases c with
  | save d' => simp [recorded, Event.use?, Event.favorite?, Call.update]
  | delete id => simp [recorded, Event.use?, Event.favorite?, Call.update]
  | markUsed id =>
      by_cases hid : freshId now = id
      · simp [recorded, Event.use?, Event.favorite?, Call.update, used, hid]
      · have hid' : id ≠ freshId now := fun h => hid h.symm
        simp [recorded, Event.use?, Event.favorite?, Call.update, hid, hid']
  | setFavorite id favorite =>
      by_cases hid : freshId now = id
      · simp [recorded, Event.use?, Event.favorite?, Call.update, marked, hid]
      · have hid' : id ≠ freshId now := fun h => hid h.symm
        simp [recorded, Event.use?, Event.favorite?, Call.update, hid, hid']

/-- A call drops a filter exactly if it ends it. -/
theorem drops_recorded_iff (later : List Event) :
    e.call.drops (d.recorded now later) = true ↔ e.Ends (freshId now) d := by
  obtain ⟨t, c⟩ := e
  cases c with
  | save d' =>
      have hname : (Json.text d.name).isText d'.name = decide (d.name = d'.name) := rfl
      have htable : (Json.text d.table).isText d'.table = decide (d.table = d'.table) := rfl
      simp only [Call.drops, Draft.recorded, Event.Ends, hname, htable, Bool.and_eq_true,
        decide_eq_true_eq]
      rw [eq_comm (a := d.name), eq_comm (a := d.table)]
  | delete id => exact decide_eq_true_iff.trans eq_comm
  | markUsed id => exact iff_of_false Bool.false_ne_true not_false
  | setFavorite id favorite => exact iff_of_false Bool.false_ne_true not_false

/-- **The filters that live after one more call** are those that it keeps, as it updates them, and
those that it adds. -/
theorem lives_concat_iff : Lives (es ++ [e]) f ↔
    (∃ f₀, Lives es f₀ ∧ e.call.drops f₀ = false ∧ e.call.update e.now f₀ = f) ∨
      f ∈ e.call.adds e.now := by
  constructor
  · rintro ⟨earlier, now, d, later, heq, hd, hends, rfl⟩
    obtain rfl | ⟨later, last, rfl⟩ := List.eq_nil_or_concat' later
    · -- the filter was saved by this call
      obtain ⟨-, hlast⟩ := List.append_inj' heq rfl
      cases hlast
      exact .inr (Call.mem_adds_iff.mpr ⟨d, rfl, hd, d.recorded_nil now⟩)
    · -- it was saved before
      rw [← List.cons_append, ← List.append_assoc] at heq
      obtain ⟨rfl, hlast⟩ := List.append_inj' heq rfl
      cases hlast
      obtain ⟨hlater, hend⟩ := List.forall_mem_append.mp hends
      refine .inl ⟨d.recorded now later, ⟨earlier, now, d, later, rfl, hd, hlater, rfl⟩, ?_, ?_⟩
      · rw [Bool.eq_false_iff, ne_eq, drops_recorded_iff later]
        exact hend e (List.mem_singleton_self e)
      · exact (d.recorded_concat now later e).symm
  · rintro (⟨f₀, ⟨earlier, now, d, later, rfl, hd, hends, rfl⟩, hkeep, rfl⟩ | hadds)
    · refine ⟨earlier, now, d, later ++ [e], by simp, hd, ?_, (d.recorded_concat now later e).symm⟩
      refine List.forall_mem_append.mpr ⟨hends, fun e' he' => ?_⟩
      rw [List.mem_singleton.mp he', ← drops_recorded_iff later, hkeep]
      nofun
    · obtain ⟨d, hcall, hd, rfl⟩ := Call.mem_adds_iff.mp hadds
      exact ⟨es, e.now, d, [], by rw [← hcall], hd, nofun, rfl⟩

end Step

/-! ## §4. The clock. -/

variable {es : List Event} {e : Event} {f : SavedFilter}

theorem Clocked.of_concat (h : Clocked (es ++ [e])) : Clocked es :=
  ⟨fun e' he' => h.isReading e' (List.mem_append_left _ he'),
    (List.pairwise_append.mp h.increasing).1⟩

/-- Every reading is before the next one. -/
theorem Clocked.lt_last (h : Clocked (es ++ [e])) :
    ∀ e' ∈ es, e'.now.epochSeconds < e.now.epochSeconds := fun e' he' =>
  (List.pairwise_append.mp h.increasing).2.2 e' he' e (List.mem_singleton_self e)

theorem Clocked.isReading_last (h : Clocked (es ++ [e])) : e.now.IsReading :=
  h.isReading e (List.mem_append_right _ (List.mem_singleton_self e))

/-- The calendar ends less than a million million seconds after the start of 1970. -/
theorem epochSeconds_lt (t : Instant) : t.epochSeconds < 1000000000000 := by
  have hday : t.date.ordinal ≤ 3652059 := t.date.ordinal_le
  have htime := t.isTime
  unfold IsTime at htime
  unfold Instant.epochSeconds
  omega

/-- A run takes at least a second for every call. -/
theorem Clocked.length_le (h : Clocked (es ++ [e])) : (es.length : Int) < e.now.epochSeconds := by
  induction es using List.reverseRecOn generalizing e with
  | nil => exact h.isReading_last.epochSeconds_pos
  | append_singleton es previous ih =>
      have hprevious : (es.length : Int) < previous.now.epochSeconds := ih h.of_concat
      have hlast : previous.now.epochSeconds < e.now.epochSeconds :=
        h.lt_last previous (List.mem_append_right _ (List.mem_singleton_self previous))
      rw [List.length_append, List.length_singleton]
      omega

theorem Clocked.length_lt (h : Clocked es) : es.length < 1000000000000 := by
  obtain rfl | ⟨es, e, rfl⟩ := List.eq_nil_or_concat' es
  · decide
  · have hlength : (es.length : Int) < e.now.epochSeconds := h.length_le
    have hlast : e.now.epochSeconds < 1000000000000 := epochSeconds_lt e.now
    rw [List.length_append, List.length_singleton]
    omega

/-- Different readings give different identifiers. -/
theorem epochSeconds_of_freshId {a b : Instant} (ha : 0 < a.epochSeconds) (hb : 0 < b.epochSeconds)
    (h : freshId a = freshId b) : a.epochSeconds = b.epochSeconds := by
  have hdigits : ∀ t : Instant, 0 < t.epochSeconds →
      Text.digitsValue (freshId t) = (t.epochSeconds * 1000000000).natAbs := by
    intro t ht
    have hsign : ¬ t.epochSeconds * 1000000000 < 0 := by omega
    rw [freshId, Text.ofInt_eq, if_neg hsign]
    exact Text.digitsValue_ofNat _
  have hvalue : (a.epochSeconds * 1000000000).natAbs = (b.epochSeconds * 1000000000).natAbs := by
    rw [← hdigits a ha, ← hdigits b hb, h]
  omega

/-! ## §5. Filters that live. -/

theorem not_lives_nil : ¬ Lives [] f := by
  rintro ⟨earlier, now, d, later, heq, -⟩
  cases earlier <;> cases heq

/-- It was created when a call was made, and is known by that time. -/
theorem Lives.exists_createdAt (h : Lives es f) :
    ∃ e ∈ es, f.createdAt = e.now ∧ f.id = freshId e.now := by
  obtain ⟨earlier, now, d, later, rfl, _, _, rfl⟩ := h
  exact ⟨⟨now, .save d⟩, List.mem_append_right _ (List.mem_cons_self ..), rfl, rfl⟩

/-- So was it used. -/
theorem Lives.exists_lastUsed {s : Stamp} (h : Lives es f) (hs : f.lastUsed = some s) :
    ∃ e ∈ es, s = e.now := by
  obtain ⟨earlier, now, d, later, rfl, _, _, rfl⟩ := h
  obtain ⟨t, ht, rfl⟩ := Option.map_eq_some_iff.mp hs
  obtain ⟨e, he, huse⟩ := List.mem_filterMap.mp (List.mem_of_getLast? ht)
  refine ⟨e, List.mem_append_right _ (List.mem_cons_of_mem _ he), ?_⟩
  refine congrArg (fun t : Instant => (t : Stamp)) (Eq.symm ?_)
  unfold Event.use? at huse
  split at huse
  · split at huse
    · exact Option.some.inj huse
    · cases huse
  · cases huse

theorem Lives.isTimed (hes : Clocked es) (h : Lives es f) : f.IsTimed := by
  intro s hs
  have hevent : ∃ e ∈ es, s = e.now := by
    obtain rfl | hused := List.mem_cons.mp hs
    · obtain ⟨e, he, hcreated, -⟩ := h.exists_createdAt
      exact ⟨e, he, hcreated⟩
    · exact h.exists_lastUsed (Option.mem_toList.mp hused)
  obtain ⟨e, he, rfl⟩ := hevent
  exact ⟨e.now, hes.isReading e he, rfl⟩

/-- A call counts one use at most. -/
theorem Lives.useCount_le (h : Lives es f) : f.useCount.natAbs ≤ es.length := by
  obtain ⟨earlier, now, d, later, rfl, _, _, rfl⟩ := h
  have huses : (later.filterMap (Event.use? (freshId now))).length ≤ later.length :=
    List.length_filterMap_le _ _
  rw [List.length_append, List.length_cons]
  show ((later.filterMap (Event.use? (freshId now))).length : Int).natAbs ≤ _
  omega

theorem Lives.isWritable_useCount (hes : Clocked es) (h : Lives es f) :
    Number.isWritable f.useCount = true := by
  have hlength : es.length < Number.tenTo 12 := hes.length_lt
  exact Number.isWritable_of_lt_tenTo (by decide) (Nat.lt_of_le_of_lt h.useCount_le hlength)

/-- What lives can be written. -/
theorem Lives.isWritable (hes : Clocked es) (h : Lives es f) : f.IsWritable := by
  have hcount := h.isWritable_useCount hes
  obtain ⟨earlier, now, d, later, rfl, hd, _, rfl⟩ := h
  obtain ⟨-, hsaved⟩ := (Draft.isAccepted_iff now).mp hd
  exact { hsaved with useCount := hcount }

/-- Its text is read back from the file if its conditions are. -/
theorem Lives.isReadable {room : Nat} (hes : Clocked es) (h : Lives es f)
    (hconditions : ∀ e ∈ es, ∀ v ∈ e.conditions, Json.Readable room v) : f.IsReadable room := by
  have hcount := h.isWritable_useCount hes
  obtain ⟨earlier, now, d, later, rfl, _, _, rfl⟩ := h
  have hsaved : (⟨now, .save d⟩ : Event) ∈ earlier ++ ⟨now, .save d⟩ :: later :=
    List.mem_append_right _ (List.mem_cons_self ..)
  exact ⟨.text, .text, .text, .text, hconditions _ hsaved, hcount⟩

end EncodedQuery.StoreFile

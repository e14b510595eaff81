/-
  EncodedQuery.Proofs.Builder.Saving
  ──────────────────────────────────
  **A SESSION CAN BE SAVED.**

  What a builder has committed is described, written to the file of a store and
  read back, in every state and not only in the last one.  A file is of characters,
  though, and a field may hold half of a surrogate pair, in its default value say,
  which nobody sees.  A session with a condition on such a field is described and
  read back, but no file can be written with it.

  Main result: `Reachable.survives_saving`.
-/
import EncodedQuery.Proofs.Builder.Ranges
import EncodedQuery.Proofs.Saved.Run

namespace EncodedQuery.Builder

open StoreFile

/-- The operators on offer are of characters. -/
theorem isEncodable_operator {table : Table} {c : Condition} (h : table.Accepts c) :
    c.operator.isEncodable = true := by
  have hall : ∀ e ∈ OperatorEntry.offered (some c.field.type), e.token.isEncodable = true := by
    cases c.field.type <;> decide +kernel
  obtain ⟨e, he, heq⟩ := h.operator
  rw [heq]
  exact hall e he

/-- The call that saves the session, in a store without a file, and writes the file. -/
def saving (b : Builder) (now : Instant) (name table : Text) :
    Except Fault (SavedFilter × StoreFile) :=
  StoreFile.save .missing now name table b.query [] b.conditions.toJson >>= settle .missing

/-- All that is saved with the session can be written: the names are of characters, and so is all
that is said of the conditions and their fields, where no number is too long. -/
def CanBeSaved (b : Builder) (name table : Text) : Prop :=
  name.isEncodable = true ∧ table.isEncodable = true ∧
    ∀ c ∈ b.conditions.conditions, c.field.IsWritable ∧ c.value.isEncodable = true

/-- What is saved with a session. -/
def sessionDraft (b : Builder) (name table : Text) : StoreFile.Draft where
  name
  table
  query := b.query
  conditions := b.conditions.toJson

/-- It is written exactly if the session can be saved; the query is then of characters as well. -/
theorem Reachable.isWritable_saved_iff {table : Table} {settings : Settings} {resolver : Resolver}
    {b : Builder} (h : Reachable table settings resolver b) (now : Instant)
    (name tableName : Text) :
    ((b.sessionDraft name tableName).saved now).IsWritable ↔ b.CanBeSaved name tableName := by
  have hconditions : (∀ v ∈ b.conditions.toJson, v.Writable) ↔
      ∀ c ∈ b.conditions.conditions, c.IsWritable := by
    rw [Chain.toJson, List.forall_mem_map]
    exact forall₂_congr fun c hc => Condition.writable_toJson_iff (h.onNamed c hc)
  have hoperator : ∀ c ∈ b.conditions.conditions, c.operator.isEncodable = true :=
    fun c hc => isEncodable_operator (h.inOrder.sound.committed c hc)
  rw [StoreFile.Draft.saved, sessionDraft, isWritable_newFilter_iff, hconditions]
  simp only [List.forall_mem_cons, List.not_mem_nil, false_implies, implies_true, and_true,
    Text.isEncodable_nil]
  -- the operators are those on offer, so nothing is asked of them
  constructor
  · rintro ⟨⟨hname, htable, -⟩, hwritable⟩
    exact ⟨hname, htable, fun c hc => ⟨(hwritable c hc).field, (hwritable c hc).value⟩⟩
  · rintro ⟨hname, htable, hcan⟩
    have hwritable : ∀ c ∈ b.conditions.conditions, c.IsWritable :=
      fun c hc => ⟨(hcan c hc).1, hoperator c hc, (hcan c hc).2⟩
    exact ⟨⟨hname, htable, Chain.isEncodable_encodeList hwritable⟩, hwritable⟩

/-- Saving under a name that is not blank settles on what is saved. -/
theorem saving_eq (b : Builder) (now : Instant) {name : Text} (hname : Text.strip name ≠ [])
    (tableName : Text) :
    b.saving now name tableName = settle .missing ((b.sessionDraft name tableName).saved now,
      some (ofFilters now [(b.sessionDraft name tableName).saved now])) := by
  have hsave : StoreFile.save .missing now name tableName b.query [] b.conditions.toJson =
      .ok ((b.sessionDraft name tableName).saved now,
        some (ofFilters now [(b.sessionDraft name tableName).saved now])) :=
    Holds.missing.save_eq (d := b.sessionDraft name tableName) now hname
  simp only [saving, hsave, bind, Except.bind]

/-- What is saved can be read where there is room for the descriptions of its fields. -/
theorem Reachable.isReadable_saved {table : Table} {settings : Settings} {resolver : Resolver}
    {b : Builder} (h : Reachable table settings resolver b) (now : Instant) (name tableName : Text)
    (hcan : b.CanBeSaved name tableName) (room : Nat) :
    ((b.sessionDraft name tableName).saved now).IsReadable (room + 4) := by
  refine ⟨.text, .text, .text, .text, ?_, ?_⟩
  · intro v hv
    obtain ⟨c, hc, rfl⟩ := List.mem_map.mp hv
    exact Condition.readable_toJson (h.onNamed c hc) (hcan.2.2 c hc).1.maxLength room
  · exact Number.isWritable_of_lt (n := 0) (by decide)

/-- **A session survives saving.**  In every state that a new builder gets to, the committed
conditions are read back from their descriptions.  Saved under a name that is not blank, in a store
without a file, they are found under the identifier of the filter, and the chain that they give is
the committed one, whose query is the stored one; and the text of the file is read back, by a reader
that follows eight containers into each other or more.  This needs what is saved to be of
characters, and its numbers not to be too long, and only this: otherwise saving fails. -/
theorem Reachable.survives_saving {table : Table} {settings : Settings} {resolver : Resolver}
    {b : Builder} (h : Reachable table settings resolver b) (now : Instant) {name : Text}
    (hname : Text.strip name ≠ []) (tableName : Text) :
    Chain.ofItems b.conditions.toJson = .ok b.conditions ∧
    (b.CanBeSaved name tableName →
      ∃ saved file, b.saving now name tableName = .ok (saved, file) ∧
        (∀ now', ∃ f s, file.get now' saved.id = .ok (some f) ∧ f.chain = .ok s ∧
          s = b.conditions ∧ f.query = .text s.encode) ∧
        ∀ room, StoreFile.ofContent file.content? (room + 8) = file) ∧
    (¬ b.CanBeSaved name tableName → Fails (b.saving now name tableName)) := by
  have hwritable := h.isWritable_saved_iff now name tableName
  have hreadable := h.isReadable_saved now name tableName
  rw [saving_eq b now hname tableName]
  generalize hsaved : (b.sessionDraft name tableName).saved now = saved at hwritable hreadable
  refine ⟨h.ofItems_toJson, fun hcan => ⟨saved, ofFilters now [saved], ?_, fun now' => ?_,
    fun room => ?_⟩, fun hcannot => ?_⟩
  · rw [settle, written_ofFilters now (by simpa using hwritable.mpr hcan)]
    rfl
  · -- the file holds this one filter, and getting it takes nothing of its conditions away
    refine ⟨saved, b.conditions, ?_, ?_, rfl, ?_⟩
    · rw [StoreFile.get, filters_ofFilters]
      simp [pure, Except.pure, bind, Except.bind]
    · rw [← hsaved]
      exact h.ofItems_toJson
    · rw [← hsaved]
      rfl
  · refine ofContent_ofFilters now (room + 4) fun f hf => ?_
    rw [List.mem_singleton.mp hf]
    exact (hreadable hcan room).toJson
  · have hunwritable : ¬ ∀ f ∈ [saved], f.IsWritable := by
      simpa using fun hsaved => hcannot (hwritable.mp hsaved)
    obtain ⟨f, hfault⟩ := fails_written_ofFilters now hunwritable
    rw [settle, hfault]
    exact fails_error f

/-- The keys for a range that is named: today. -/
def todayKeys : List Key :=
  [.enter, .down, .down, .down, .down, .enter, .char 'p', .enter]

/-- The query that they lead to in the middle of March 2024. -/
def todayQuery : Text :=
  "due_dateBETWEENjavascript:gs.dateGenerate('2024-03-15 00:00:00','2024-03-15 23:59:59')"

/-- A day in March 2024 is saved as a range and read back from the text of the file. -/
theorem survives_saving_today :
    ∃ b, Reachable oneDay {} noSearches b ∧
      b.query = todayQuery ∧
      ∃ saved file, b.saving ides "today" "incident" = .ok (saved, file) ∧
        StoreFile.ofContent file.content? 8 = file ∧
        ∃ f, file.get doomsday saved.id = .ok (some f) ∧ f.chain = .ok b.conditions := by
  obtain ⟨b, hb, htest⟩ := exists_reachable oneDay {} noSearches ides todayKeys
    (fun b => decide (b.query = todayQuery) &&
      b.conditions.conditions.all (fun c => c.value.isEncodable))
    (by decide +kernel)
  rw [Bool.and_eq_true, decide_eq_true_eq, List.all_eq_true] at htest
  obtain ⟨hquery, hvalues⟩ := htest
  have hfield : ∀ f ∈ oneDay.fields, f.IsWritable := by
    intro f hf
    rw [List.mem_singleton.mp hf]
    exact ⟨by decide, by decide, by decide, nofun, by decide, by decide,
      Number.isWritable_of_lt (n := 0) (by decide)⟩
  have hcan : b.CanBeSaved "today" "incident" := by
    refine ⟨by decide, by decide, fun c hc => ⟨hfield _ ?_, hvalues c hc⟩⟩
    have haccepts := hb.inOrder.sound.committed c hc
    rw [show b.core.table = oneDay from hb.inOrder.table] at haccepts
    exact haccepts.field
  obtain ⟨-, hsaves, -⟩ :=
    hb.survives_saving ides (show Text.strip "today" ≠ [] by decide) "incident"
  obtain ⟨saved, file, hsaving, hget, htext⟩ := hsaves hcan
  obtain ⟨f, s, hf, hs, rfl, -⟩ := hget doomsday
  exact ⟨b, hb, hquery, saved, file, hsaving, htext 0, f, hf, hs⟩

/-- The same table, but half of a surrogate pair stands in the default value of its field. -/
def halfDay : Table :=
  ⟨"incident", [{ name := "due_date", label := "Due", type := .date, defaultValue := [.half 0] }]⟩

/-- The same session on this table is not saved, though its query is the same. -/
theorem fails_saving_halfDay :
    ∃ b, Reachable halfDay {} noSearches b ∧
      b.query = todayQuery ∧
      b.saving ides "today" "incident" = .error .unencodable := by
  obtain ⟨b, hb, htest⟩ := exists_reachable halfDay {} noSearches ides todayKeys
    (fun b => decide (b.query = todayQuery) &&
      match b.saving ides "today" "incident" with
      | .error .unencodable => true
      | _ => false)
    (by decide +kernel)
  rw [Bool.and_eq_true, decide_eq_true_eq] at htest
  obtain ⟨hquery, hfault⟩ := htest
  refine ⟨b, hb, hquery, ?_⟩
  split at hfault
  next h => exact h
  next => cases hfault

end EncodedQuery.Builder

/-
  EncodedQuery.Proofs.Saved.Map
  ─────────────────────────────
  **THE STORE IS A MAP OVER WHOLE RUNS.**

  `Mirrors` is the invariant of a run: the stored filters are those that live,
  each once, with identifiers and pairs of name and table of their own.  One call
  keeps it (`Mirrors.edit`), and so does a run (`Clocked.exists_mirrors`).  The
  answers of the store follow from it.

  Main results: `Clocked.exists_mirrors`, `Clocked.fails_perform_iff`,
  `Clocked.replay_spec`.
-/
import EncodedQuery.Proofs.Saved.History
import Mathlib.Data.List.Nodup

namespace EncodedQuery.StoreFile

variable {es : List Event} {e : Event} {f : SavedFilter} {fs : List SavedFilter} {file : StoreFile}

/-! ## §1. The invariant. -/

/-- The stored filters are those that live, each once; they differ in their identifiers and in
their names or tables. -/
structure Mirrors (es : List Event) (fs : List SavedFilter) : Prop where
  /-- They are those that live. -/
  mem_iff : ∀ f, f ∈ fs ↔ Lives es f
  /-- Their identifiers are different. -/
  ids : (fs.map (fun f => f.id)).Nodup
  /-- So are their names or tables. -/
  names : (fs.map (fun f => (f.name, f.table))).Nodup

theorem mirrors_nil : Mirrors [] [] :=
  ⟨fun _ => iff_of_false List.not_mem_nil not_lives_nil, List.nodup_nil, List.nodup_nil⟩

/-- **One more call keeps the invariant.** -/
theorem Mirrors.edit (h : Mirrors es fs) (hes : Clocked (es ++ [e])) :
    Mirrors (es ++ [e]) (e.call.edit e.now fs) where
  mem_iff f := by
    rw [Call.mem_edit_iff, lives_concat_iff]
    simp only [h.mem_iff]
  ids := by
    refine Call.nodup_map_edit (Call.update_id e.now e.call) (fun f hf _ g hg hid => ?_) h.ids
    -- an old filter was created before this call
    have hlives : Lives es f := (h.mem_iff f).mp hf
    obtain ⟨e', he', -, hcreated⟩ := hlives.exists_createdAt
    obtain ⟨d, _, _, rfl⟩ := Call.mem_adds_iff.mp hg
    have hearlier : e'.now.epochSeconds < e.now.epochSeconds := hes.lt_last e' he'
    have hsame : e'.now.epochSeconds = e.now.epochSeconds := by
      refine epochSeconds_of_freshId (hes.of_concat.isReading e' he').epochSeconds_pos
        hes.isReading_last.epochSeconds_pos ?_
      rw [← hcreated, hid]
      rfl
    omega
  names := by
    have hframe : ∀ f : SavedFilter, ((e.call.update e.now f).name, (e.call.update e.now f).table) =
        (f.name, f.table) := fun f => by rw [Call.update_name, Call.update_table]
    refine Call.nodup_map_edit hframe (fun f _ hkeep g hg hname => ?_) h.names
    -- a filter with the new one's name and table is not kept
    obtain ⟨d, hcall, hd, rfl⟩ := Call.mem_adds_iff.mp hg
    obtain ⟨hname, htable⟩ := Prod.mk.inj hname
    have hdrops : e.call.drops f = true := by
      rw [hcall, Call.drops, hd, Json.isText_eq_true_iff.mpr hname,
        Json.isText_eq_true_iff.mpr htable]
      rfl
    rw [hdrops] at hkeep
    cases hkeep

theorem Mirrors.writable (h : Mirrors es fs) (hes : Clocked es) : Writable fs := fun f hf =>
  ((h.mem_iff f).mp hf).isWritable hes

/-- A call edits the filters of the file, or is refused and leaves them as they are. -/
theorem Holds.after (h : file.Holds fs) (hfs : Writable (e.call.edit e.now fs)) :
    (file.after e).Holds (e.call.edit e.now fs) := by
  unfold StoreFile.after
  cases haccepted : e.call.isAccepted with
  | true =>
      obtain ⟨file', hperform, hholds⟩ := h.perform haccepted hfs
      rw [hperform]
      exact hholds
  | false =>
      obtain ⟨fault, hfault⟩ := h.fails_perform e.now haccepted
      rw [hfault, Call.edit_refused haccepted]
      exact h

/-- **A whole run keeps the invariant**: the file holds the filters that live. -/
theorem Clocked.exists_mirrors (hes : Clocked es) : ∃ fs, (replay es).Holds fs ∧ Mirrors es fs := by
  induction es using List.reverseRecOn with
  | nil => exact ⟨[], .missing, mirrors_nil⟩
  | append_singleton es e ih =>
      obtain ⟨fs, hholds, hmirrors⟩ := ih hes.of_concat
      have hedited : Mirrors (es ++ [e]) (e.call.edit e.now fs) := hmirrors.edit hes
      refine ⟨e.call.edit e.now fs, ?_, hedited⟩
      rw [replay_concat]
      exact hholds.after (hedited.writable hes)

/-- **Only a save that is not accepted fails**, at any time of a run. -/
theorem Clocked.fails_perform_iff (hes : Clocked (es ++ [e])) :
    Fails ((replay es).perform e.now e.call) ↔ e.call.isAccepted = false := by
  obtain ⟨fs, hholds, hmirrors⟩ := hes.of_concat.exists_mirrors
  cases haccepted : e.call.isAccepted with
  | true =>
      have hwritable : Writable (e.call.edit e.now fs) := (hmirrors.edit hes).writable hes
      obtain ⟨file', hperform, -⟩ := hholds.perform haccepted hwritable
      rw [hperform]
      exact iff_of_false (not_fails_ok file') nofun
  | false => exact iff_of_true (hholds.fails_perform e.now haccepted) rfl

/-! ## §2. Questions. -/

/-- The filter is on the table, if there is one: an empty text stands for all tables. -/
def IsOn (table : Option Text) (f : SavedFilter) : Prop :=
  ∀ t, table = some t → t ≠ [] → f.table = .text t

theorem Holds.get (h : file.Holds fs) (now : Instant) (id : Text) :
    file.get now id = .ok (fs.find? (fun f => f.id = id)) := by
  unfold StoreFile.get
  rw [h.filters now]
  rfl

/-- Where identifiers differ, the first filter with an identifier is the only one. -/
theorem find?_eq_some_iff {id : Text} (hids : (fs.map (fun f => f.id)).Nodup) :
    fs.find? (fun f => f.id = id) = some f ↔ f ∈ fs ∧ f.id = id := by
  have hfound : ∀ g, fs.find? (fun f => f.id = id) = some g → g ∈ fs ∧ g.id = id := fun g hg =>
    ⟨List.mem_of_find?_eq_some hg, by simpa using List.find?_some hg⟩
  constructor
  · exact hfound f
  · rintro ⟨hf, hid⟩
    have hsome : (fs.find? (fun f => f.id = id)).isSome = true :=
      List.find?_isSome.mpr ⟨f, hf, decide_eq_true hid⟩
    obtain ⟨g, hg⟩ := Option.isSome_iff_exists.mp hsome
    obtain ⟨hgmem, hgid⟩ := hfound g hg
    have hsame : g = f := List.inj_on_of_nodup_map hids hgmem hf (hgid.trans hid.symm)
    rw [hg, hsame]

/-- A list is made of the filters of its table, which are sorted if they have a place. -/
theorem Holds.exists_chosen (h : file.Holds fs) (now : Instant) (table : Option Text) :
    ∃ chosen : List SavedFilter, chosen.Sublist fs ∧ (∀ f, f ∈ chosen ↔ f ∈ fs ∧ IsOn table f) ∧
      (chosen.all SavedFilter.hasPlace = true →
        file.list now table = .ok (chosen.mergeSort SavedFilter.precedes)) := by
  unfold StoreFile.list
  simp only [h.filters now, bind, Except.bind]
  have hall : (∀ t, table = some t → t = []) → ∀ f, f ∈ fs ↔ f ∈ fs ∧ IsOn table f :=
    fun hnone f => ⟨fun hf => ⟨hf, fun t ht hne => absurd (hnone t ht) hne⟩, And.left⟩
  cases table with
  | none =>
      refine ⟨fs, List.Sublist.refl fs, hall nofun, fun hplace => ?_⟩
      rw [if_pos hplace]
      rfl
  | some t =>
      by_cases ht : t = []
      · have hempty : ∀ t', some t = some t' → t' = [] := fun _ heq => Option.some.inj heq ▸ ht
        refine ⟨fs, List.Sublist.refl fs, hall hempty, fun hplace => ?_⟩
        simp only [ht, List.isEmpty_nil, if_true, hplace]
        rfl
      · refine ⟨fs.filter (fun f => f.table.isText t), List.filter_sublist, fun f => ?_,
          fun hplace => ?_⟩
        · rw [List.mem_filter, Json.isText_eq_true_iff]
          refine and_congr_right fun _ => ⟨fun htable t' ht' _ => ?_, fun hon => hon t rfl ht⟩
          rw [htable, Option.some.inj ht']
        · have hempty : t.isEmpty = false := by simpa using ht
          simp only [hempty, Bool.false_eq_true, if_false, hplace, if_true]
          rfl

/-- **A list holds the stored filters of its table, each once, in their order.** -/
theorem Mirrors.list (h : Mirrors es fs) (hes : Clocked es) (hholds : file.Holds fs)
    (now : Instant) (table : Option Text) :
    ∃ listed, file.list now table = .ok listed ∧ listed.Nodup ∧
      (∀ f, f ∈ listed ↔ Lives es f ∧ IsOn table f) ∧
      listed.Pairwise SavedFilter.ComesBefore := by
  obtain ⟨chosen, hsub, hmem, hlist⟩ := hholds.exists_chosen now table
  have hlives : ∀ f ∈ chosen, Lives es f := fun f hf => (h.mem_iff f).mp (hsub.subset hf)
  have htimed : ∀ f ∈ chosen, f.IsTimed := fun f hf => (hlives f hf).isTimed hes
  have hids : (chosen.map (fun f => f.id)).Nodup := h.ids.sublist (hsub.map _)
  -- filters of one second would have one identifier
  have hcreated : (chosen.map (fun f => f.createdAt.epochSeconds)).Nodup := by
    refine List.pairwise_map.mpr ((List.pairwise_map.mp hids).imp_of_mem fun hf hg hne heq => ?_)
    obtain ⟨a, -, hcreated, hid⟩ := (hlives _ hf).exists_createdAt
    obtain ⟨b, -, hcreated', hid'⟩ := (hlives _ hg).exists_createdAt
    rw [hcreated, hcreated', Stamp.epochSeconds_coe, Stamp.epochSeconds_coe] at heq
    rw [hid, hid', freshId, freshId, heq] at hne
    exact hne rfl
  have hperm : (chosen.mergeSort SavedFilter.precedes).Perm chosen := List.mergeSort_perm ..
  refine ⟨chosen.mergeSort SavedFilter.precedes, ?_, ?_, fun f => ?_, ?_⟩
  · exact hlist (List.all_eq_true.mpr fun f hf => (htimed f hf).hasPlace)
  · exact hperm.nodup_iff.mpr (List.Nodup.of_map _ hids)
  · rw [hperm.mem_iff, hmem, h.mem_iff]
  · exact SavedFilter.pairwise_comesBefore_mergeSort htimed hcreated

/-! ## §3. The store as a map. -/

/-- **The store is a map that its calls tell.**  After any calls on a store without a file, at
later and later readings of a clock:

  • no two stored filters share an identifier, or a name and a table,
  • the filter with an identifier is the one that was saved under it and lives, as it is recorded,
  • the filters of a table, or all of them, are those that live, each once, in their order,
  • the text of the file gives the file, as long as the texts of the conditions give them.

A save that is refused, under a blank name or because what it saves cannot be written, saves
nothing and replaces nothing. -/
theorem Clocked.replay_spec (hes : Clocked es) :
    ∃ stored, (∀ now, (replay es).filters now = .ok stored) ∧
      (stored.map (fun f => f.id)).Nodup ∧ (stored.map (fun f => (f.name, f.table))).Nodup ∧
      (∀ now id, ∃ found, (replay es).get now id = .ok found ∧
        ∀ f, found = some f ↔ Lives es f ∧ f.id = id) ∧
      (∀ now table, ∃ listed, (replay es).list now table = .ok listed ∧ listed.Nodup ∧
        (∀ f, f ∈ listed ↔ Lives es f ∧ IsOn table f) ∧
        listed.Pairwise SavedFilter.ComesBefore) ∧
      ∀ room, (∀ e ∈ es, ∀ v ∈ e.conditions, Json.Readable room v) →
        ofContent (replay es).content? (room + 4) = replay es := by
  obtain ⟨stored, hholds, h⟩ := hes.exists_mirrors
  refine ⟨stored, hholds.filters, h.ids, h.names, fun now id => ?_, h.list hes hholds,
    fun room hroom => ?_⟩
  · refine ⟨_, hholds.get now id, fun f => ?_⟩
    rw [find?_eq_some_iff h.ids, h.mem_iff]
  · exact hholds.ofContent fun f hf => ((h.mem_iff f).mp hf).isReadable hes hroom

/-- A minute of a day, second by second. -/
def tick (n : Nat) : Instant :=
  { date := ⟨2024, 6, 1, by decide⟩
    second := n % 60
    isTime := ⟨by decide, by decide, Nat.mod_lt n (by decide), by decide⟩ }

/-- A filter for open incidents. -/
def openIncidents : Draft :=
  { name := "Open", table := "incident", query := "active=true",
    conditions := [.object [("field", .text "active"), ("value", .text "true")]] }

/-- The filter is saved, used twice and made a favourite; meanwhile another one is saved, replaced
and deleted. -/
def shortRun : List Event :=
  [⟨tick 0, .save openIncidents⟩,
   ⟨tick 1, .save { name := "Mine", table := "incident", query := "assigned_to=me" }⟩,
   ⟨tick 2, .markUsed (freshId (tick 0))⟩,
   ⟨tick 3, .save { name := "Mine", table := "incident", query := "opened_by=me" }⟩,
   ⟨tick 4, .setFavorite (freshId (tick 0)) true⟩,
   ⟨tick 5, .markUsed (freshId (tick 0))⟩,
   ⟨tick 6, .delete (freshId (tick 3))⟩]

theorem replay_spec_shortRun :
    Clocked shortRun ∧
      (replay shortRun).get (tick 7) (freshId (tick 0)) = .ok (some
        { id := freshId (tick 0), name := .text "Open", table := .text "incident",
          query := .text "active=true", description := .text [],
          conditions := [.object [("field", .text "active"), ("value", .text "true")]],
          createdAt := tick 0, lastUsed := some (tick 5), useCount := 2, isFavorite := true }) ∧
      ofContent (replay shortRun).content? 5 = replay shortRun := by
  have hclocked : Clocked shortRun := by
    refine ⟨fun e he => ?_, by decide⟩
    simp only [shortRun, List.mem_cons, List.not_mem_nil, or_false] at he
    rcases he with rfl | rfl | rfl | rfl | rfl | rfl | rfl <;> exact ⟨rfl, by decide⟩
  obtain ⟨stored, -, -, -, hget, -, hcontent⟩ := Clocked.replay_spec hclocked
  refine ⟨hclocked, ?_, hcontent 1 ?_⟩
  · obtain ⟨found, hget, hfound⟩ := hget (tick 7) (freshId (tick 0))
    rw [hget]
    refine congrArg Except.ok ((hfound _).mpr ⟨?_, ?_⟩)
    · refine ⟨[], tick 0, openIncidents, _, rfl, by decide, by decide +kernel, ?_⟩
      simp only [Draft.recorded, List.filterMap_cons, List.filterMap_nil, Event.use?,
        Event.favorite?, if_true]
      rfl
    · simp only
  · simp only [shortRun, List.forall_mem_cons, List.not_mem_nil, false_implies, implies_true,
      and_true, Event.conditions, openIncidents]
    refine .object (by decide) ?_
    simp only [List.forall_mem_cons, List.not_mem_nil, false_implies, implies_true, and_true]
    exact ⟨.text, .text⟩

end EncodedQuery.StoreFile

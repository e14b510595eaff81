/-
  EncodedQuery.Proofs.Saved.Run
  ─────────────────────────────
  **ONE CALL ON THE STORE.**

  A call reads all filters from the file and writes them again.  What it does
  to them is one edit of their list: it drops some, updates the rest one by one,
  and adds at most one at the end.

    • `save` drops the filter with its name and table, and adds the new one,
    • `markUsed` and `setFavorite` update the filter with their identifier,
    • `delete` drops it.

  Only a save is refused: under a blank name, or of something that cannot be
  written.  It leaves the file alone, as does a call that finds nothing to do, and
  the edit of either changes nothing.

  Main results: `Holds.perform`, `Holds.fails_perform`, `Holds.ofContent`.
-/
import EncodedQuery.Proofs.Saved.Store

namespace EncodedQuery

theorem Json.isText_eq_true_iff {t : Text} {v : Json} : v.isText t = true ↔ v = .text t := by
  cases v <;> simp [Json.isText]

namespace StoreFile

/-! ## §1. Calls. -/

/-- What is saved. -/
structure Draft where
  /-- The name. -/
  name : Text
  /-- The table that is filtered. -/
  table : Text
  /-- The query. -/
  query : Text
  /-- What it is for. -/
  description : Text := []
  /-- Descriptions of the conditions. -/
  conditions : List Json := []
  /-- It is a favourite from the start. -/
  isFavorite : Bool := false

/-- The filter as it is saved. -/
def Draft.saved (d : Draft) (now : Instant) : SavedFilter :=
  newFilter now d.name d.table d.query d.description d.conditions d.isFavorite

/-- The name is not blank, and all that is saved can be written. -/
def Draft.isAccepted (d : Draft) : Bool :=
  !(Text.strip d.name).isEmpty &&
    ([d.name, d.table, d.query, d.description].all Text.isEncodable &&
      d.conditions.all (fun v => v.unwritable?.isNone))

theorem Draft.isAccepted_iff {d : Draft} (now : Instant) :
    d.isAccepted = true ↔ Text.strip d.name ≠ [] ∧ (d.saved now).IsWritable := by
  rw [isAccepted, Bool.and_eq_true, saved, isWritable_newFilter_iff, Bool.and_eq_true,
    List.all_eq_true, List.all_eq_true]
  simp only [Option.isNone_iff_eq_none, Json.unwritable?_eq_none_iff, Bool.not_eq_true',
    List.isEmpty_eq_false_iff]

/-- A call that may change the store. -/
inductive Call where
  /-- Save a filter. -/
  | save (d : Draft)
  /-- Count a use. -/
  | markUsed (id : Text)
  /-- Make it a favourite, or an ordinary one. -/
  | setFavorite (id : Text) (favorite : Bool)
  /-- Delete it. -/
  | delete (id : Text)

/-- The file that a call leaves, from its answer and the file that it is to write. -/
def left {α : Type} (file : StoreFile) (x : Except Fault (α × Option StoreFile)) :
    Except Fault StoreFile := (x >>= file.settle).map Prod.snd

/-- The file after a call. -/
def perform (file : StoreFile) (now : Instant) : Call → Except Fault StoreFile
  | .save d =>
      file.left (file.save now d.name d.table d.query d.description d.conditions d.isFavorite)
  | .markUsed id => file.left (file.markUsed now id)
  | .setFavorite id favorite => file.left (file.setFavorite now id favorite)
  | .delete id => file.left (file.delete now id)

/-! ## §2. Edits. -/

/-- The filter after a use. -/
def used (now : Instant) (f : SavedFilter) : SavedFilter :=
  { f with useCount := f.useCount + 1, lastUsed := some now }

/-- The filter as a favourite, or as an ordinary one. -/
def marked (favorite : Bool) (f : SavedFilter) : SavedFilter := { f with isFavorite := favorite }

namespace Call

/-- The call is not refused. -/
def isAccepted : Call → Bool
  | save d => d.isAccepted
  | _ => true

/-- The filter is not kept. -/
def drops : Call → SavedFilter → Bool
  | save d, f => d.isAccepted && (f.name.isText d.name && f.table.isText d.table)
  | delete id, f => f.id = id
  | _, _ => false

/-- What becomes of a filter that is kept. -/
def update (now : Instant) : Call → SavedFilter → SavedFilter
  | markUsed id, f => if f.id = id then used now f else f
  | setFavorite id favorite, f => if f.id = id then marked favorite f else f
  | _, f => f

/-- The filters that are new. -/
def adds (now : Instant) : Call → List SavedFilter
  | save d => if d.isAccepted then [d.saved now] else []
  | _ => []

/-- The filters after the call. -/
def edit (now : Instant) (c : Call) (fs : List SavedFilter) : List SavedFilter :=
  (fs.filter (fun f => !c.drops f)).map (c.update now) ++ c.adds now

variable {now : Instant} {c : Call} {f : SavedFilter} {fs : List SavedFilter}

theorem mem_edit_iff :
    f ∈ c.edit now fs ↔ (∃ f₀ ∈ fs, c.drops f₀ = false ∧ c.update now f₀ = f) ∨ f ∈ c.adds now := by
  simp [edit, and_assoc]

/-- Only a save that is accepted adds a filter. -/
theorem mem_adds_iff :
    f ∈ c.adds now ↔ ∃ d, c = save d ∧ d.isAccepted = true ∧ f = d.saved now := by
  cases c with
  | save d => by_cases hd : d.isAccepted = true <;> simp [adds, hd]
  | markUsed id => simp [adds]
  | setFavorite id favorite => simp [adds]
  | delete id => simp [adds]

@[simp] theorem update_id (now : Instant) (c : Call) (f : SavedFilter) :
    (c.update now f).id = f.id := by
  cases c <;> simp only [update] <;> split <;> rfl

@[simp] theorem update_name (now : Instant) (c : Call) (f : SavedFilter) :
    (c.update now f).name = f.name := by
  cases c <;> simp only [update] <;> split <;> rfl

@[simp] theorem update_table (now : Instant) (c : Call) (f : SavedFilter) :
    (c.update now f).table = f.table := by
  cases c <;> simp only [update] <;> split <;> rfl

theorem update_save (now : Instant) (d : Draft) : update now (save d) = fun f => f := rfl

theorem update_delete (now : Instant) (id : Text) : update now (delete id) = fun f => f := rfl

/-- A call that is refused changes no filter. -/
theorem edit_refused (h : c.isAccepted = false) : c.edit now fs = fs := by
  cases c with
  | save d =>
      have hrefused : d.isAccepted = false := h
      have hdrops : ∀ f, Call.drops (.save d) f = false := fun f => by
        rw [drops, hrefused, Bool.false_and]
      have hadds : Call.adds now (.save d) = [] := by simp [adds, hrefused]
      rw [edit, hadds, update_save, List.map_id', List.append_nil]
      exact List.filter_eq_self.mpr fun f _ => by rw [hdrops]; rfl
  | markUsed id => cases h
  | setFavorite id favorite => cases h
  | delete id => cases h

/-- What no call updates, and no filter that is new shares with one that is kept, stays different
for different filters. -/
theorem nodup_map_edit {κ : Type} {k : SavedFilter → κ} (hk : ∀ f, k (c.update now f) = k f)
    (hnew : ∀ f ∈ fs, c.drops f = false → ∀ g ∈ c.adds now, k f ≠ k g) (hfs : (fs.map k).Nodup) :
    ((c.edit now fs).map k).Nodup := by
  have hkept : ((fs.filter (fun f => !c.drops f)).map (c.update now)).map k =
      (fs.filter (fun f => !c.drops f)).map k := by
    rw [List.map_map]
    exact List.map_congr_left fun f _ => hk f
  have hadds : ((c.adds now).map k).Nodup := by
    cases c with
    | save d =>
        simp only [adds]
        split
        · exact List.pairwise_singleton _ _
        · exact List.nodup_nil
    | markUsed id => exact List.nodup_nil
    | setFavorite id favorite => exact List.nodup_nil
    | delete id => exact List.nodup_nil
  rw [edit, List.map_append, hkept, List.nodup_append]
  refine ⟨hfs.sublist ((List.filter_sublist ..).map k), hadds, ?_⟩
  intro a ha b hb
  obtain ⟨f, hf, rfl⟩ := List.mem_map.mp ha
  obtain ⟨g, hg, rfl⟩ := List.mem_map.mp hb
  obtain ⟨hf, hkeep⟩ := List.mem_filter.mp hf
  exact hnew f hf (by simpa using hkeep) g hg

end Call

/-! ## §3. The file. -/

/-- The file holds these filters: it is missing, and they are none, or they were written to it. -/
inductive Holds : StoreFile → List SavedFilter → Prop
  | missing : Holds .missing []
  | written (now : Instant) (fs : List SavedFilter) : Holds (ofFilters now fs) fs

variable {file : StoreFile} {fs : List SavedFilter}

/-- What the file holds is what is read from it, at any time. -/
theorem Holds.filters (h : Holds file fs) (now : Instant) : file.filters now = .ok fs := by
  cases h with
  | missing => rfl
  | written now' => exact filters_ofFilters now' now fs

/-- **The text of the file gives the file**, as long as the texts of the filters give them. -/
theorem Holds.ofContent {room : Nat} (h : Holds file fs)
    (hfs : ∀ f ∈ fs, f.IsReadable room) : ofContent file.content? (room + 4) = file := by
  cases h with
  | missing => rfl
  | written now => exact ofContent_ofFilters now room fun f hf => (hfs f hf).toJson

/-- All filters can be written. -/
def Writable (fs : List SavedFilter) : Prop := ∀ f ∈ fs, f.IsWritable

variable {α : Type} {x : Except Fault (α × Option StoreFile)} {a : α} {now : Instant}

/-- A call that has nothing to write leaves the file alone. -/
theorem left_none (file : StoreFile) (hx : x = .ok (a, none)) : file.left x = .ok file := by
  rw [hx]
  rfl

/-- What a call has to write, it writes if it can be written. -/
theorem left_ofFilters (file : StoreFile) (hx : x = .ok (a, some (ofFilters now fs)))
    (hfs : Writable fs) : file.left x = .ok (ofFilters now fs) := by
  have hsettle : file.settle (a, some (ofFilters now fs)) = .ok (a, ofFilters now fs) := by
    simp only [settle, written_ofFilters now hfs, bind, Except.bind, pure, Except.pure]
  simp only [hx, left, bind, Except.bind, hsettle, Except.map]

/-- Otherwise it fails. -/
theorem fails_left_ofFilters (file : StoreFile) (hx : x = .ok (a, some (ofFilters now fs)))
    (hfs : ¬ Writable fs) : Fails (file.left x) := by
  obtain ⟨f, hfault⟩ := fails_written_ofFilters now hfs
  refine ⟨f, ?_⟩
  have hsettle : file.settle (a, some (ofFilters now fs)) = .error f := by
    simp only [settle, hfault, bind, Except.bind]
  simp only [hx, left, bind, Except.bind, hsettle, Except.map]

/-! ## §4. One call. -/

/-- What a save under a name that is not blank is to write. -/
theorem Holds.save_eq {d : Draft} (h : Holds file fs) (now : Instant)
    (hname : Text.strip d.name ≠ []) :
    file.save now d.name d.table d.query d.description d.conditions d.isFavorite =
      .ok (d.saved now, some (ofFilters now
        (fs.filter (fun f => !(f.name.isText d.name && f.table.isText d.table)) ++
          [d.saved now]))) := by
  have hblank : (Text.strip d.name).isEmpty = false := by simpa using hname
  unfold StoreFile.save
  simp only [hblank, Bool.false_eq_true, if_false, h.filters now, bind, Except.bind, pure,
    Except.pure]
  rfl

/-- **A call that is refused fails.** -/
theorem Holds.fails_perform {c : Call} (h : Holds file fs) (now : Instant)
    (hc : c.isAccepted = false) : Fails (perform file now c) := by
  cases c with
  | save d =>
      have hrefused : ¬ (Text.strip d.name ≠ [] ∧ (d.saved now).IsWritable) := fun haccepted => by
        have haccepted : d.isAccepted = true := (Draft.isAccepted_iff now).mpr haccepted
        rw [Call.isAccepted, haccepted] at hc
        cases hc
      by_cases hname : Text.strip d.name = []
      · refine ⟨.badValue "filter name is required", ?_⟩
        have hblank : (Text.strip d.name).isEmpty = true := by simpa using hname
        unfold perform StoreFile.save
        simp only [hblank, if_true]
        rfl
      · refine fails_left_ofFilters file (h.save_eq now hname) fun hfs => hrefused ⟨hname, ?_⟩
        exact hfs _ (List.mem_append_right _ (List.mem_singleton_self _))
  | markUsed id => cases hc
  | setFavorite id favorite => cases hc
  | delete id => cases hc

theorem Holds.save {d : Draft} (h : Holds file fs) (hd : d.isAccepted = true)
    (hfs : Writable ((Call.save d).edit now fs)) :
    ∃ file', perform file now (.save d) = .ok file' ∧ Holds file' ((Call.save d).edit now fs) := by
  have hname : Text.strip d.name ≠ [] := ((Draft.isAccepted_iff now).mp hd).1
  have hedit : (Call.save d).edit now fs =
      fs.filter (fun f => !(f.name.isText d.name && f.table.isText d.table)) ++
        [d.saved now] := by
    simp only [Call.edit, Call.drops, Call.adds, Call.update_save, hd, Bool.true_and, if_true,
      List.map_id']
  rw [hedit] at hfs ⊢
  exact ⟨_, left_ofFilters file (h.save_eq now hname) hfs, .written now _⟩

/-- A change that keeps the identifiers is made to the filter with an identifier, if there is one,
and there is nothing to write if there is none. -/
theorem Holds.change {g : SavedFilter → SavedFilter} (h : Holds file fs) (now : Instant) (id : Text)
    (hid : ∀ f, (g f).id = f.id) :
    (file.change now id g = .ok (none, none) ∧
        fs.map (fun f => if f.id = id then g f else f) = fs) ∨
      ∃ found, file.change now id g = .ok (some found,
        some (ofFilters now (fs.map (fun f => if f.id = id then g f else f)))) := by
  unfold StoreFile.change
  rw [h.filters now]
  simp only [bind, Except.bind]
  split
  next hnone =>
    have hmiss : ∀ f ∈ fs, f.id ≠ id := by
      intro f hf hfid
      have hchanged : g f ∈ (fs.map (fun f => if f.id = id then g f else f)).filter
          (fun f => f.id = id) := by
        refine List.mem_filter.mpr ⟨List.mem_map.mpr ⟨f, hf, if_pos hfid⟩, ?_⟩
        exact decide_eq_true ((hid f).trans hfid)
      rw [List.getLast?_eq_none_iff.mp hnone] at hchanged
      cases hchanged
    exact .inl ⟨rfl, (List.map_congr_left fun f hf => if_neg (hmiss f hf)).trans (List.map_id' fs)⟩
  next found _ => exact .inr ⟨found, rfl⟩

/-- So is a filter deleted. -/
theorem Holds.delete (h : Holds file fs) (now : Instant) (id : Text) :
    (file.delete now id = .ok (false, none) ∧ fs.filter (fun f => f.id ≠ id) = fs) ∨
      file.delete now id = .ok (true, some (ofFilters now (fs.filter (fun f => f.id ≠ id)))) := by
  unfold StoreFile.delete
  rw [h.filters now]
  simp only [bind, Except.bind]
  split
  next => exact .inr rfl
  next hnone =>
    refine .inl ⟨rfl, List.filter_eq_self.mpr fun f hf => ?_⟩
    simpa using fun hfid => hnone (List.any_eq_true.mpr ⟨f, hf, decide_eq_true hfid⟩)

/-- A call leaves what it has to write, or the file that already holds it. -/
theorem Holds.left {fs' : List SavedFilter} (h : Holds file fs) (now : Instant)
    (hfs : Writable fs')
    (hx : (∃ a, x = .ok (a, none) ∧ fs' = fs) ∨ ∃ a, x = .ok (a, some (ofFilters now fs'))) :
    ∃ file', file.left x = .ok file' ∧ Holds file' fs' := by
  obtain ⟨a, hx, rfl⟩ | ⟨a, hx⟩ := hx
  · exact ⟨file, left_none file hx, h⟩
  · exact ⟨_, left_ofFilters file hx hfs, .written now fs'⟩

/-- **A call that is not refused edits the filters of the file**, as long as they can be written. -/
theorem Holds.perform {c : Call} (h : Holds file fs) (hc : c.isAccepted = true)
    (hfs : Writable (c.edit now fs)) :
    ∃ file', perform file now c = .ok file' ∧ Holds file' (c.edit now fs) := by
  have hkept : ∀ c : Call, (∀ f, c.drops f = false) → c.adds now = [] →
      c.edit now fs = fs.map (c.update now) := fun c hdrops hadds => by
    simp [Call.edit, hdrops, hadds]
  cases c with
  | save d => exact h.save hc hfs
  | markUsed id =>
      rw [hkept _ (fun _ => rfl) rfl] at hfs ⊢
      refine h.left now hfs ?_
      obtain ⟨hchange, hsame⟩ | ⟨found, hchange⟩ :=
        h.change (g := used now) now id fun _ => rfl
      · exact .inl ⟨none, hchange, hsame⟩
      · exact .inr ⟨some found, hchange⟩
  | setFavorite id favorite =>
      rw [hkept _ (fun _ => rfl) rfl] at hfs ⊢
      refine h.left now hfs ?_
      have hset : ∀ found changed, file.change now id (marked favorite) = .ok (found, changed) →
          file.setFavorite now id favorite = .ok (found.isSome, changed) := by
        intro found changed hchange
        unfold setFavorite
        show file.change now id (marked favorite) >>= _ = _
        rw [hchange]
        rfl
      obtain ⟨hchange, hsame⟩ | ⟨found, hchange⟩ :=
        h.change (g := marked favorite) now id fun _ => rfl
      · exact .inl ⟨false, hset _ _ hchange, hsame⟩
      · exact .inr ⟨true, hset _ _ hchange⟩
  | delete id =>
      have hedit : (Call.delete id).edit now fs = fs.filter (fun f => f.id ≠ id) := by
        simp [Call.edit, Call.drops, Call.adds, Call.update_delete]
      rw [hedit] at hfs ⊢
      refine h.left now hfs ?_
      obtain ⟨hdelete, hsame⟩ | hdelete := h.delete now id
      · exact .inl ⟨false, hdelete, hsame⟩
      · exact .inr ⟨true, hdelete⟩

end StoreFile

end EncodedQuery

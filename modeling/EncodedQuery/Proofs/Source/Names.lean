/-
  EncodedQuery.Proofs.Source.Names
  ────────────────────────────────
  **A LOADED TABLE NAMES ITS FIELDS ALIKE.**

  A dictionary names every field by a text.  A table that falls back on the names
  in its first record has them in order, and only names of one kind have an order;
  a single name of any kind has one too.

  `Gives` says what holds of every result that a computation with requests can
  have, whatever the source answers.

  Main result: `Source.gives_loadTable`.
-/
import EncodedQuery.Source.Dictionary

namespace EncodedQuery

/-! ## §1. Names. -/

/-- The names of the fields are texts, or none of them is. -/
def Table.NamesAlike (t : Table) : Prop :=
  (∀ f ∈ t.fields, f.oddName = none) ∨ ∀ f ∈ t.fields, f.oddName.isSome = true

theorem OddName.isSome_ofJson? (v : Json) : (ofJson? v).isSome = !v.isString := by
  cases v <;> rfl

/-- Names that have an order are all texts, or none of them is. -/
theorem Json.alike_of_areOrdered {vs : List Json} (h : areOrdered vs = true) :
    (∀ v ∈ vs, v.isString = true) ∨ ∀ v ∈ vs, v.isString = false := by
  simp only [areOrdered, Bool.or_eq_true, List.all_eq_true, decide_eq_true_eq] at h
  rcases h with ((htexts | hnumbers) | hnulls) | hone
  · exact .inl htexts
  · refine .inr fun v hv => ?_
    have hnumber := hnumbers v hv
    cases v <;> first | rfl | cases hnumber
  · refine .inr fun v hv => ?_
    have hnull := hnulls v hv
    cases v <;> first | rfl | cases hnull
  · match vs, hone with
    | [], _ => exact .inl (List.forall_mem_nil _)
    | [v], _ => cases h : v.isString <;> simp [h]

theorem Table.namesAlike_textOnly (name : Text) {vs ws : List Json} (h : Json.inOrder vs = .ok ws) :
    (textOnly name ws).NamesAlike := by
  unfold Json.inOrder at h
  split at h
  next hordered =>
    cases h
    refine (Json.alike_of_areOrdered hordered).imp (fun htexts => ?_) (fun hodd => ?_) <;>
      refine List.forall_mem_map.mpr fun v hv => ?_
    · rw [List.mem_mergeSort] at hv
      exact Option.not_isSome_iff_eq_none.mp (by
        simp [Field.named, OddName.isSome_ofJson?, htexts v hv])
    · rw [List.mem_mergeSort] at hv
      simp [Field.named, OddName.isSome_ofJson?, hodd v hv]
  next => cases h

/-! ## §2. What a computation gives. -/

/-- Whatever requests were made before, a result of the computation has the property. -/
def Gives {α : Type} (x : Calling α) (p : α → Prop) : Prop :=
  ∀ made a, (x.run.run made).1 = .ok a → p a

section
variable {α β : Type} {p : α → Prop} {q : β → Prop}

theorem gives_any (x : Calling α) : Gives x (fun _ => True) := fun _ _ _ => trivial

theorem gives_pure {a : α} (h : p a) : Gives (pure a) p := by
  intro _ _ hrun
  cases hrun
  exact h

theorem gives_throw (f : Fault) : Gives (throw f : Calling α) p := by
  intro _ _ hrun
  cases hrun

theorem gives_ofExcept {e : Except Fault α} (h : ∀ a, e = .ok a → p a) :
    Gives (ExceptT.mk (pure e)) p :=
  fun _ a hrun => h a hrun

theorem gives_bind {x : Calling α} {g : α → Calling β} (hx : Gives x p)
    (hg : ∀ a, p a → Gives (g a) q) : Gives (x >>= g) q := by
  intro made b hrun
  simp only [ExceptT.run_bind, StateT.run_bind] at hrun
  -- what the second part sees of the first is its result and the requests made so far
  rcases hx' : x.run.run made with ⟨_ | a, made'⟩ <;> rw [hx'] at hrun
  · cases hrun
  · exact hg a (hx made a (congrArg Prod.fst hx')) made' b hrun

theorem gives_tryCatch {x : Calling α} {g : Fault → Calling α} (hx : Gives x p)
    (hg : ∀ f, Gives (g f) p) : Gives (tryCatch x g) p := by
  intro made a hrun
  simp only [tryCatch, tryCatchThe, MonadExceptOf.tryCatch, ExceptT.tryCatch, ExceptT.run_mk,
    StateT.run_bind] at hrun
  rcases hx' : StateT.run x made with ⟨f | a', made'⟩ <;> rw [hx'] at hrun
  · exact hg f made' a hrun
  · exact hx made a ((congrArg Prod.fst hx').trans hrun)


end

/-! ## §3. Loaded tables. -/

namespace Dictionary

variable (s : Source) (table : Text)

theorem gives_fieldOfRow (name : Text) (row : Record) :
    Gives (fieldOfRow s table name row) (fun f => f.oddName = none) := by
  unfold fieldOfRow
  dsimp only
  split <;>
    exact gives_bind (gives_any _) fun _ _ => gives_bind (gives_any _) fun _ _ => gives_pure rfl

theorem gives_fieldsOfRows : ∀ (seen : List Text) (rows : List Record),
    Gives (fieldsOfRows s table seen rows) (fun fs => ∀ f ∈ fs, f.oddName = none)
  | _, [] => gives_pure (List.forall_mem_nil _)
  | seen, row :: rest => by
      unfold fieldsOfRows
      dsimp only
      split
      · exact gives_fieldsOfRows seen rest
      · refine gives_bind (gives_fieldOfRow s table _ row) fun f hf => ?_
        refine gives_bind (gives_fieldsOfRows _ rest) fun fs hfs => ?_
        exact gives_pure (List.forall_mem_cons.mpr ⟨hf, hfs⟩)

/-- A dictionary names every field by a text. -/
theorem gives_load : Gives (load s table) (fun t => ∀ f ∈ t.fields, f.oddName = none) := by
  unfold load
  refine gives_bind (gives_any _) fun rows _ => ?_
  refine gives_bind (gives_fieldsOfRows s table [] rows) fun fs hfs => ?_
  split
  · exact gives_throw _
  · exact gives_pure hfs

/-- The names in the first row of a table have an order. -/
theorem gives_sampledNames :
    Gives (sampledNames s table) (fun ws => ∃ vs, Json.inOrder vs = .ok ws) := by
  unfold sampledNames
  refine gives_bind (gives_any _) fun rows _ => ?_
  split
  · exact gives_pure ⟨[], by simp [Json.inOrder, Json.areOrdered]⟩
  · exact gives_ofExcept fun ws h => ⟨_, h⟩

end Dictionary

/-- **A LOADED TABLE NAMES ITS FIELDS ALIKE**, whatever the source answers. -/
theorem Source.gives_loadTable (s : Source) (table : Text) :
    Gives (s.loadTable table) Table.NamesAlike := by
  unfold loadTable
  -- the table of the fallback returns early, past the rest of the computation
  refine gives_bind (p := fun e => ∀ t, e = .ok t ∨ e = .error t → t.NamesAlike)
    (gives_tryCatch ?_ fun f => ?_) fun e he => ?_
  · refine gives_bind (Dictionary.gives_load s table) fun t ht => gives_pure ?_
    rintro _ (⟨⟨⟩⟩ | ⟨⟨⟩⟩)
    exact .inl ht
  · split
    · refine gives_bind (Dictionary.gives_sampledNames s table) fun ws ⟨_, hws⟩ => gives_pure ?_
      rintro _ (⟨⟨⟩⟩ | ⟨⟨⟩⟩)
      exact Table.namesAlike_textOnly table hws
    · exact gives_bind (p := fun _ => False) (gives_throw f) fun _ h => h.elim
  · cases e with
    | ok t => exact gives_pure (he t (.inl rfl))
    | error t => exact gives_pure (he t (.inr rfl))

end EncodedQuery

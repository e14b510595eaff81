/-
  EncodedQuery.Proofs.Source.Fields
  ─────────────────────────────────
  **THE FIELDS OF A TABLE, FOR EVERY PATTERN OF ANSWERS.**

  The rows of a dictionary name fields.  A row without a name describes none, and
  of the rows with one name only the first counts (`firstRows`).  All but the
  choices of a field comes from its row; a choice field takes its choices from the
  answer to a request of its own, and has none when that request fails.

  Main result: `outcome_load`.
-/
import EncodedQuery.Proofs.Source.Rows
import EncodedQuery.Proofs.Text.Pieces

namespace EncodedQuery

open Calling

namespace Dictionary

/-! ## §1. The rows that count. -/

/-- The name of the field that a row describes. -/
def element (row : Record) : Text := row.shown "element"

/-- Of each name that is not in `seen` the first row, in order; a row without a name counts as
none. -/
def firstRows : List Text → List Record → List Record
  | _, [] => []
  | seen, row :: rest =>
      if (element row).isEmpty || Text.isOneOf (element row) seen then firstRows seen rest
      else row :: firstRows (element row :: seen) rest

/-- What tells whether a row counts. -/
theorem firstRows_cons (seen : List Text) (row : Record) (rest : List Record) :
    (element row = [] ∨ element row ∈ seen) ∧ firstRows seen (row :: rest) = firstRows seen rest ∨
      element row ≠ [] ∧ element row ∉ seen ∧
        firstRows seen (row :: rest) = row :: firstRows (element row :: seen) rest := by
  rw [firstRows]
  by_cases h : element row = [] ∨ element row ∈ seen
  · refine .inl ⟨h, if_pos ?_⟩
    rwa [Bool.or_eq_true, List.isEmpty_iff, Text.isOneOf_iff]
  · refine .inr ⟨fun hempty => h (.inl hempty), fun hseen => h (.inr hseen), if_neg ?_⟩
    rwa [Bool.or_eq_true, List.isEmpty_iff, Text.isOneOf_iff]

/-- The rows that count have a new name, and are the first ones with it. -/
theorem mem_firstRows_iff {rows : List Record} {seen : List Text} {row : Record} :
    row ∈ firstRows seen rows ↔ element row ≠ [] ∧ element row ∉ seen ∧
      rows.find? (fun r => element r = element row) = some row := by
  induction rows generalizing seen with
  | nil => exact ⟨nofun, fun h => nomatch h.2.2⟩
  | cons first rest ih =>
      have hskip : element first ≠ element row →
          (first :: rest).find? (fun r => element r = element row)
            = rest.find? (fun r => element r = element row) :=
        fun hname => List.find?_cons_of_neg (by simpa using hname)
      obtain ⟨hold, heq⟩ | ⟨hname, hnew, heq⟩ := firstRows_cons seen first rest
      · rw [heq, ih]
        refine and_congr_right fun hne => and_congr_right fun hseen => ?_
        rw [hskip fun h => by rw [h] at hold; exact hold.elim hne hseen]
      · rw [heq, List.mem_cons]
        by_cases hsame : element first = element row
        · rw [List.find?_cons_of_pos (by simpa using hsame), ih, ← hsame]
          simp [hname, hnew, eq_comm]
        · rw [hskip hsame, ih, List.mem_cons]
          have hrow : row ≠ first := fun h => hsame (congrArg element h.symm)
          simp [hrow, Ne.symm hsame]

theorem nodup_firstRows (rows : List Record) (seen : List Text) :
    ((firstRows seen rows).map element).Nodup := by
  induction rows generalizing seen with
  | nil => exact List.nodup_nil
  | cons row rest ih =>
      obtain ⟨-, heq⟩ | ⟨-, -, heq⟩ := firstRows_cons seen row rest
      · rw [heq]
        exact ih seen
      · rw [heq, List.map_cons, List.nodup_cons]
        refine ⟨fun hmem => ?_, ih _⟩
        obtain ⟨later, hlater, hname⟩ := List.mem_map.mp hmem
        exact (mem_firstRows_iff.mp hlater).2.1 (List.mem_cons.mpr (.inl hname))

/-- The names of the rows that count are all names, each where it stands first. -/
theorem map_element_firstRows (rows : List Record) (seen : List Text) :
    (firstRows seen rows).map element
      = ((rows.map element).filter (fun name => name ≠ [] ∧ name ∉ seen)).eraseDups := by
  induction rows generalizing seen with
  | nil => rfl
  | cons row rest ih =>
      obtain ⟨hold, heq⟩ | ⟨hname, hnew, heq⟩ := firstRows_cons seen row rest
      · have hskip : ¬ (element row ≠ [] ∧ element row ∉ seen) := fun h => hold.elim h.1 h.2
        rw [heq, ih, List.map_cons, List.filter_cons_of_neg (by simpa using hskip)]
      · rw [heq, List.map_cons, ih, List.map_cons,
          List.filter_cons_of_pos (by simpa using ⟨hname, hnew⟩), List.eraseDups_cons,
          List.filter_filter]
        refine congrArg (fun names => element row :: List.eraseDups names)
          (List.filter_congr fun name _ => ?_)
        rw [Bool.eq_iff_iff]
        simp only [List.mem_cons, not_or, Bool.and_eq_true, Bool.not_eq_true', beq_eq_false_iff_ne,
          decide_eq_true_eq]
        exact and_left_comm

/-- Reads the fields of rows, one after the other. -/
def readRows (s : Source) (table : Text) (rows : List Record) : Calling (List Field) :=
  rows.mapM fun row => fieldOfRow s table (element row) row

theorem readRows_cons (s : Source) (table : Text) (row : Record) (rest : List Record) :
    readRows s table (row :: rest)
      = fieldOfRow s table (element row) row >>= fun f =>
          readRows s table rest >>= fun fields => pure (f :: fields) := List.mapM_cons

/-- **The rows that count are the ones that are read.** -/
theorem fieldsOfRows_eq_readRows (s : Source) (table : Text) (rows : List Record)
    (seen : List Text) :
    fieldsOfRows s table seen rows = readRows s table (firstRows seen rows) := by
  induction rows generalizing seen with
  | nil => rfl
  | cons row rest ih =>
      rw [fieldsOfRows, firstRows]
      show (if (element row).isEmpty || Text.isOneOf (element row) seen then _ else _) = _
      split
      · exact ih seen
      · rw [readRows_cons, ← ih]
        rfl

/-! ## §2. The field of a row. -/

/-- The field that a row describes, with its choices and the greatest length of its values. -/
def fieldOf (row : Record) (choices : List Choice) (maxLength : Int) : Field where
  name := element row
  label := row.shown "column_label"
  type := FieldType.ofInternalName (row.shown "internal_type")
  maxLength
  mandatory := readFlag (row.shown "mandatory")
  readOnly := readFlag (row.shown "read_only")
  reference := row.shown "reference"
  choices
  defaultValue := row.shown "default_value"
  description := row.shown "comments"

/-- The field is the one of a row in all but its choices. -/
def IsOf (f : Field) (row : Record) : Prop :=
  readLength (row.shown "max_length") = .ok f.maxLength ∧ f = fieldOf row f.choices f.maxLength

/-- The choices that an answer gives: none when the source failed. -/
def readChoices : Answer → Except Fault (List Choice)
  | .ok records => .ok (records.map (fun r => Choice.of (r.shown "value") (r.shown "label")))
  | .error f => if f.isSource then .ok [] else .error f

/-- The choices of a field when the request for them has the number `n`. -/
def offers (s : Source) (table : Text) (n : Nat) (f : Field) : Except Fault (List Choice) :=
  if f.type = .choice then readChoices (s.answer n (choiceRequest table f.name)) else .ok []

/-- The requests for the choices of fields. -/
def choiceRequests (table : Text) (fields : List Field) : List Request :=
  fields.flatMap (fun f => if f.type = .choice then [choiceRequest table f.name] else [])

variable {s : Source} {table : Text} {made log : List Request}

theorem outcome_choices (field : Text) :
    outcome (choices s table field) made
      = (readChoices (s.answer made.length (choiceRequest table field)),
          made ++ [choiceRequest table field]) := by
  rw [choices, outcome_bind, outcome_tryCatch, Source.outcome_list]
  rcases s.answer made.length (choiceRequest table field) with f | records
  · cases f <;> rfl
  · rfl

/-- A row is read with at most one request, for the choices of its field. -/
theorem outcome_fieldOfRow (row : Record) :
    outcome (fieldOfRow s table (element row) row) made
      = ((offers s table made.length (fieldOf row [] 0)).bind fun cs =>
          (readLength (row.shown "max_length")).map fun n => fieldOf row cs n,
        made ++ choiceRequests table [fieldOf row [] 0]) := by
  have hlength : ∀ (cs : List Choice) (made' : List Request),
      outcome (ExceptT.mk (pure (readLength (row.shown "max_length"))) >>= fun n =>
          pure (fieldOf row cs n)) made'
        = ((readLength (row.shown "max_length")).map fun n => fieldOf row cs n, made') := by
    intro cs made'
    rw [outcome_bind, outcome_ofExcept]
    cases readLength (row.shown "max_length") <;> rfl
  unfold fieldOfRow offers choiceRequests
  rw [List.flatMap_singleton]
  by_cases hchoice : (fieldOf row [] 0).type = .choice
  · refine (congrArg (outcome · made) (if_pos hchoice)).trans ?_
    rw [if_pos hchoice, if_pos hchoice, outcome_bind, outcome_choices]
    show _ = ((readChoices (s.answer made.length (choiceRequest table (element row)))).bind _, _)
    cases readChoices (s.answer made.length (choiceRequest table (element row))) with
    | error f => rfl
    | ok cs => exact hlength cs _
  · refine (congrArg (outcome · made) (if_neg hchoice)).trans ?_
    rw [if_neg hchoice, if_neg hchoice, List.append_nil]
    exact hlength [] made

/-- What a row was read as, and with which requests. -/
theorem outcome_fieldOfRow_ok {row : Record} {f : Field} :
    outcome (fieldOfRow s table (element row) row) made = (.ok f, log) ↔
      (IsOf f row ∧ offers s table made.length f = .ok f.choices) ∧
        log = made ++ choiceRequests table [f] := by
  rw [outcome_fieldOfRow, Prod.mk.injEq]
  constructor
  · rintro ⟨hfield, rfl⟩
    cases hoffers : offers s table made.length (fieldOf row [] 0) with
    | error fault => rw [hoffers] at hfield; cases hfield
    | ok cs =>
        cases hlength : readLength (row.shown "max_length") with
        | error fault => rw [hoffers, hlength] at hfield; cases hfield
        | ok n =>
            rw [hoffers, hlength] at hfield
            cases hfield
            exact ⟨⟨⟨hlength, rfl⟩, hoffers⟩, rfl⟩
  · rintro ⟨⟨⟨hlength, hf⟩, hoffers⟩, rfl⟩
    have hrow : offers s table made.length (fieldOf row [] 0) = .ok f.choices := by
      rw [hf] at hoffers
      exact hoffers
    rw [hrow, hlength]
    refine ⟨congrArg Except.ok hf.symm, ?_⟩
    rw [hf]
    rfl

/-! ## §3. The fields of rows. -/

/-- The fields are those of the rows, and the requests for their choices, of which the first one has
the number `n`, were answered with their choices. -/
inductive Reads (s : Source) (table : Text) : Nat → List Record → List Field → Prop
  | nil {n : Nat} : Reads s table n [] []
  | cons {n : Nat} {row : Record} {rows : List Record} {f : Field} {fields : List Field} :
      IsOf f row → offers s table n f = .ok f.choices →
      Reads s table (n + (choiceRequests table [f]).length) rows fields →
      Reads s table n (row :: rows) (f :: fields)

theorem choiceRequests_cons (f : Field) (fields : List Field) :
    choiceRequests table (f :: fields)
      = choiceRequests table [f] ++ choiceRequests table fields := by
  unfold choiceRequests
  rw [List.flatMap_cons, List.flatMap_singleton]

theorem length_choiceRequests_singleton {f : Field} (h : f.type = .choice) :
    (choiceRequests table [f]).length = 1 := by
  unfold choiceRequests
  rw [List.flatMap_singleton, if_pos h]
  rfl

/-- A field that is no choice field has the same choices everywhere. -/
theorem offers_congr {s' : Source} {n : Nat} {f : Field}
    (h : f.type = .choice →
      s'.answer n (choiceRequest table f.name) = s.answer n (choiceRequest table f.name)) :
    offers s' table n f = offers s table n f := by
  unfold offers
  split
  next hchoice => rw [h hchoice]
  next => rfl

theorem outcome_readRows_ok {rows : List Record} {fields : List Field} :
    outcome (readRows s table rows) made = (.ok fields, log) ↔
      Reads s table made.length rows fields ∧ log = made ++ choiceRequests table fields := by
  induction rows generalizing made fields log with
  | nil =>
      constructor
      · intro h
        cases h
        exact ⟨.nil, (List.append_nil made).symm⟩
      · rintro ⟨⟨⟩, rfl⟩
        exact congrArg (Prod.mk _) (List.append_nil made).symm
  | cons row rest ih =>
      rw [readRows_cons, outcome_bind]
      constructor
      · intro h
        rcases hfield : outcome (fieldOfRow s table (element row) row) made with ⟨fault | f, made'⟩
        · rw [hfield] at h
          cases h
        obtain ⟨⟨hf, hoffers⟩, rfl⟩ := outcome_fieldOfRow_ok.mp hfield
        rw [hfield] at h
        dsimp only at h
        rw [outcome_bind] at h
        rcases hrest : outcome (readRows s table rest) (made ++ choiceRequests table [f])
          with ⟨fault | fs, made''⟩
        · rw [hrest] at h
          cases h
        obtain ⟨hreads, rfl⟩ := ih.mp hrest
        rw [hrest] at h
        cases h
        rw [List.length_append] at hreads
        exact ⟨.cons hf hoffers hreads, by rw [choiceRequests_cons f fs, List.append_assoc]⟩
      · rintro ⟨hreads, rfl⟩
        cases hreads with
        | @cons _ _ _ f fields hf hoffers hreads =>
            rw [outcome_fieldOfRow_ok.mpr ⟨⟨hf, hoffers⟩, rfl⟩]
            dsimp only
            rw [← List.length_append] at hreads
            rw [outcome_bind, ih.mpr ⟨hreads, rfl⟩, choiceRequests_cons f fields,
              ← List.append_assoc]
            rfl

theorem Reads.names {n : Nat} {rows : List Record} {fields : List Field}
    (h : Reads s table n rows fields) : fields.map Field.name = rows.map element := by
  induction h with
  | nil => rfl
  | cons hf _ _ ih =>
      rw [List.map_cons, List.map_cons, ih, hf.2]
      rfl

/-- Every field has a row, and its choices are the answer to its own request. -/
theorem Reads.at {n : Nat} {rows : List Record} {before after : List Field} {f : Field}
    (h : Reads s table n rows (before ++ f :: after)) :
    (∃ row ∈ rows, IsOf f row) ∧
      offers s table (n + (choiceRequests table before).length) f = .ok f.choices := by
  induction before generalizing n rows with
  | nil =>
      obtain _ | ⟨hf, hoffers, -⟩ := h
      exact ⟨⟨_, List.mem_cons_self, hf⟩, hoffers⟩
  | cons g before ih =>
      obtain _ | ⟨-, -, hreads⟩ := h
      obtain ⟨⟨row, hrow, hf⟩, hoffers⟩ := ih hreads
      rw [Nat.add_assoc, ← List.length_append, ← choiceRequests_cons g before] at hoffers
      exact ⟨⟨row, List.mem_cons_of_mem _ hrow, hf⟩, hoffers⟩

/-- Only the answers to the requests behind matter. -/
theorem Reads.congr {s' : Source} {n : Nat} {rows : List Record} {fields : List Field}
    (h : Reads s table n rows fields)
    (hsame : ∀ m, n ≤ m → ∀ r, s'.answer m r = s.answer m r) : Reads s' table n rows fields := by
  induction h with
  | nil => exact .nil
  | @cons n row rows f fields hf hoffers _ ih =>
      exact .cons hf ((offers_congr fun _ => hsame n n.le_refl _).trans hoffers)
        (ih fun m hm => hsame m (by omega))

/-- **Another answer to the request of one choice field changes that field only.** -/
theorem Reads.with_choices {s' : Source} {n : Nat} {rows : List Record}
    {before after : List Field} {f : Field} {choices : List Choice}
    (h : Reads s table n rows (before ++ f :: after)) (hchoice : f.type = .choice)
    (hsame : ∀ m ≠ n + (choiceRequests table before).length, ∀ r, s'.answer m r = s.answer m r)
    (hother : readChoices (s'.answer (n + (choiceRequests table before).length)
      (choiceRequest table f.name)) = .ok choices) :
    Reads s' table n rows (before ++ { f with choices } :: after) := by
  induction before generalizing n rows with
  | nil =>
      obtain _ | ⟨hf, -, hreads⟩ := h
      refine .cons (f := { f with choices }) ⟨hf.1, ?_⟩ ((if_pos hchoice).trans hother) ?_
      · exact congrArg (fun g : Field => { g with choices }) hf.2
      · rw [length_choiceRequests_singleton hchoice] at hreads
        rw [length_choiceRequests_singleton (f := { f with choices }) hchoice]
        exact hreads.congr fun m hm => hsame m (Nat.ne_of_gt hm)
  | cons g before ih =>
      obtain _ | ⟨hg, hoffers, hreads⟩ := h
      rw [choiceRequests_cons g before, List.length_append, ← Nat.add_assoc] at hsame hother
      refine .cons hg ((offers_congr fun hchoice' => hsame n ?_ _).trans hoffers)
        (ih hreads hsame hother)
      rw [length_choiceRequests_singleton hchoice']
      omega

/-! ## §4. Tables. -/

/-- What is said of a table whose rows describe no field. -/
def nothingFound (table : Text) : Fault :=
  .source .notFound table
    "no field metadata found; the table may not exist or sys_dictionary is not readable"

/-- The fields of the rows make the table. -/
theorem outcome_load_of_rows {records : List Record} {made' : List Request}
    (h : outcome (rows s table) made = (.ok records, made')) :
    outcome (load s table) made
      = match outcome (readRows s table (firstRows [] records)) made' with
        | (.ok [], log) => (.error (nothingFound table), log)
        | (.ok fields, log) => (.ok ⟨table, fields⟩, log)
        | (.error f, log) => (.error f, log) := by
  rw [load, outcome_bind_ok h, fieldsOfRows_eq_readRows, outcome_bind]
  rcases outcome (readRows s table (firstRows [] records)) made' with ⟨_ | _ | _, log⟩ <;> rfl

theorem outcome_load_of_fails {asked : List Request} {f : Fault}
    (h : EndsWith s table made.length asked (.error f)) :
    outcome (load s table) made = (.error f, made ++ asked) := by
  rw [load, outcome_bind_error (outcome_rows_of_fails h)]

theorem outcome_load_of_none (h : AllBarren s table made.length)
    (hnone : lastFailure (answers s made.length (requests table)) = none) :
    outcome (load s table) made = (.error (nothingFound table), made ++ requests table) := by
  rw [outcome_load_of_rows (outcome_rows_of_none h hnone)]
  rfl

theorem outcome_load_of_barren {last : Fault} (h : AllBarren s table made.length)
    (hlast : lastFailure (answers s made.length (requests table)) = some last) :
    outcome (load s table) made
      = (.error (blame table last (s.answer (made ++ requests table).length probe)),
          made ++ requests table ++ [probe]) := by
  rw [load, outcome_bind_error (outcome_rows_of_barren h hlast)]

/-- A table is loaded when the search ends with rows that can be read and describe a field. -/
theorem outcome_load_ok {t : Table} :
    outcome (load s table) made = (.ok t, log) ↔
      ∃ asked records, EndsWith s table made.length asked (.ok records) ∧
        Reads s table (made ++ asked).length (firstRows [] records) t.fields ∧
        t.name = table ∧ t.fields ≠ [] ∧
        log = made ++ asked ++ choiceRequests table t.fields := by
  constructor
  · intro h
    obtain ⟨asked, records | records, hends⟩ | hbarren := ends_or_barren s table made.length
    · rw [outcome_load_of_fails hends] at h
      cases h
    · refine ⟨asked, records, hends, ?_⟩
      rw [outcome_load_of_rows (outcome_rows_of_ends hends)] at h
      split at h
      · cases h
      next fields log' hne hfields =>
        cases h
        obtain ⟨hreads, rfl⟩ := outcome_readRows_ok.mp hfields
        exact ⟨hreads, rfl, hne, rfl⟩
      · cases h
    · cases hlast : lastFailure (answers s made.length (requests table)) with
      | none => rw [outcome_load_of_none hbarren hlast] at h; cases h
      | some last => rw [outcome_load_of_barren hbarren hlast] at h; cases h
  · rintro ⟨asked, records, hends, hreads, rfl, hne, rfl⟩
    rw [outcome_load_of_rows (outcome_rows_of_ends hends),
      outcome_readRows_ok.mpr ⟨hreads, rfl⟩]
    obtain ⟨name, fields⟩ := t
    cases fields with
    | nil => exact absurd rfl hne
    | cons => rfl

/-! ## §5. The table for every pattern of answers. -/

/-- The table is what the rows `records` describe; the first request for choices has the
number `n`. -/
structure IsDescribedBy (s : Source) (n : Nat) (records : List Record) (t : Table) : Prop where
  /-- There are fields. -/
  nonempty : t.fields ≠ []
  /-- Every field has a name. -/
  named : ∀ f ∈ t.fields, f.name ≠ []
  /-- No two fields have one name. -/
  distinct : (t.fields.map Field.name).Nodup
  /-- The names are all names in the rows, each where it stands first. -/
  inOrder : t.fields.map Field.name = ((records.map element).filter (· ≠ [])).eraseDups
  /-- Each field is the one of the first row with its name. -/
  ofFirst : ∀ f ∈ t.fields, ∃ row,
    records.find? (fun r => element r = f.name) = some row ∧ IsOf f row
  /-- The choices of a field come from the answer to its request. -/
  offered : ∀ before f after, t.fields = before ++ f :: after →
    offers s t.name (n + (choiceRequests t.name before).length) f = .ok f.choices

theorem isDescribedBy_of_reads {n : Nat} {records : List Record} {fields : List Field}
    (h : Reads s table n (firstRows [] records) fields) (hne : fields ≠ []) :
    IsDescribedBy s n records ⟨table, fields⟩ := by
  have hrow : ∀ f ∈ fields, ∃ row ∈ firstRows [] records, IsOf f row := by
    intro f hf
    obtain ⟨before, after, rfl⟩ := List.append_of_mem hf
    exact h.at.1
  have hfirst : ∀ f ∈ fields, f.name ≠ [] ∧ ∃ row,
      records.find? (fun r => element r = f.name) = some row ∧ IsOf f row := by
    intro f hf
    obtain ⟨row, hmem, hof⟩ := hrow f hf
    have hname : f.name = element row := by rw [hof.2]; rfl
    obtain ⟨hnonempty, -, hfind⟩ := mem_firstRows_iff.mp hmem
    rw [hname]
    exact ⟨hnonempty, row, hfind, hof⟩
  constructor
  case nonempty => exact hne
  case named => exact fun f hf => (hfirst f hf).1
  case distinct =>
      show (fields.map Field.name).Nodup
      rw [h.names]
      exact nodup_firstRows records []
  case inOrder =>
      show fields.map Field.name = _
      rw [h.names, map_element_firstRows]
      simp
  case ofFirst => exact fun f hf => (hfirst f hf).2
  case offered =>
      rintro before f after rfl
      exact h.at.2

/-- **THE TABLE FOR EVERY PATTERN OF ANSWERS.**  A loaded table is what the first answer with rows
describes, and the failure of the request for the choices of one field takes the choices from
that field and changes nothing else.  A refusal is the outcome at once.  When no answer has rows,
there is no table; after a failure one more request decides what is said. -/
theorem outcome_load (s : Source) (table : Text) (made : List Request) :
    (∀ t log, outcome (load s table) made = (.ok t, log) →
      ∃ asked records, EndsWith s table made.length asked (.ok records) ∧ t.name = table ∧
        IsDescribedBy s (made ++ asked).length records t ∧
        log = made ++ asked ++ choiceRequests table t.fields ∧
        ∀ before f after, t.fields = before ++ f :: after → f.type = .choice →
          ∀ (s' : Source) (fault : Fault), fault.isSource = true →
            (∀ n ≠ (made ++ asked ++ choiceRequests table before).length, ∀ r,
              s'.answer n r = s.answer n r) →
            s'.answer (made ++ asked ++ choiceRequests table before).length
              (choiceRequest table f.name) = .error fault →
            outcome (load s' table) made
              = (.ok ⟨table, before ++ { f with choices := [] } :: after⟩, log)) ∧
    (∀ asked f, EndsWith s table made.length asked (.error f) →
      outcome (load s table) made = (.error f, made ++ asked)) ∧
    (AllBarren s table made.length →
      outcome (load s table) made
        = match lastFailure (answers s made.length (requests table)) with
          | none => (.error (nothingFound table), made ++ requests table)
          | some last =>
              (.error (blame table last (s.answer (made ++ requests table).length probe)),
                made ++ requests table ++ [probe])) := by
  refine ⟨fun t log h => ?_, fun asked f => outcome_load_of_fails, fun hbarren => ?_⟩
  · obtain ⟨asked, records, hends, hreads, rfl, hne, rfl⟩ := outcome_load_ok.mp h
    refine ⟨asked, records, hends, rfl, isDescribedBy_of_reads hreads hne, rfl, ?_⟩
    intro before f after hfields hchoice s' fault hfault hsame hfails
    rw [hfields] at hreads
    rw [List.length_append] at hsame hfails
    have hends' : EndsWith s' t.name made.length asked (.ok records) := by
      refine hends.congr fun n hn => hsame n ?_
      rw [List.length_append]
      omega
    have hnone : readChoices (s'.answer
        ((made ++ asked).length + (choiceRequests t.name before).length)
        (choiceRequest t.name f.name)) = .ok [] := by
      rw [hfails]
      exact if_pos hfault
    have hreads' := hreads.with_choices hchoice hsame hnone
    have hne' : before ++ { f with choices := [] } :: after ≠ [] :=
      List.append_ne_nil_of_right_ne_nil _ (List.cons_ne_nil _ _)
    refine outcome_load_ok.mpr ⟨asked, records, hends', hreads', rfl, hne', ?_⟩
    -- the same requests are made: the field keeps its type and its name
    rw [hfields]
    unfold choiceRequests
    rw [List.flatMap_append, List.flatMap_append, List.flatMap_cons, List.flatMap_cons]
  · cases hlast : lastFailure (answers s made.length (requests table)) with
    | none => exact outcome_load_of_none hbarren hlast
    | some last => exact outcome_load_of_barren hbarren hlast

/-- A dictionary of two choice fields and a text, with a row that names nothing and one that names
the first field again; the requests with these numbers fail. -/
def threeFields (failing : Nat → Bool) : Source where
  rows n r :=
    if failing n then .error (.source .network r.table "timed out")
    else if r.table = tableName then .ok
      [Row.ofRecord [("element", .text "state"), ("internal_type", .text "choice")],
       Row.ofRecord [("element", .null), ("internal_type", .text "string")],
       Row.ofRecord [("element", .text "number"), ("max_length", .text "40")],
       Row.ofRecord [("element", .text "state"), ("internal_type", .text "string")],
       Row.ofRecord [("element", .text "impact"), ("internal_type", .text "choice")]]
    else .ok [Row.ofRecord [("value", .text "1"), ("label", .text "New")]]

/-- Of five rows three count, and a failure of the last request takes the choices from its field
only. -/
theorem outcome_load_three_fields :
    let fields : List Field :=
      [{ name := "state", type := .choice, choices := [Choice.of "1" "New"] },
       { name := "number", type := .string, maxLength := 40 }]
    let impact : Field := { name := "impact", type := .choice, choices := [Choice.of "1" "New"] }
    ∃ log, outcome (load (threeFields fun _ => false) "incident") []
        = (.ok ⟨"incident", fields ++ [impact]⟩, log) ∧
      outcome (load (threeFields fun n => n = 2) "incident") []
        = (.ok ⟨"incident", fields ++ [{ impact with choices := [] }]⟩, log) := by
  intro fields impact
  have hload : outcome (load (threeFields fun _ => false) "incident") []
      = (.ok ⟨"incident", fields ++ [impact]⟩,
          (requests "incident").take 1 ++ choiceRequests "incident" (fields ++ [impact])) := rfl
  obtain ⟨asked, -, -, -, -, hlog, hfailing⟩ := (outcome_load _ "incident" []).1 _ _ hload
  -- one request for the rows, then one for the choices of each choice field
  have hasked : asked.length = 1 := by
    have hlength := congrArg List.length hlog
    rw [List.length_append, List.length_append] at hlength
    exact (Nat.add_right_cancel hlength).symm
  have htwo : ([] ++ asked ++ choiceRequests "incident" fields).length = 2 := by
    rw [List.nil_append, List.length_append, hasked]
    rfl
  refine ⟨_, hload, hfailing fields impact [] rfl rfl (threeFields fun n => n = 2)
    (.source .network choiceTableName "timed out") rfl (fun n hn r => ?_) ?_⟩
  · rw [htwo] at hn
    have hrows : (threeFields fun n => n = 2).rows n r = (threeFields fun _ => false).rows n r :=
      if_neg fun h => hn (of_decide_eq_true h)
    unfold Source.answer
    rw [hrows]
  · rw [htwo]
    rfl

end Dictionary

end EncodedQuery

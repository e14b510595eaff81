/-
  EncodedQuery.Proofs.Source.Fallback
  ───────────────────────────────────
  **A TABLE WITHOUT ITS DICTIONARY.**

  When the dictionary gives nothing, a table falls back on the names in its first
  record, and when it shows none, it has no fields.  So every failure of a source is
  made up for.

  What is in a row of the dictionary is not: a length that reads as an infinite number
  is out of range, and that is the one way in which a table fails to load.

  Main result: `Source.loadTable_fails_iff`.
-/
import EncodedQuery.Proofs.Source.Fields
import EncodedQuery.Proofs.Source.Tables

namespace EncodedQuery

open Calling

/-! ## §1. Sources that serve records. -/

/-- The requests that can be made for a table. -/
def Dictionary.Asks (table : Text) (r : Request) : Prop :=
  r ∈ requests table ∨ r = probe ∨ (∃ field, r = choiceRequest table field) ∨
    r = { table, limit := some "1" }

namespace Source

/-- An answer with records whose fields are named by texts, or a failure as sources have. -/
def Serves (e : Except Fault (List Row)) : Prop :=
  (∃ records : List Record, e = .ok (records.map Row.ofRecord)) ∨
    ∃ f : Fault, e = .error f ∧ f.isSource = true

/-- A source answers the requests for a table with records, or it fails as sources do. -/
def ServesRecords (s : Source) (table : Text) : Prop :=
  ∀ n r, Dictionary.Asks table r → Serves (s.rows n r)

/-- Every table of the document lists records. -/
def ListsRecords (tables : List (Text × Json)) : Prop :=
  ∀ entry ∈ tables, ∃ records : List Record, entry.2 = .list (records.map .object)

/-- A step of a choice among records leaves records, or fails as sources do. -/
def LeavesRecords (e : Except Fault Json) : Prop :=
  (∃ records : List Record, e = .ok (.list (records.map .object))) ∨
    ∃ f : Fault, e = .error f ∧ f.isSource = true

theorem leavesRecords_pure (records : List Record) :
    LeavesRecords (pure (.list (records.map .object))) := .inl ⟨records, rfl⟩

theorem leavesRecords_found (table query : Text) (records : List Record) :
    LeavesRecords (found table query (.list (records.map .object))) := by
  cases hparse : Term.parse query with
  | error f =>
      unfold found
      rw [hparse]
      exact .inr ⟨_, rfl, rfl⟩
  | ok ts =>
      by_cases hts : ts = []
      · unfold found
        rw [hparse, hts]
        exact leavesRecords_pure records
      · rw [found_of_parse hts hparse]
        exact leavesRecords_pure _

theorem leavesRecords_limited {limit : Json} {n : Int} (hlimit : limit.toInt = .ok n)
    (records : List Record) : LeavesRecords (limited limit (.list (records.map .object))) := by
  unfold limited
  rw [hlimit]
  show LeavesRecords (.ok (.list (firstItems n (records.map .object))))
  rw [firstItems_map]
  exact leavesRecords_pure _

theorem leavesRecords_projected (fields : Text) (records : List Record) :
    LeavesRecords (projected fields (.list (records.map .object))) := by
  rw [projected_objects]
  exact leavesRecords_pure _

/-- A parameter asks for nothing, or it is a text. -/
theorem nonempty?_map_text (t : Option Text) :
    Json.nonempty? (t.map .text) = none ∨
      ∃ t', t = some t' ∧ Json.nonempty? (t.map .text) = some (.text t') := by
  rcases t with _ | _ | ⟨c, rest⟩
  · exact .inl rfl
  · exact .inl rfl
  · exact .inr ⟨_, rfl, rfl⟩

theorem serves_bind {e : Except Fault Json} {g : Json → Except Fault (List Row)}
    (he : LeavesRecords e)
    (hg : ∀ records : List Record, Serves (g (.list (records.map .object)))) :
    Serves (e >>= g) := by
  obtain ⟨records, rfl⟩ | ⟨f, rfl, hf⟩ := he
  · exact hg records
  · exact .inr ⟨f, rfl, hf⟩

/-- A document of records serves records as long as the limit of a request is a number. -/
theorem serves_ofTables {tables : List (Text × Json)} (h : ListsRecords tables) (n : Nat)
    (r : Request) (hlimit : ∀ t, r.limit = some t → ∃ n, (Json.text t).toInt = .ok n) :
    Serves ((ofTables tables).rows n r) := by
  show Serves (select tables r.table _ _ _)
  unfold select
  cases hrows : Json.lookup? r.table tables with
  | none => exact .inr ⟨_, rfl, rfl⟩
  | some v =>
      obtain ⟨entry, hentry, rfl⟩ := Option.map_eq_some_iff.mp hrows
      obtain ⟨records, hrecords⟩ := h entry (List.mem_of_find?_eq_some hentry)
      rw [hrecords]
      -- each of the three parameters makes a step of its own, or none
      have hrest : ∀ records : List Record, Serves
          ((Json.list (records.map .object)).walked >>= fun rows => rows.mapM rowOf) :=
        fun records => .inl ⟨records, mapM_rowOf records⟩
      rcases nonempty?_map_text r.query with hquery | ⟨q, -, hquery⟩ <;>
        rcases nonempty?_map_text r.limit with hnumber | ⟨t, ht, hnumber⟩ <;>
        rcases nonempty?_map_text r.fields with hfields | ⟨names, -, hfields⟩ <;>
        rw [hquery, hnumber, hfields] <;>
        refine serves_bind ?_ fun found => serves_bind ?_ fun limited => serves_bind ?_ hrest
      all_goals first
        | exact leavesRecords_pure _
        | exact leavesRecords_found _ _ _
        | exact leavesRecords_projected _ _
        | exact (hlimit t ht).elim fun n hn => leavesRecords_limited hn _

/-- **A document of tables that list records serves records** for every table. -/
theorem servesRecords_ofTables {tables : List (Text × Json)} (h : ListsRecords tables)
    (table : Text) : (ofTables tables).ServesRecords table := by
  intro n r hr
  refine serves_ofTables h n r fun t ht => ?_
  have hlimit : r.limit = some "1000" ∨ r.limit = some "5" ∨ r.limit = some "100" ∨
      r.limit = some "1" := by
    rcases hr with hr | rfl | ⟨field, rfl⟩ | rfl
    · refine .inl ?_
      unfold Dictionary.requests at hr
      simp only [List.mem_cons, List.not_mem_nil, or_false] at hr
      rcases hr with rfl | rfl | rfl <;> rfl
    · exact .inr (.inl rfl)
    · exact .inr (.inr (.inl rfl))
    · exact .inr (.inr (.inr rfl))
  rw [ht] at hlimit
  rcases hlimit with h | h | h | h <;> cases h
  exacts [⟨1000, rfl⟩, ⟨5, rfl⟩, ⟨100, rfl⟩, ⟨1, rfl⟩]

end Source

theorem Fault.isSource_of_isPassing {f : Fault} (h : f.isPassing = true) : f.isSource = true := by
  cases f <;> first | rfl | cases h

/-- Texts always have an order. -/
theorem Json.exists_inOrder_of_texts {vs : List Json} (h : ∀ v ∈ vs, v.isString = true) :
    ∃ ws, inOrder vs = .ok ws := by
  have hordered : areOrdered vs = true := by
    simp only [areOrdered, Bool.or_eq_true, List.all_eq_true]
    exact .inl (.inl (.inl h))
  exact ⟨_, if_pos hordered⟩

namespace Dictionary

variable {s : Source} {table : Text} {made : List Request}

theorem isSource_of_answer (h : s.ServesRecords table) {n : Nat} {r : Request} {f : Fault}
    (hr : Asks table r) (hf : s.answer n r = .error f) : f.isSource = true := by
  unfold Source.answer at hf
  obtain ⟨records, hrows⟩ | ⟨f', hrows, hf'⟩ := h n r hr <;> rw [hrows] at hf <;> cases hf
  exact hf'

/-- Choices are always read. -/
theorem exists_offers (h : s.ServesRecords table) (n : Nat) (f : Field) :
    ∃ cs, offers s table n f = .ok cs := by
  unfold offers
  split
  · cases hanswer : s.answer n (choiceRequest table f.name) with
    | ok records => exact ⟨_, rfl⟩
    | error fault =>
        have hasked : Asks table (choiceRequest table f.name) := .inr (.inr (.inl ⟨f.name, rfl⟩))
        exact ⟨[], if_pos (isSource_of_answer h hasked hanswer)⟩
  · exact ⟨[], rfl⟩

/-! ## §2. Lengths. -/

/-- The length in a row reads as an infinite number. -/
def IsEndless (row : Record) : Prop :=
  ∃ x, Number.readReal? (row.shown "max_length") = some x ∧ x.isInf = true

theorem not_isNaN_of_isInf {x : Float} (h : x.isInf = true) : ¬ x.isNaN = true := by
  change x.toModel.unpack.isInf = true at h
  change ¬ x.toModel.unpack.isNaN = true
  cases hx : x.toModel.unpack with
  | infinity sign => exact Bool.false_ne_true
  | _ =>
      rw [hx] at h
      cases h

/-- An infinite number is the only text that is no length. -/
theorem readLength_fails_iff {row : Record} {f : Fault} :
    readLength (row.shown "max_length") = .error f ↔ f = .overflow ∧ IsEndless row := by
  unfold readLength IsEndless
  rcases Number.readReal? (row.shown "max_length") with _ | x
  · refine iff_of_false (fun h => ?_) ?_
    · cases h
    · rintro ⟨-, x, hx, -⟩
      cases hx
  · show (if x.isNaN = true then .ok 0 else (Json.real x).toInt) = _ ↔ _
    by_cases hinf : x.isInf = true
    · rw [if_neg (not_isNaN_of_isInf hinf), Json.toInt, if_neg (not_isNaN_of_isInf hinf),
        if_pos hinf]
      constructor
      · rintro ⟨⟩
        exact ⟨rfl, x, rfl, hinf⟩
      · rintro ⟨rfl, -⟩
        rfl
    · refine iff_of_false ?_ ?_
      · rw [Json.toInt, if_neg hinf]
        intro h
        split at h <;> cases h
      · rintro ⟨-, x', hx', hinf'⟩
        cases hx'
        exact hinf hinf'

/-- Rows are read, unless a length is infinite. -/
theorem outcome_readRows_fails_iff (h : s.ServesRecords table) {rows : List Record} {f : Fault} :
    (outcome (readRows s table rows) made).1 = .error f ↔
      f = .overflow ∧ ∃ row ∈ rows, IsEndless row := by
  induction rows generalizing made with
  | nil => exact iff_of_false nofun fun ⟨_, _, hrow, _⟩ => List.not_mem_nil hrow
  | cons row rest ih =>
      obtain ⟨cs, hcs⟩ := exists_offers h made.length (fieldOf row [] 0)
      simp only [List.mem_cons, exists_eq_or_imp]
      rw [readRows_cons, outcome_bind, outcome_fieldOfRow, hcs]
      cases hlength : readLength (row.shown "max_length") with
      | error fault =>
          obtain ⟨rfl, hendless⟩ := readLength_fails_iff.mp hlength
          show Except.error Fault.overflow = Except.error f ↔ _
          rw [Except.error.injEq, eq_comm, and_iff_left (.inl hendless)]
      | ok n =>
          have hrow : ¬ IsEndless row := fun hendless => by
            rw [readLength_fails_iff.mpr ⟨rfl, hendless⟩] at hlength
            cases hlength
          rw [or_iff_right hrow, ← ih]
          dsimp only [Except.bind, Except.map]
          rw [outcome_bind]
          rcases outcome (readRows s table rest) _ with ⟨_ | fields, made'⟩
          · rfl
          · exact iff_of_false nofun nofun

/-! ## §3. Falling back. -/

theorem isPassing_of_lastFailure {as : List Answer} {last : Fault} (h : ∀ a ∈ as, IsBarren a)
    (hlast : lastFailure as = some last) : last.isPassing = true := by
  obtain ⟨a, ha, hfailure⟩ := List.mem_filterMap.mp (List.mem_of_getLast? hlast)
  rw [failure?_eq_some] at hfailure
  obtain hnone | ⟨f, hf, hpassing⟩ := h a ha
  · rw [hnone] at hfailure
    cases hfailure
  · rw [hfailure] at hf
    cases hf
    exact hpassing

theorem isSource_blame {last : Fault} {a : Answer} (hlast : last.isPassing = true)
    (ha : ∀ f, a = .error f → f.isSource = true) : (blame table last a).isSource = true := by
  cases a with
  | ok records => exact Fault.isSource_of_isPassing hlast
  | error f =>
      have hf := ha f rfl
      cases f with
      | source cause t reason => cases cause <;> rfl
      | _ => cases hf

/-- The dictionary of a table has rows, and the first row of some name has an infinite length. -/
def TellsEndless (s : Source) (table : Text) (n : Nat) : Prop :=
  ∃ asked records row, EndsWith s table n asked (.ok records) ∧ element row ≠ [] ∧
    records.find? (fun r => element r = element row) = some row ∧ IsEndless row

/-- What a dictionary fails with is a failure of the source, or an infinite length. -/
theorem outcome_load_fails (h : s.ServesRecords table) {f : Fault}
    (hf : (outcome (load s table) made).1 = .error f) :
    f.isSource = true ∨ f = .overflow ∧ TellsEndless s table made.length := by
  obtain ⟨asked, fault | records, hends⟩ | hbarren := ends_or_barren s table made.length
  · rw [outcome_load_of_fails hends] at hf
    cases hf
    obtain ⟨earlier, r, later, hrequests, _, _, hanswer, _⟩ := hends
    have hr : r ∈ requests table := hrequests ▸ List.mem_append_right _ List.mem_cons_self
    exact .inl (isSource_of_answer h (.inl hr) hanswer)
  · rw [outcome_load_of_rows (outcome_rows_of_ends hends)] at hf
    split at hf
    · cases hf
      exact .inl rfl
    · cases hf
    next fault log hfields =>
      cases hf
      obtain ⟨rfl, row, hrow, hendless⟩ :=
        (outcome_readRows_fails_iff h).mp (congrArg Prod.fst hfields)
      obtain ⟨hname, -, hfirst⟩ := mem_firstRows_iff.mp hrow
      exact .inr ⟨rfl, asked, records, row, hends, hname, hfirst, hendless⟩
  · cases hlast : lastFailure (answers s made.length (requests table)) with
    | none =>
        rw [outcome_load_of_none hbarren hlast] at hf
        cases hf
        exact .inl rfl
    | some last =>
        rw [outcome_load_of_barren hbarren hlast] at hf
        cases hf
        exact .inl (isSource_blame (isPassing_of_lastFailure hbarren hlast)
          fun fault => isSource_of_answer h (.inr (.inl rfl)))

/-- An infinite length lets the dictionary fail. -/
theorem outcome_load_of_endless (h : s.ServesRecords table)
    (hendless : TellsEndless s table made.length) :
    (outcome (load s table) made).1 = .error .overflow := by
  obtain ⟨asked, records, row, hends, hname, hfirst, hrow⟩ := hendless
  have hfields : (outcome (readRows s table (firstRows [] records)) (made ++ asked)).1
      = .error .overflow :=
    (outcome_readRows_fails_iff h).mpr
      ⟨rfl, row, mem_firstRows_iff.mpr ⟨hname, List.not_mem_nil, hfirst⟩, hrow⟩
  rw [outcome_load_of_rows (outcome_rows_of_ends hends)]
  rcases hrun : outcome (readRows s table (firstRows [] records)) (made ++ asked)
    with ⟨fault | fields, log⟩
  · rw [hrun] at hfields
    cases hfields
    rfl
  · rw [hrun] at hfields
    cases hfields

/-- The names in the first record of a table are texts and have an order. -/
theorem exists_sampledNames (h : s.ServesRecords table) (made : List Request) :
    ∃ names, (outcome (sampledNames s table) made).1 = .ok names := by
  unfold sampledNames
  rw [outcome_bind, outcome_tryCatch, Source.outcome_listRows]
  obtain ⟨records, hrows⟩ | ⟨f, hrows, hf⟩ := h made.length _ (.inr (.inr (.inr rfl)))
  · rw [hrows]
    cases records with
    | nil => exact ⟨[], rfl⟩
    | cons r rest =>
        exact Json.exists_inOrder_of_texts (List.forall_mem_map.mpr fun _ _ => rfl)
  · rw [hrows]
    dsimp only
    rw [if_pos hf]
    exact ⟨[], rfl⟩

end Dictionary

/-- A table is what its dictionary gives, or after a failure of the source it has the names that
its first record shows. -/
theorem Source.outcome_loadTable (s : Source) (table : Text) (made : List Request) :
    outcome (s.loadTable table) made
      = match outcome (Dictionary.load s table) made with
        | (.ok t, log) => (.ok t, log)
        | (.error f, log) =>
            if f.isSource then
              ((outcome (Dictionary.sampledNames s table) log).1.map (Table.textOnly table),
                (outcome (Dictionary.sampledNames s table) log).2)
            else (.error f, log) := by
  unfold loadTable
  rw [outcome_bind, outcome_tryCatch, outcome_bind]
  rcases outcome (Dictionary.load s table) made with ⟨f | t, log⟩
  · dsimp only
    by_cases hf : f.isSource = true
    · rw [if_pos hf, if_pos hf, outcome_bind]
      rcases outcome (Dictionary.sampledNames s table) log with ⟨_ | names, log'⟩ <;> rfl
    · rw [if_neg hf, if_neg hf]
      rfl
  · rfl

/-- **The only thing that is not made up for is an infinite length**, in the row that describes a
field: with it the table fails to load, and without it a table is loaded whatever the source
answers and whenever it fails. -/
theorem Source.loadTable_fails_iff {s : Source} {table : Text} (h : s.ServesRecords table)
    (made : List Request) (f : Fault) :
    (outcome (s.loadTable table) made).1 = .error f ↔
      f = .overflow ∧ Dictionary.TellsEndless s table made.length := by
  rw [Source.outcome_loadTable]
  constructor
  · intro hf
    rcases hload : outcome (Dictionary.load s table) made with ⟨fault | t, log⟩ <;>
      rw [hload] at hf
    · obtain hsource | hoverflow := Dictionary.outcome_load_fails h (congrArg Prod.fst hload)
      · obtain ⟨names, hnames⟩ := Dictionary.exists_sampledNames h log
        dsimp only at hf
        rw [if_pos hsource, hnames] at hf
        cases hf
      · obtain ⟨rfl, hendless⟩ := hoverflow
        cases hf
        exact ⟨rfl, hendless⟩
    · cases hf
  · rintro ⟨rfl, hendless⟩
    have hload := Dictionary.outcome_load_of_endless h hendless
    rcases hrun : outcome (Dictionary.load s table) made with ⟨fault | t, log⟩ <;>
      rw [hrun] at hload <;> cases hload
    rfl

namespace Source

/-- A document without tables has a table without fields. -/
theorem loadTable_of_no_tables :
    ∃ t, (outcome ((ofTables []).loadTable "incident") []).1 = .ok t := by
  have hserves : (ofTables []).ServesRecords "incident" :=
    servesRecords_ofTables (List.forall_mem_nil _) _
  cases hload : (outcome ((ofTables []).loadTable "incident") []).1 with
  | ok t => exact ⟨t, rfl⟩
  | error f =>
      obtain ⟨-, _, _, _, ⟨_, _, _, _, _, _, hanswer, _⟩, _⟩ :=
        (loadTable_fails_iff hserves [] f).mp hload
      cases hanswer

/-- A document with a dictionary of one row, in which the length is a text. -/
def oneRow (length : Text) : List (Text × Json) :=
  [("sys_dictionary", .list [.object
    [("name", .text "incident"), ("element", .text "a"), ("max_length", .text length)]])]

/-- A dictionary can say that the values of a field have an infinite length. -/
theorem loadTable_fails_on_inf :
    (ofTables (oneRow "inf")).ServesRecords "incident" ∧
      (outcome ((ofTables (oneRow "inf")).loadTable "incident") []).1 = .error .overflow := by
  constructor
  · exact servesRecords_ofTables (List.forall_mem_singleton.mpr ⟨[_], rfl⟩) "incident"
  · exact Dictionary.failure?_eq_some.mp (by decide +kernel)

end Source

end EncodedQuery

/-
  EncodedQuery.Proofs.Source.Tables
  ─────────────────────────────────
  **WHAT A DOCUMENT OF TABLES ANSWERS.**

  A table that lists records answers a query with the rows of the records that
  the terms of the query hold of: in the order of the table, and each as often as
  it is listed.

  Main results:
    • `rows_of_parse` — the answer to a query, by its terms,
    • `rows_encodeList` — the answer to the query of conditions, by the runs of
      conditions linked by "or",
    • `rows_append` — the answers to two queries one behind the other,
    • `answer_of_parse` — the answer to a query with a limit and fields.
-/
import EncodedQuery.Proofs.Fault
import EncodedQuery.Proofs.Number.Whole
import EncodedQuery.Proofs.Record.Groups
import EncodedQuery.Source.Tables

namespace EncodedQuery.Source

variable {tables : List (Text × Json)} {table : Text} {records : List Record}

/-! ## §1. Tables of records. -/

/-- Under this name the document lists these records. -/
def Lists (tables : List (Text × Json)) (table : Text) (records : List Record) : Prop :=
  Json.lookup? table tables = some (.list (records.map .object))

/-- The rows of the records with the property. -/
def rowsWhere (records : List Record) (p : Record → Bool) : List Row :=
  (records.filter p).map Row.ofRecord

/-- The request for the records of a table that a query finds, whole and without a limit. -/
def requestFor (table query : Text) : Request := { table, query := some query }

theorem mapM_rowOf (found : List Record) :
    (found.map Json.object).mapM rowOf = .ok (found.map Row.ofRecord) := by
  induction found with
  | nil => rfl
  | cons r rest ih =>
      rw [List.map_cons, List.mapM_cons, ih]
      rfl

/-- The empty query finds every record. -/
theorem rows_of_empty (h : Lists tables table records) (n : Nat) :
    (ofTables tables).rows n (requestFor table []) = .ok (rowsWhere records (fun _ => true)) := by
  show select tables table (some (.text [])) none none = _
  unfold select
  rw [h]
  show (records.map Json.object).mapM rowOf = _
  rw [mapM_rowOf, rowsWhere, List.filter_true]

theorem nonempty?_text {t : Text} (h : t ≠ []) :
    Json.nonempty? (some (.text t)) = some (.text t) := by
  cases t with
  | nil => exact absurd rfl h
  | cons c rest => rfl

/-- A list of records is narrowed down to those that the terms of a query hold of. -/
theorem found_of_parse {query : Text} {ts : List Term} (hts : ts ≠ [])
    (hparse : Term.parse query = .ok ts) (table : Text) (records : List Record) :
    found table query (.list (records.map .object))
      = .ok (.list ((records.filter (fun r => r.matchesTerms ts)).map .object)) := by
  have hmembers : (records.map Json.object).mapM Json.members = .ok records :=
    mapM_map_eq_ok (fun _ _ => rfl)
  unfold found
  rw [hparse]
  cases ts with
  | nil => exact absurd rfl hts
  | cons t rest =>
      show (do
        let found ← (records.map Json.object).mapM Json.members
        return .list ((found.filter (fun r => Record.matchesTerms r (t :: rest))).map .object) :
          Except Fault Json) = _
      rw [hmembers]
      rfl

/-- **What a query finds.**  The records that its terms hold of. -/
theorem rows_of_parse (h : Lists tables table records) {query : Text} {ts : List Term}
    (hquery : query ≠ []) (hts : ts ≠ []) (hparse : Term.parse query = .ok ts) (n : Nat) :
    (ofTables tables).rows n (requestFor table query)
      = .ok (rowsWhere records (fun r => r.matchesTerms ts)) := by
  show select tables table (some (.text query)) none none = _
  unfold select
  rw [h, nonempty?_text hquery]
  show (do
    let rows ← found table query (.list (records.map .object))
    (← rows.walked).mapM rowOf) = _
  rw [found_of_parse hts hparse]
  exact mapM_rowOf _

/-! ## §2. The query of conditions. -/

/-- **THE RECORDS OF CONDITIONS.**  The query of plain conditions finds the records of which in
every run linked by "or" some condition holds. -/
theorem rows_encodeList (h : Lists tables table records) {cs : List Condition}
    (hcs : Chain.Plain cs) (n : Nat) :
    (ofTables tables).rows n (requestFor table (Chain.encodeList cs))
      = .ok (rowsWhere records
          (fun r => (Chain.runs cs).all (fun run => run.any r.satisfies))) := by
  by_cases hempty : cs = []
  · subst hempty
    exact rows_of_empty h n
  have hts : Chain.termsAfter none cs ≠ [] := by
    rw [← List.length_pos_iff, Chain.length_termsAfter]
    exact List.length_pos_iff.mpr hempty
  have hquery : Chain.encodeList cs ≠ [] := by
    intro hnil
    have hparse := hcs.parse_eq
    rw [hnil] at hparse
    exact hts (Except.ok.inj hparse).symm
  rw [rows_of_parse h hquery hts hcs.parse_eq n]
  simp only [Record.matchesTerms_termsAfter _ hempty]

/-- Of four records, two are in one of two states and have no caller. -/
theorem rows_encodeList_state_and_caller :
    let cs : List Condition :=
      [{ field := { name := "state" }, operator := "=", value := "1", link := some .or },
       { field := { name := "state" }, operator := "=", value := "2", link := some .and },
       { field := { name := "caller_id" }, operator := "ISEMPTY" }]
    let waiting : Record := [("number", .text "4"), ("state", .int 2)]
    let assigned : Record := [("number", .text "5"), ("state", .text "1"), ("caller_id", .text "x")]
    let closed : Record := [("number", .text "6"), ("state", .text "7")]
    let opened : Record := [("number", .text "7"), ("state", .text "1"), ("caller_id", .null)]
    let records := [waiting, assigned, closed, opened]
    (ofTables [("incident", .list (records.map .object))]).rows 0
        (requestFor "incident" (Chain.encodeList cs))
      = .ok [Row.ofRecord waiting, Row.ofRecord opened] := by
  intro cs waiting assigned closed opened records
  have hplain : Chain.Plain cs := by
    refine ⟨?_, by rintro c ⟨⟩ x ⟨⟩⟩
    refine List.forall_mem_cons.mpr ⟨?_, List.forall_mem_cons.mpr ⟨?_, ?_⟩⟩
    · exact ⟨⟨'s', _, rfl, rfl, List.all_eq_true.mp rfl⟩, by unfold Condition.HasToken; decide,
        by decide, by decide, by decide⟩
    · exact ⟨⟨'s', _, rfl, rfl, List.all_eq_true.mp rfl⟩, by unfold Condition.HasToken; decide,
        by decide, by decide, by decide⟩
    · rw [List.forall_mem_singleton]
      exact ⟨⟨'c', _, rfl, rfl, List.all_eq_true.mp rfl⟩, by unfold Condition.HasToken; decide,
        by decide, by decide, by decide⟩
  have hlists : Lists [("incident", .list (records.map .object))] "incident" records := rfl
  exact (rows_encodeList hlists hplain 0).trans rfl

/-! ## §3. Queries one behind the other. -/

/-- **THE RECORDS OF TWO QUERIES.**  Behind `^NQ` the second query finds its records too; behind a
bare caret it takes away what it does not find, as long as both are one query and its first letters
are not taken for the separator's. -/
theorem rows_append (h : Lists tables table records) {q₁ q₂ : Text} {ts₁ ts₂ : List Term}
    (h₁ : Term.Tidy q₁) (h₂ : Term.Tidy q₂) (hp₁ : Term.parse q₁ = .ok ts₁)
    (hp₂ : Term.parse q₂ = .ok ts₂) (n : Nat) :
    (ofTables tables).rows n (requestFor table q₁)
        = .ok (rowsWhere records (fun r => r.matchesTerms ts₁)) ∧
      (ofTables tables).rows n (requestFor table q₂)
        = .ok (rowsWhere records (fun r => r.matchesTerms ts₂)) ∧
      (ofTables tables).rows n (requestFor table (q₁ ++ "^NQ" ++ q₂))
        = .ok (rowsWhere records (fun r => r.matchesTerms ts₁ || r.matchesTerms ts₂)) ∧
      ((∀ t ∈ ts₁ ++ ts₂, t.join ≠ some .newQuery) →
        ¬ ("OR" : Text) <+: q₂ → ¬ ("NQ" : Text) <+: q₂ →
        (ofTables tables).rows n (requestFor table (q₁ ++ "^" ++ q₂))
          = .ok (rowsWhere records (fun r => r.matchesTerms ts₁ && r.matchesTerms ts₂))) := by
  have hts₁ := h₁.ne_nil_of_parse hp₁
  have hts₂ := h₂.ne_nil_of_parse hp₂
  have hboth : ∀ sep : Separator, Term.Leads sep q₂ →
      (ofTables tables).rows n (requestFor table (q₁ ++ (sep.token ++ q₂)))
        = .ok (rowsWhere records (fun r => r.matchesTerms (ts₁ ++ Term.rejoin sep ts₂))) :=
    fun sep hsep => rows_of_parse h (h₁.append h₂ sep).ne_nil
      (List.append_ne_nil_of_left_ne_nil hts₁ _) (Term.parse_append h₁ h₂ hsep hp₁ hp₂) n
  refine ⟨rows_of_parse h h₁.ne_nil hts₁ hp₁ n,
    rows_of_parse h h₂.ne_nil hts₂ hp₂ n, ?_, ?_⟩
  · have hnew := hboth .newQuery nofun
    simp only [Record.matchesTerms_append_newQuery _ hts₁ hts₂] at hnew
    rw [List.append_assoc]
    exact hnew
  · intro hone hor hnq
    obtain ⟨hone₁, hone₂⟩ := List.forall_mem_append.mp hone
    have hand := hboth .and (fun _ => ⟨hor, hnq⟩)
    simp only [Record.matchesTerms_append_and _ hts₁ hts₂ hone₁ hone₂] at hand
    rw [List.append_assoc]
    exact hand

/-- Two queries that each find two of three records: together they find three, and one is found by
both. -/
theorem rows_append_state_caller :
    let waiting : Record := [("state", .text "1"), ("caller_id", .text "u1")]
    let assigned : Record := [("state", .text "2"), ("caller_id", .text "u1")]
    let closed : Record := [("state", .text "2")]
    let records := [waiting, assigned, closed]
    let source := ofTables [("incident", .list (records.map .object))]
    source.rows 0 (requestFor "incident" ("caller_id=u1" ++ "^NQ" ++ "state=2^ORstate=3"))
        = .ok (records.map Row.ofRecord) ∧
      source.rows 0 (requestFor "incident" ("caller_id=u1" ++ "^" ++ "state=2^ORstate=3"))
        = .ok [Row.ofRecord assigned] := by
  intro waiting assigned closed records source
  have hlists : Lists [("incident", .list (records.map .object))] "incident" records := rfl
  have hcaller : Term.parse "caller_id=u1" = .ok
      [{ join := none, field := "caller_id", operator := .equals, value := "u1" }] := by decide
  have hstate : Term.parse "state=2^ORstate=3" = .ok
      [{ join := none, field := "state", operator := .equals, value := "2" },
       { join := some .or, field := "state", operator := .equals, value := "3" }] := by decide
  obtain ⟨-, -, hnew, hand⟩ := rows_append hlists ⟨by decide, by decide, by decide⟩
    ⟨by decide, by decide, by decide⟩ hcaller hstate 0
  exact ⟨hnew.trans rfl, (hand (by decide) (by decide) (by decide)).trans rfl⟩

/-! ## §4. Limits and fields. -/

theorem firstItems_map {α β : Type} (f : α → β) (n : Int) (items : List α) :
    firstItems n (items.map f) = (firstItems n items).map f := by
  unfold firstItems
  split
  · exact List.map_take.symm
  · rw [List.length_map]
    exact List.map_take.symm

/-- A limit leaves the first of the rows. -/
theorem limited_ofInt {limit : Int} (hlimit : Number.isWritable limit = true)
    (records : List Record) :
    limited (.text (Text.ofInt limit)) (.list (records.map .object))
      = .ok (.list ((firstItems limit records).map .object)) := by
  have hread : (Json.text (Text.ofInt limit)).toInt = .ok limit := by
    rw [Json.toInt, Number.readInt_ofInt, if_pos hlimit]
  unfold limited
  rw [hread, ← firstItems_map]
  rfl

/-- A limit with too many digits is not read. -/
theorem fails_limited {limit : Int} (hlimit : Number.isWritable limit = false) (rows : Json) :
    Fails (limited (.text (Text.ofInt limit)) rows) := by
  have hread : Fails (Json.text (Text.ofInt limit)).toInt := by
    rw [Json.toInt, Number.readInt_ofInt, if_neg (by rw [hlimit]; exact Bool.false_ne_true)]
    exact fails_error _
  unfold limited
  exact (fails_bind_iff _ _).mpr (.inl hread)

theorem mapM_projectRow (names : List Text) (records : List Record) :
    (records.map Json.object).mapM (projectRow names)
      = .ok (records.map (Record.project names)) := by
  induction records with
  | nil => rfl
  | cons r rest ih =>
      rw [List.map_cons, List.mapM_cons, ih]
      rfl

/-- Of every record the fields with the names are kept. -/
theorem projected_objects (fields : Text) (records : List Record) :
    projected fields (.list (records.map .object))
      = .ok (.list ((records.map (Record.project (fieldNames fields))).map .object)) := by
  show (do
    let found ← (records.map Json.object).mapM (projectRow (fieldNames fields))
    return .list (found.map .object) : Except Fault Json) = _
  rw [mapM_projectRow]
  rfl

/-- The numeral of a number is not empty. -/
theorem ofInt_ne_nil (n : Int) : Text.ofInt n ≠ [] := by
  obtain ⟨d, ds, -, hform | hform⟩ := Text.exists_ofInt_eq n <;> rw [hform] <;> exact nofun

section
variable (h : Lists tables table records) {query : Text} {ts : List Term} (hquery : query ≠ [])
  (hts : ts ≠ []) (hparse : Term.parse query = .ok ts) {fields : Text} (hfields : fields ≠ [])
  (displayValue : Option Text) (n : Nat)
include h hquery hts hparse hfields

/-- The records that the query finds are narrowed down further. -/
theorem select_of_parse (limit : Int) :
    select tables table (some (.text query)) (some (.text (Text.ofInt limit))) (some (.text fields))
      = (do
          let rows ← limited (.text (Text.ofInt limit))
            (.list ((records.filter (fun r => r.matchesTerms ts)).map .object))
          let rows ← projected fields rows
          (← rows.walked).mapM rowOf) := by
  unfold select
  rw [h, nonempty?_text hquery, nonempty?_text (ofInt_ne_nil limit), nonempty?_text hfields]
  show (do
    let rows ← found table query (.list (records.map .object))
    let rows ← limited (.text (Text.ofInt limit)) rows
    let rows ← projected fields rows
    (← rows.walked).mapM rowOf) = _
  rw [found_of_parse hts hparse]
  rfl

/-- **What a request with a query, a limit and fields is answered with**: of the first records that
the query finds, the fields. -/
theorem answer_of_parse {limit : Int} (hlimit : Number.isWritable limit = true) :
    (ofTables tables).answer n
        { table, query := some query, limit := some (Text.ofInt limit), fields := some fields,
          displayValue }
      = .ok ((firstItems limit (records.filter (fun r => r.matchesTerms ts))).map
          (Record.project (fieldNames fields))) := by
  show (do
    return (← select tables table (some (.text query)) (some (.text (Text.ofInt limit)))
      (some (.text fields))).map Row.record : Except Fault (List Record)) = _
  rw [select_of_parse h hquery hts hparse hfields, limited_ofInt hlimit]
  show (do
    let rows ← (do
      let rows ← projected fields (.list (List.map Json.object _))
      (← rows.walked).mapM rowOf)
    return rows.map Row.record : Except Fault (List Record)) = _
  rw [projected_objects]
  show (do
    let rows ← (List.map Json.object _).mapM rowOf
    return rows.map Row.record : Except Fault (List Record)) = _
  rw [mapM_rowOf]
  show Except.ok (List.map Row.record (List.map Row.ofRecord _)) = _
  rw [List.map_map]
  exact congrArg Except.ok (List.map_id _)

/-- The request is not answered when its limit is not read. -/
theorem fails_answer {limit : Int} (hlimit : Number.isWritable limit = false) :
    Fails ((ofTables tables).answer n
      { table, query := some query, limit := some (Text.ofInt limit), fields := some fields,
        displayValue }) := by
  have hrows : Fails (select tables table (some (.text query))
      (some (.text (Text.ofInt limit))) (some (.text fields))) := by
    rw [select_of_parse h hquery hts hparse hfields]
    exact (fails_bind_iff _ _).mpr (.inl (fails_limited hlimit _))
  exact (fails_bind_iff _ _).mpr (.inl hrows)

end

end EncodedQuery.Source

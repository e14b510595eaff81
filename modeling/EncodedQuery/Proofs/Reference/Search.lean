/-
  EncodedQuery.Proofs.Reference.Search
  ────────────────────────────────────
  **WHAT A SEARCH FINDS.**

  A search writes its text into a query, once for each display field.  Without a
  caret and without a tab the text ends where it should, whatever else is in it, and
  each term asks one field for it.  A table of records then answers with the first
  records that have the text in a display field, cut down to the fields that a
  candidate is made of.

  What is looked for is in lower case and without percent signs.  The letters are
  made small first: a capital sigma in front of a percent sign then counts as the
  end of a word, and the text is looked for with another letter than it has.

  Main results:
    • `parse_searchQuery` — the query of a search is read as its terms,
    • `matchesTerms_searchTerms` — what the terms ask of a record,
    • `ofRecord_project` — a candidate needs no other fields than those asked for,
    • `search_answers` — the answer to a search.
-/
import EncodedQuery.Proofs.Number.Whole
import EncodedQuery.Proofs.Reference.Workers
import EncodedQuery.Proofs.Source.Tables
import EncodedQuery.Proofs.Text.Case

namespace EncodedQuery

/-! ## §1. The query of a search. -/

namespace Candidate

/-- One term for each field; behind the first one, they are linked by "or". -/
def termsFor (text : Text) (join : Option Separator) : List Text → List Term
  | [] => []
  | name :: names =>
      { join, field := name, operator := .contains, value := text }
        :: termsFor text (some .or) names

/-- The terms of a search. -/
def searchTerms (text : Text) : List Term := termsFor text none displayFields

variable {text : Text}

theorem mem_termsFor {t : Term} :
    ∀ {join : Option Separator} {names : List Text}, t ∈ termsFor text join names →
      t.field ∈ names ∧ t.operator = .contains ∧ t.value = text ∧
        (t.join = join ∨ t.join = some .or)
  | join, name :: names, h => by
      rcases List.mem_cons.mp h with rfl | h
      · exact ⟨List.mem_cons_self, rfl, rfl, .inl rfl⟩
      · obtain ⟨hfield, hoperator, hvalue, hjoin⟩ := mem_termsFor h
        exact ⟨List.mem_cons_of_mem name hfield, hoperator, hvalue, .inr (or_self_iff.mp hjoin)⟩

/-- Behind the first term, every one is linked by "or". -/
theorem join_of_mem_tail {t : Term} (h : t ∈ (searchTerms text).tail) : t.join = some .or := by
  have hlater : t ∈ termsFor text (some .or) displayFields.tail := h
  exact or_self_iff.mp (mem_termsFor hlater).2.2.2

/-- What one term is written as. -/
def written (text name : Text) : Text := name ++ Operator.contains.token ++ text

/-- The terms are written one behind the other, with the separator between them. -/
theorem compose_termsFor (name : Text) (names : List Text) (join : Option Separator) :
    Term.compose (termsFor text join (name :: names))
      = (join.map Separator.token).getD [] ++
        Text.join "^OR" ((name :: names).map (written text)) := by
  induction names generalizing name join with
  | nil =>
      rw [termsFor, termsFor, Term.compose, List.flatMap_singleton, List.map_singleton, Text.join,
        List.intercalate_singleton]
      rfl
  | cons next names ih =>
      calc Term.compose (termsFor text join (name :: next :: names))
          = ((join.map Separator.token).getD [] ++ written text name) ++
              Term.compose (termsFor text (some .or) (next :: names)) := List.flatMap_cons
        _ = (join.map Separator.token).getD [] ++ (written text name ++ ("^OR" : Text) ++
              Text.join "^OR" ((next :: names).map (written text))) := by
            rw [ih, List.append_assoc, List.append_assoc]
            rfl
        _ = _ := by
            rw [Text.join, Text.join, List.map_cons (a := name), List.map_cons (a := next),
              List.intercalate_cons_cons]

theorem compose_searchTerms : Term.compose (searchTerms text) = searchQuery text :=
  compose_termsFor _ _ none

/-- The names of the display fields are plain. -/
theorem isPlainName_of_mem_displayFields : ∀ name ∈ displayFields, Term.IsPlainName name := by
  have hall : displayFields.all (fun name =>
      name.head?.any Term.isPlainStart && name.tail.all Operator.isPlainChar) = true := by decide
  intro name hname
  have hplain := List.all_eq_true.mp hall name hname
  rw [Bool.and_eq_true, Option.any_eq_true, List.all_eq_true] at hplain
  obtain ⟨⟨c, hc, hstart⟩, hrest⟩ := hplain
  exact ⟨c, name.tail, (List.cons_head?_tail hc).symm, hstart, hrest⟩

/-- The terms of a search for a stripped text can be written. -/
theorem writable_searchTerms (htrim : Text.Trim text) (hcaret : .char '^' ∉ text)
    (htab : .char '\t' ∉ text) :
    Term.Writable (searchTerms text) where
  first := by
    rintro t ⟨⟩
    rfl
  later := by
    intro t ht hnone
    rw [join_of_mem_tail ht] at hnone
    cases hnone
  legible := by
    intro t ht
    obtain ⟨hfield, hoperator, hvalue, -⟩ := mem_termsFor ht
    refine Term.legible_of_plain (isPlainName_of_mem_displayFields _ hfield) (hvalue ▸ hcaret) ?_
    rw [hoperator]
    rintro (⟨⟨⟩⟩ | ⟨⟨⟩⟩)
  tab := by
    intro t ht
    rw [(mem_termsFor ht).2.2.1]
    exact htab
  last := by
    intro t ht
    rw [(mem_termsFor (List.mem_of_getLast? ht)).2.2.1]
    exact htrim.last

/-- **The query of a search is read as its terms.** -/
theorem parse_searchQuery (htrim : Text.Trim text) (hcaret : .char '^' ∉ text)
    (htab : .char '\t' ∉ text) :
    Term.parse (searchQuery text) = .ok (searchTerms text) := by
  rw [← compose_searchTerms, Term.parse_compose_iff (writable_searchTerms htrim hcaret htab)]
  intro t ht
  exact Term.keepsSeparator_of_plain (isPlainName_of_mem_displayFields _ (mem_termsFor ht).1)

theorem searchTerms_ne_nil (text : Text) : searchTerms text ≠ [] := List.cons_ne_nil _ _

theorem searchQuery_ne_nil (text : Text) : searchQuery text ≠ [] := List.cons_ne_nil _ _

/-! ## §2. What the query finds. -/

/-- What is looked for: the text in lower case, without its percent signs. -/
def needle (text : Text) : Text := (Text.lower text).filter (· ≠ .char '%')

/-- The field has the text in it, as it is stored or as it is shown, when its letters are made
small. -/
def Has (small : Text) (r : Record) (name : Text) : Prop :=
  small <:+: Text.lower (r.stored name) ∨ small <:+: Text.lower (r.shown name)

instance (small : Text) (r : Record) (name : Text) : Decidable (Has small r name) :=
  inferInstanceAs (Decidable (_ ∨ _))

/-- A display field of the record has the text in it. -/
def Shows (small : Text) (r : Record) : Prop := ∃ name ∈ displayFields, Has small r name

instance (small : Text) (r : Record) : Decidable (Shows small r) :=
  inferInstanceAs (Decidable (∃ name ∈ displayFields, Has small r name))

/-- One term asks one field for the text. -/
theorem matchesTerm_iff_has {r : Record} {join : Option Separator} {name : Text} :
    r.matchesTerm { join, field := name, operator := .contains, value := text } = true ↔
      Has (needle text) r name := by
  show (Text.contains (Text.lower (r.stored name)) (needle text) ||
    Text.contains (Text.lower (r.shown name)) (needle text)) = true ↔ _
  rw [Bool.or_eq_true, Text.contains_iff, Text.contains_iff]
  rfl

theorem any_termsFor {r : Record} {join : Option Separator} {names : List Text} :
    (termsFor text join names).any r.matchesTerm = true ↔
      ∃ name ∈ names, Has (needle text) r name := by
  induction names generalizing join with
  | nil => simp [termsFor]
  | cons name names ih =>
      rw [termsFor, List.any_cons, Bool.or_eq_true, matchesTerm_iff_has, ih,
        List.exists_mem_cons_iff]

/-- **What the terms of a search ask of a record.** -/
theorem matchesTerms_searchTerms (r : Record) :
    r.matchesTerms (searchTerms text) = decide (Shows (needle text) r) := by
  -- all terms are one group
  have hone : r.matchesTerms (searchTerms text) = (searchTerms text).any r.matchesTerm :=
    Record.matchesTerms_of_or fun _ hu => join_of_mem_tail hu
  rw [hone, Bool.eq_iff_iff, decide_eq_true_eq]
  exact any_termsFor

end Candidate

/-! ## §3. Records with fewer fields. -/

namespace Record

theorem lookup?_put (name other : Text) (v : Json) (r : Record) :
    Json.lookup? name (Json.put other v r)
      = if other = name then some v else Json.lookup? name r := by
  induction r with
  | nil => by_cases heq : other = name <;> simp [Json.put, Json.lookup?, heq]
  | cons m rest ih =>
      unfold Json.lookup? at ih ⊢
      rw [Json.put]
      -- the member in front is the one to be set, or the one looked for, or neither
      by_cases hm : m.1 = other
      · rw [if_pos hm]
        by_cases heq : other = name
        · simp [heq]
        · simp [heq, hm]
      · rw [if_neg hm]
        by_cases hname : m.1 = name
        · have hne : other ≠ name := fun heq => hm (hname.trans heq.symm)
          simp [hname, hne]
        · rw [List.find?_cons_of_neg (by simpa using hname), ih,
            List.find?_cons_of_neg (by simpa using hname)]

/-- A field is right as soon as its name had its turn, and it stays so. -/
theorem lookup?_foldl {name : Text} (r : Record) (names : List Text) (kept : Record)
    (h : Json.lookup? name kept = Json.lookup? name r ∨
      Json.lookup? name kept = none ∧ name ∈ names) :
    Json.lookup? name (names.foldl (fun acc name =>
      match Json.lookup? name r with
      | some v => Json.put name v acc
      | none => acc) kept) = Json.lookup? name r := by
  induction names generalizing kept with
  | nil =>
      rcases h with h | ⟨-, ⟨⟩⟩
      exact h
  | cons next names ih =>
      rw [List.foldl_cons]
      refine ih _ ?_
      cases hnext : Json.lookup? next r with
      | none =>
          dsimp only
          rcases h with h | ⟨hnone, hmem⟩
          · exact .inl h
          · rcases List.mem_cons.mp hmem with rfl | hmem
            · exact .inl (hnone.trans hnext.symm)
            · exact .inr ⟨hnone, hmem⟩
      | some v =>
          dsimp only
          rw [lookup?_put]
          by_cases heq : next = name
          · rw [if_pos heq, ← heq, hnext]
            exact .inl rfl
          · rw [if_neg heq]
            exact h.imp id fun hnone =>
              ⟨hnone.1, (List.mem_cons.mp hnone.2).resolve_left (Ne.symm heq)⟩

/-- **The fields that are kept are what they were.** -/
theorem lookup?_project {names : List Text} {name : Text} (h : name ∈ names) (r : Record) :
    Json.lookup? name (project names r) = Json.lookup? name r :=
  lookup?_foldl r names [] (.inr ⟨rfl, h⟩)

theorem shown_project {names : List Text} {name : Text} (h : name ∈ names) (r : Record) :
    (project names r).shown name = r.shown name := by
  rw [shown, shown, lookup?_project h]

end Record

namespace Candidate

/-- The fields that a search asks for. -/
def askedFields : List Text := ("sys_id" : Text) :: displayFields

/-- **A candidate needs no other fields than those asked for.** -/
theorem ofRecord_project (table : Text) (r : Record) :
    ofRecord table (r.project askedFields) = ofRecord table r := by
  have hlabel : labelOf (r.project askedFields) = labelOf r := by
    have hmap : displayFields.map (fun name => Text.strip ((r.project askedFields).shown name))
        = displayFields.map (fun name => Text.strip (r.shown name)) :=
      List.map_congr_left fun name hname =>
        congrArg Text.strip (Record.shown_project (List.mem_cons_of_mem _ hname) r)
    rw [labelOf, labelOf, hmap]
  have hidentifier : (r.project askedFields).shown "sys_id" = r.shown "sys_id" :=
    Record.shown_project List.mem_cons_self r
  rw [ofRecord, ofRecord, hlabel, hidentifier]

theorem fields_ne_nil : Text.join "," askedFields ≠ [] := List.cons_ne_nil _ _

theorem fieldNames_asked : Source.fieldNames (Text.join "," askedFields) = askedFields := by
  decide +kernel

/-- The candidates of the first records with the text. -/
def firstShowing (table : Text) (records : List Record) (small : Text) (limit : Int) :
    List Candidate :=
  ((records.filter (fun r => decide (Shows small r))).take limit.toNat).map (ofRecord table)

end Candidate

/-! ## §4. The answer to a search. -/

namespace Resolver

open Candidate (needle firstShowing askedFields)

variable {tables : List (Text × Json)} {table : Text} {records : List Record} {r : Resolver}
  {job : SearchJob}

section
variable (h : Source.Lists tables job.table records) (htrim : Text.Trim job.text)
  (hcaret : .char '^' ∉ job.text) (htab : .char '\t' ∉ job.text)
include h htrim hcaret htab

/-- The request of a job is answered with the fields of the first records that have its text. -/
theorem answer_searchRequest {limit : Int} (hlimit : 0 ≤ limit)
    (hwritable : Number.isWritable limit = true) (n : Nat) :
    (Source.ofTables tables).answer n (Candidate.searchRequest job.table job.text limit)
      = .ok (((records.filter (fun r => decide (Candidate.Shows (needle job.text) r))).take
          limit.toNat).map (Record.project askedFields)) := by
  have hanswer := Source.answer_of_parse h (Candidate.searchQuery_ne_nil job.text)
    (Candidate.searchTerms_ne_nil job.text) (Candidate.parse_searchQuery htrim hcaret htab)
    Candidate.fields_ne_nil (some "all") n hwritable
  rw [Candidate.fieldNames_asked, firstItems, if_pos hlimit] at hanswer
  simp only [Candidate.matchesTerms_searchTerms] at hanswer
  exact hanswer

/-- **What a job is answered with**, if its limit can be written. -/
theorem outcome_ask (hlimit : 0 ≤ r.limit) (hwritable : Number.isWritable r.limit = true) :
    (r.ask (Source.ofTables tables) job).1.outcome
      = .ok (firstShowing job.table records (needle job.text) r.limit) := by
  unfold ask
  dsimp only
  rw [answer_searchRequest h htrim hcaret htab hlimit hwritable]
  dsimp only
  have hcandidate : Candidate.ofRecord job.table ∘ Record.project askedFields
      = Candidate.ofRecord job.table := funext (Candidate.ofRecord_project job.table)
  -- the limit is applied a second time, to what is left after the first
  rw [firstItems, if_pos hlimit, ← List.map_take, List.map_map, hcandidate, List.take_take,
    min_self]
  rfl

/-- A limit with too many digits is the end of a job. -/
theorem ok_ask (hwritable : Number.isWritable r.limit = false) :
    (r.ask (Source.ofTables tables) job).1.ok = false := by
  obtain ⟨f, hf⟩ := Source.fails_answer h (Candidate.searchQuery_ne_nil job.text)
    (Candidate.searchTerms_ne_nil job.text) (Candidate.parse_searchQuery htrim hcaret htab)
    Candidate.fields_ne_nil (some "all") r.requests.length hwritable
  have hanswer : (Source.ofTables tables).answer r.requests.length
      (Candidate.searchRequest job.table job.text r.limit) = .error f := hf
  unfold ask SearchResult.ok
  dsimp only
  rw [hanswer]
  rfl

end

/-- A job that is not stale leaves its answer behind the others. -/
theorem inbox_run {source : Source} (hsource : r.source = some source)
    (hstarts : r.starts job = true) :
    (r.run job).inbox = r.inbox ++ [(r.ask source job).1] := by
  unfold run
  rw [hsource]
  dsimp only
  rw [if_pos hstarts]
  rfl

/-- A document of tables gives the same answer at any time. -/
theorem ask_ofTables {r' : Resolver} (hlimit : r'.limit = r.limit) :
    (r'.ask (Source.ofTables tables) job).1 = (r.ask (Source.ofTables tables) job).1 := by
  unfold ask
  rw [hlimit]
  rfl

/-- A submitted job is answered at once, unless jobs wait. -/
theorem inbox_submit_eq {source : Source} (hsource : r.source = some source)
    (hstarts : r.starts job = true) :
    (r.submit job).inbox =
      if r.deferred then r.inbox else r.inbox ++ [(r.ask source job).1] := by
  unfold submit
  dsimp only
  cases hdeferred : r.deferred with
  | true => rfl
  | false =>
      exact inbox_run (r := { r with jobs := r.jobs ++ [job], deferred := false }) hsource hstarts

/-- A text that is long enough is searched for. -/
theorem search_of_le {source : Source} (hsource : r.source = some source) {text : Text}
    (hlength : r.minLength ≤ (Text.strip text).length) :
    r.search table text =
      (some (r.sequence + 1), r.cancel.submit ⟨r.sequence + 1, table, Text.strip text⟩) := by
  unfold search
  dsimp only
  rw [if_neg]
  · rfl
  · show ¬ (r.source.isNone || decide ((Text.strip text).length < r.minLength)) = true
    rw [hsource, decide_eq_false (Nat.not_lt.mpr hlength)]
    exact Bool.false_ne_true

/-- **SEARCHING A DOCUMENT OF TABLES.**  A search for a text that is long enough and holds neither a
caret nor a tab submits one job.  As long as that job is not stale it leaves one answer, whenever it
runs: the candidates of the first records that have the text in a display field, in the order of the
table.  Only a limit that has too many digits to be written is answered with a failure.  What is
looked for is the text without its percent signs, in lower case, unless it has both a capital sigma
and a percent sign; and a candidate is the same whether it is made of the whole record or of the
fields that were asked for. -/
theorem search_answers (h : Source.Lists tables table records)
    (hsource : r.source = some (Source.ofTables tables)) (hlimit : 1 ≤ r.limit) {text : Text}
    (hlength : r.minLength ≤ (Text.strip text).length) (hcaret : .char '^' ∉ Text.strip text)
    (htab : .char '\t' ∉ Text.strip text) :
    ∃ answer : SearchResult,
      answer.job = ⟨r.sequence + 1, table, Text.strip text⟩ ∧
      ((r.search table text).1 = some answer.sequence ∧
        (r.search table text).2.jobs = r.jobs ++ [answer.job] ∧
        (r.search table text).2.inbox = if r.deferred then r.inbox else r.inbox ++ [answer]) ∧
      (∀ r' : Resolver, r'.source = r.source → r'.limit = r.limit → r'.starts answer.job = true →
        (r'.run answer.job).inbox = r'.inbox ++ [answer]) ∧
      (Number.isWritable r.limit = true →
        answer.outcome = .ok (firstShowing table records (needle (Text.strip text)) r.limit)) ∧
      (Number.isWritable r.limit = false → answer.ok = false) ∧
      (.char 'Σ' ∉ Text.strip text ∨ .char '%' ∉ Text.strip text →
        needle (Text.strip text) = Text.lower ((Text.strip text).filter (· ≠ .char '%'))) ∧
      ∀ record : Record, Candidate.ofRecord table (record.project askedFields)
        = Candidate.ofRecord table record := by
  have hsearch : r.search table text = (some (r.sequence + 1), r.cancel.submit _) :=
    search_of_le hsource hlength
  have htrim := Text.trim_strip text
  refine ⟨(r.ask (Source.ofTables tables) ⟨r.sequence + 1, table, Text.strip text⟩).1, rfl, ?_, ?_,
    outcome_ask h htrim hcaret htab (by omega), ok_ask h htrim hcaret htab, ?_,
    Candidate.ofRecord_project table⟩
  · -- the job has the number of the search, so it is not stale when it runs at once
    rw [hsearch]
    refine ⟨rfl, (submit_keeps r.cancel _).2, ?_⟩
    exact inbox_submit_eq (r := r.cancel) hsource (decide_eq_true rfl)
  · -- any later resolver of the same source asks the same
    intro r' hsource' hlimit' hstarts
    rw [← ask_ofTables hlimit']
    exact inbox_run (hsource'.trans hsource) hstarts
  · intro hsigma
    exact (Text.lower_filter (by decide) (by decide) hsigma).symm

/-- Of four records, the first two that show the text are found, one by its title and one by its
number. -/
theorem search_answers_with_two :
    let first : Record := [("sys_id", .text "a1"), ("name", .text " "), ("title", .text "Box 7=OR")]
    let second : Record := [("sys_id", .text "a2"), ("name", .text "BOX 8"), ("email", .null)]
    let third : Record := [("number", .object [("value", .text "x7=o"), ("display_value", .int 7)]),
      ("sys_id", .text "a3")]
    let records := [second, first, third, first]
    let r : Resolver :=
      { source := some (Source.ofTables [("box", .list (records.map .object))]), limit := 2 }
    (r.search "box" " 7=%o ").2.inbox.map SearchResult.candidates
      = [[⟨"a1", "Box 7=OR", "box"⟩, ⟨"a3", "7", "box"⟩]] := by
  intro first second third records r
  have hlists : Source.Lists [("box", .list (records.map .object))] "box" records := rfl
  have hlength : r.minLength ≤ (Text.strip " 7=%o ").length := by decide
  obtain ⟨answer, -, ⟨-, -, hinbox⟩, -, hok, -⟩ := search_answers hlists (r := r) rfl (by decide)
    hlength (by decide) (by decide)
  rw [hinbox]
  show [answer.candidates] = _
  rw [SearchResult.candidates, hok (Number.isWritable_of_lt (by decide))]
  decide +kernel

/-- **A capital sigma in front of a percent sign is looked for as another letter**: without its
percent sign the text is the name of a record, and the search finds nothing. -/
theorem search_misses_sigma :
    let text : Text := "ΑΣ%Α"
    let record : Record := [("sys_id", .text "u1"), ("name", .text "ΑΣΑ")]
    let r : Resolver :=
      { source := some (Source.ofTables [("sys_user", .list [.object record])]) }
    record.shown "name" = text.filter (· ≠ .char '%') ∧
      r.minLength ≤ (Text.strip text).length ∧ .char '^' ∉ text ∧ .char '\t' ∉ text ∧ 1 ≤ r.limit ∧
      (r.search "sys_user" text).2.inbox.map (fun a => (a.ok, a.candidates)) = [(true, [])] := by
  decide +kernel

end Resolver

end EncodedQuery

/-
  EncodedQuery.Proofs.Condition.Reload
  ────────────────────────────────────
  **A QUERY LOADED AS A CHAIN AND WRITTEN AGAIN.**

  Loading a query gives one condition for each term, and the separator of a
  later term becomes the link of the condition before it.  Written again, the
  chain is the row of its terms, less the values behind operators that take
  none.  Blanks that stood behind a separator are not written again: a query
  with none of these and no lost value comes back as it was.  Such a blank can
  be all that keeps `^` apart from a field whose name begins with `OR` or `NQ`;
  without it the separator is read as another one.

  Main results:
    • `encode_of_ofQuery` — a loaded chain is written as the text of its terms,
    • `reload_iff` — the text is read as these terms exactly when every separator
      is kept, and then it asks the same of every record,
    • `encode_ofQuery` — a query without loose blanks comes back as it was.
-/
import EncodedQuery.Proofs.Condition.Encode
import EncodedQuery.Proofs.Record.Match

namespace EncodedQuery

/-! ## §1. Values that are not written. -/

namespace Term

/-- The term as it is written again: without a value behind an operator that takes none. -/
def written (t : Term) : Term :=
  { t with value := if t.operator.isValueless then [] else t.value }

theorem written_eq_self {t : Term} (h : t.operator.isValueless = true → t.value = []) :
    t.written = t := by
  unfold written
  split
  next hop => rw [← h hop]
  next => rfl

theorem map_written_eq_self {ts : List Term}
    (h : ∀ t ∈ ts, t.operator.isValueless = true → t.value = []) : ts.map written = ts := by
  have hid : ∀ t ∈ ts, t.written = id t := fun t ht => written_eq_self (h t ht)
  rw [List.map_congr_left hid, List.map_id]

/-- The value that is written is the value or nothing. -/
theorem written_cases (t : Term) :
    t.written = t ∨ (t.body = t.written.body ++ t.value ∧ t.written.value = []) := by
  unfold written
  split
  · exact Or.inr ⟨by simp [body], rfl⟩
  · exact Or.inl rfl

theorem mem_value_of_mem_written {t : Term} {c : CodePoint} (h : c ∈ t.written.value) :
    c ∈ t.value := by
  rcases t.written_cases with heq | ⟨_, hnil⟩
  · rwa [heq] at h
  · rw [hnil] at h
    exact absurd h (by simp)

/-- **A term without its value is read as itself**: the text that is left has fewer tokens in it. -/
theorem Legible.written {t : Term} (h : t.Legible) : t.written.Legible := by
  refine ⟨?_, fun hmem => h.caret (mem_value_of_mem_written hmem)⟩
  rcases t.written_cases with heq | ⟨hbody, hnil⟩
  · rw [heq]
    exact h.reading
  · -- what begins in the shorter text begins in the longer one too
    obtain ⟨hname, hfree, _⟩ := isReading_body_iff.mp h.reading
    refine isReading_body_iff.mpr ⟨hname, ?_, ?_⟩
    · intro p hpos hp htoken
      refine hfree p hpos hp ?_
      rw [hbody]
      exact htoken.append t.value
    · -- only the operator's own token is left behind the name
      have hdrop : t.written.body.drop t.written.field.length = t.operator.token := by
        rw [drop_body, hnil, List.append_nil]
        rfl
      refine ⟨by rw [hdrop]; exact List.prefix_refl _, ?_⟩
      intro other hother
      rw [hdrop] at hother
      exact hother.length_le

theorem Writable.map_written {ts : List Term} (h : Writable ts) :
    Writable (ts.map Term.written) where
  first := by
    intro t ht
    rw [List.head?_map] at ht
    obtain ⟨u, hu, rfl⟩ := Option.map_eq_some_iff.mp ht
    exact h.first u hu
  later := by
    intro t ht
    rw [← List.map_tail] at ht
    obtain ⟨u, hu, rfl⟩ := List.mem_map.mp ht
    exact h.later u hu
  legible := by
    intro t ht
    obtain ⟨u, hu, rfl⟩ := List.mem_map.mp ht
    exact (h.legible u hu).written
  tab := by
    intro t ht hmem
    obtain ⟨u, hu, rfl⟩ := List.mem_map.mp ht
    exact h.tab u hu (mem_value_of_mem_written hmem)
  last := by
    intro t ht c hc
    rw [List.getLast?_map] at ht
    obtain ⟨u, hu, rfl⟩ := Option.map_eq_some_iff.mp ht
    rcases u.written_cases with heq | ⟨_, hnil⟩
    · rw [heq] at hc
      exact h.last u hu c hc
    · rw [hnil] at hc
      exact absurd hc (by simp)

end Term

theorem Record.matchesTerm_written (r : Record) (t : Term) :
    r.matchesTerm t.written = r.matchesTerm t := by
  unfold Record.matchesTerm Term.written
  split
  next hop => exact Record.holds_of_isValueless hop _ _ _ _
  next => rfl

/-! ## §2. The condition of a term. -/

theorem Table.name_of_field? {t : Table} {name : Text} {f : Field} (h : t.field? name = some f) :
    f.name = name := by
  have hfound := List.find?_some h
  simp only [Bool.and_eq_true, decide_eq_true_eq] at hfound
  exact hfound.2

namespace Chain

open Term (compose)

variable {table : Option Table}

/-- A field is found under the name that was asked for. -/
theorem name_fieldOfTerm (table : Option Table) (name : Text) :
    (fieldOfTerm table name).name = name := by
  unfold fieldOfTerm
  cases h : table.bind (fun t => t.field? name) with
  | none => rfl
  | some f =>
      obtain ⟨t, _, hf⟩ := Option.bind_eq_some_iff.mp h
      exact Table.name_of_field? hf

/-- An empty value is no range. -/
theorem readRange_nil : Instant.readRange [] = .ok none := rfl

/-- The literal of a term's condition is the value that is written. -/
theorem literal_conditionOfTerm (table : Option Table) (t : Term) (link : Option Link) :
    ({ conditionOfTerm table t with link } : Condition).literal = t.written.value := by
  unfold Condition.literal Term.written conditionOfTerm
  simp only [Operator.isOperatorIn_token]
  split
  next => rfl
  next =>
    split
    next hrange =>
      -- "between" with an empty value has no bounds either
      rw [hrange.2, readRange_nil]
      rfl
    next => rfl

theorem termAfter_conditionOfTerm (table : Option Table) (t : Term) (link : Option Link) :
    ({ conditionOfTerm table t with link } : Condition).termAfter t.join = t.written := by
  have hop : (Operator.ofToken? t.operator.token).getD .equals = t.operator := by
    rw [Operator.ofToken?_token]
    rfl
  unfold Condition.termAfter
  rw [literal_conditionOfTerm]
  show Term.mk t.join (fieldOfTerm table t.field).name
    ((Operator.ofToken? t.operator.token).getD .equals) t.written.value = t.written
  rw [name_fieldOfTerm, hop]
  rfl

/-! ## §3. The conditions of terms. -/

/-- The link to the terms that follow: "or" when the first of them is joined so. -/
def linkTo : List Term → Option Link
  | [] => none
  | next :: _ => if next.join = some .or then some .or else some .and

/-- The conditions of terms, each linked to the next one. -/
def conditionsOf (table : Option Table) : List Term → List Condition
  | [] => []
  | t :: rest => { conditionOfTerm table t with link := linkTo rest } :: conditionsOf table rest

/-- **Terms are loaded unless one of them begins a new query.** -/
theorem ofTerms_eq_ok_iff {cs : List Condition} : ∀ {ts : List Term},
    ofTerms table ts = .ok cs
      ↔ (∀ t ∈ ts, t.join ≠ some .newQuery) ∧ cs = conditionsOf table ts := by
  intro ts
  induction ts generalizing cs with
  | nil =>
      constructor
      · intro h
        injection h with h
        exact ⟨by simp, h.symm⟩
      · rintro ⟨_, rfl⟩
        rfl
  | cons t rest ih =>
      rw [List.forall_mem_cons]
      by_cases hnew : t.join = some .newQuery
      · have herror : ofTerms table (t :: rest)
            = .error (.badQuery "^NQ queries cannot be loaded into the builder") := by
          unfold ofTerms
          rw [if_pos hnew]
          rfl
        rw [herror]
        exact iff_of_false (by simp) (fun h => h.1.1 hnew)
      · -- one step puts the first condition in front of those of the rest
        have hstep : ofTerms table (t :: rest) = (ofTerms table rest).map
            (fun later => { conditionOfTerm table t with link := linkTo rest } :: later) := by
          conv_lhs => unfold ofTerms
          rw [if_neg hnew]
          cases rest <;> cases ofTerms table _ <;> rfl
        rw [hstep, and_iff_right hnew]
        cases hrest : ofTerms table rest with
        | error e =>
            refine iff_of_false (by simp [Except.map]) (fun h => ?_)
            have hok : ofTerms table rest = .ok (conditionsOf table rest) := ih.mpr ⟨h.1, rfl⟩
            rw [hrest] at hok
            cases hok
        | ok later =>
            obtain ⟨hjoins, hlater⟩ := ih.mp hrest
            rw [and_iff_right hjoins, conditionsOf, ← hlater]
            constructor
            · intro h
              injection h with h
              exact h.symm
            · intro h
              rw [h]
              rfl

/-- The last condition of loaded terms has no link to take away. -/
theorem unlinkLast_conditionsOf : ∀ ts : List Term,
    unlinkLast (conditionsOf table ts) = conditionsOf table ts
  | [] => rfl
  | [_] => rfl
  | t :: next :: rest => by
      have ih := unlinkLast_conditionsOf (next :: rest)
      show _ :: unlinkLast (conditionsOf table (next :: rest)) = _
      rw [ih]
      rfl

/-- **What a query is loaded as.** -/
theorem ofQuery_eq_ok_iff {query : Text} {s : Chain} :
    ofQuery table query = .ok s ↔ ∃ ts, Term.parse query = .ok ts
      ∧ (∀ t ∈ ts, t.join ≠ some .newQuery) ∧ s = ⟨conditionsOf table ts⟩ := by
  have hquery : ofQuery table query
      = (Term.parse query).bind (fun ts => (ofTerms table ts).map ofList) := by
    unfold ofQuery
    cases Term.parse query with
    | error e => rfl
    | ok ts =>
        show (ofTerms table ts).bind _ = (ofTerms table ts).map ofList
        cases ofTerms table ts <;> rfl
  rw [hquery]
  cases Term.parse query with
  | error e => exact iff_of_false (by simp [Except.bind]) (by simp)
  | ok ts =>
      show (ofTerms table ts).map ofList = .ok s ↔ _
      constructor
      · intro h
        cases hts : ofTerms table ts with
        | error e =>
            rw [hts] at h
            cases h
        | ok cs =>
            rw [hts] at h
            injection h with h
            obtain ⟨hjoins, hcs⟩ := ofTerms_eq_ok_iff.mp hts
            refine ⟨ts, rfl, hjoins, ?_⟩
            rw [← h, hcs, ofList, unlinkLast_conditionsOf]
      · rintro ⟨ts', hts', hjoins, rfl⟩
        injection hts' with hts'
        subst hts'
        rw [ofTerms_eq_ok_iff.mpr ⟨hjoins, rfl⟩]
        show Except.ok (ofList _) = _
        rw [ofList, unlinkLast_conditionsOf]

theorem length_conditionsOf : ∀ ts : List Term, (conditionsOf table ts).length = ts.length
  | [] => rfl
  | _ :: rest => congrArg (· + 1) (length_conditionsOf rest)

theorem getElem?_conditionsOf : ∀ (ts : List Term) (i : Nat),
    (conditionsOf table ts)[i]? = ts[i]?.map
      (fun t => { conditionOfTerm table t with link := linkTo (ts.drop (i + 1)) })
  | [], _ => rfl
  | _ :: _, 0 => rfl
  | _ :: rest, i + 1 => getElem?_conditionsOf rest i

theorem linkTo_eq_or_iff {ts : List Term} {i : Nat} :
    linkTo (ts.drop i) = some .or ↔ ∃ t, ts[i]? = some t ∧ t.join = some .or := by
  rw [← List.head?_drop]
  cases ts.drop i with
  | nil => simp [linkTo]
  | cons next rest =>
      unfold linkTo
      split
      next h => simp [h]
      next h => simp [h]

theorem hasToken_of_mem_conditionsOf {ts : List Term} :
    ∀ c ∈ conditionsOf table ts, c.HasToken := by
  induction ts with
  | nil => intro c h; simp [conditionsOf] at h
  | cons t rest ih =>
      intro c h
      rcases List.mem_cons.mp h with heq | h
      · have hop : c.operator = t.operator.token := by rw [heq]; rfl
        rw [Condition.HasToken, hop]
        exact List.mem_map_of_mem t.operator.mem_byLength
      · exact ih c h

/-- The separator behind a condition is the one that its term was followed by. -/
theorem separator_eq_join {next : Term} (rest : List Term) (c : Condition)
    (hjoin : next.join ≠ none) (hnew : next.join ≠ some .newQuery) :
    some ({ c with link := linkTo (next :: rest) } : Condition).separator = next.join := by
  have hlink : linkTo (next :: rest) = if next.join = some .or then some .or else some .and := rfl
  rw [Condition.separator_eq]
  show some (if linkTo (next :: rest) = some .or then Separator.or else .and) = next.join
  rw [hlink]
  cases hj : next.join with
  | none => exact absurd hj hjoin
  | some sep =>
      cases sep with
      | and => decide
      | or => decide
      | newQuery => exact absurd hj hnew

/-- Loaded conditions are written as the terms that they come from. -/
theorem termsAfter_conditionsOf : ∀ (t : Term) (rest : List Term),
    (∀ u ∈ rest, u.join ≠ none) → (∀ u ∈ rest, u.join ≠ some .newQuery) →
    termsAfter t.join (conditionsOf table (t :: rest)) = (t :: rest).map Term.written
  | t, [], _, _ => by
      rw [conditionsOf, conditionsOf, termsAfter, termsAfter, termAfter_conditionOfTerm,
          List.map_singleton]
  | t, next :: rest, hjoin, hnew => by
      have hseparator := separator_eq_join rest (conditionOfTerm table t)
        (hjoin next List.mem_cons_self) (hnew next List.mem_cons_self)
      have ih := termsAfter_conditionsOf next rest
        (fun u hu => hjoin u (List.mem_cons_of_mem next hu))
        (fun u hu => hnew u (List.mem_cons_of_mem next hu))
      rw [conditionsOf, termsAfter, termAfter_conditionOfTerm, hseparator, ih]
      rfl

/-! ## §4. Loading and writing again. -/

/-- **A loaded chain is written as the text of its terms.** -/
theorem encode_of_ofQuery {query : Text} {s : Chain} (h : ofQuery table query = .ok s) :
    ∃ ts, Term.parse query = .ok ts ∧ Term.Writable ts
      ∧ s.encode = compose (ts.map Term.written) := by
  obtain ⟨ts, hparse, hnew, rfl⟩ := ofQuery_eq_ok_iff.mp h
  have hw := Term.writable_of_parse hparse
  refine ⟨ts, hparse, hw, ?_⟩
  rw [encode, ← compose_termsAfter hasToken_of_mem_conditionsOf]
  cases ts with
  | nil => rfl
  | cons t rest =>
      have hfirst : t.join = none := hw.first t rfl
      rw [← hfirst, termsAfter_conditionsOf t rest hw.later
        (fun u hu => hnew u (List.mem_cons_of_mem t hu))]

/-- The text of a loaded chain is read as its terms exactly when they keep their separators. -/
theorem parse_encode_iff {ts : List Term} (hw : Term.Writable ts) :
    Term.parse (compose (ts.map Term.written)) = .ok (ts.map Term.written)
      ↔ ∀ t ∈ ts, t.KeepsSeparator := by
  rw [Term.parse_compose_iff hw.map_written, List.forall_mem_map]
  rfl

/-- **LOADING A QUERY AND WRITING IT AGAIN.**  The new text is read as the terms of the old one,
less the values that are not written, exactly when no `^` stands in front of a field whose name
begins with `OR` or `NQ`; and then both texts ask the same of every record. -/
theorem reload_iff {query : Text} {s : Chain} (h : ofQuery table query = .ok s) :
    ∃ ts, Term.parse query = .ok ts
      ∧ (Term.parse s.encode = .ok (ts.map Term.written) ↔ ∀ t ∈ ts, t.KeepsSeparator)
      ∧ ((∀ t ∈ ts, t.KeepsSeparator) → ∃ ts', Term.parse s.encode = .ok ts'
          ∧ ∀ r : Record, r.matchesTerms ts' = r.matchesTerms ts) := by
  obtain ⟨ts, hparse, hw, hencode⟩ := encode_of_ofQuery h
  rw [hencode]
  refine ⟨ts, hparse, parse_encode_iff hw, fun hkeep => ?_⟩
  refine ⟨ts.map Term.written, (parse_encode_iff hw).mpr hkeep, fun r => ?_⟩
  exact Record.matchesTerms_map (f := Term.written) (fun _ => rfl) r.matchesTerm_written ts

/-- A blank behind a separator and a value behind `ISEMPTY` are not written again, and nothing is
changed by that. -/
theorem reload_iff_of_three :
    let query : Text := ("a=1^ bISEMPTYx^ORc>2" : Text)
    ∃ s, ofQuery none query = .ok s ∧ ∃ ts, Term.parse query = .ok ts
      ∧ Term.parse s.encode = .ok (ts.map Term.written)
      ∧ ∃ ts', Term.parse s.encode = .ok ts'
          ∧ ∀ r : Record, r.matchesTerms ts' = r.matchesTerms ts := by
  intro query
  obtain ⟨s, hs⟩ : ∃ s, ofQuery none query = .ok s := ⟨_, rfl⟩
  obtain ⟨ts, hts, hiff, hsame⟩ := reload_iff hs
  have hkeep : ∀ t ∈ ts, t.KeepsSeparator := by
    injection hts with hts
    subst hts
    unfold Term.KeepsSeparator
    decide
  exact ⟨s, hs, ts, hts, hiff.mpr hkeep, hsame hkeep⟩

/-- A blank keeps `^` apart from a field `ORb`; without it an "and" is read as an "or". -/
theorem reload_changes_answer :
    ¬ ∀ (table : Option Table) (query : Text) (s : Chain), ofQuery table query = .ok s →
      ∃ ts ts', Term.parse query = .ok ts ∧ Term.parse s.encode = .ok ts'
        ∧ ∀ r : Record, r.matchesTerms ts' = r.matchesTerms ts := by
  intro h
  obtain ⟨s, hs⟩ : ∃ s, ofQuery none "a=1^ ORb=2" = .ok s := ⟨_, rfl⟩
  obtain ⟨ts, ts', hts, hts', hsame⟩ := h none "a=1^ ORb=2" s hs
  injection hs with hs
  subst hs
  injection hts with hts
  injection hts' with hts'
  have hb := hsame [("b", .text "2")]
  rw [← hts, ← hts'] at hb
  exact absurd hb (by decide)

/-- **A QUERY WITHOUT LOOSE BLANKS COMES BACK AS IT WAS.**  It has one condition for each term, and
a condition is linked by "or" exactly when the next term is joined so. -/
theorem encode_ofQuery {query : Text} {ts : List Term} (h : Term.parse query = .ok ts)
    (hnew : ∀ t ∈ ts, t.join ≠ some .newQuery) (hstrip : Text.strip query = query)
    (htab : .char '\t' ∉ query) (hblank : Term.NoLooseBlank query)
    (hvalue : ∀ t ∈ ts, t.operator.isValueless = true → t.value = []) (table : Option Table) :
    ∃ s, ofQuery table query = .ok s ∧ s.encode = query
      ∧ s.conditions.length = ts.length
      ∧ ∀ (i : Nat) (c : Condition), s.conditions[i]? = some c →
          (c.link = some .or ↔ ∃ t, ts[i + 1]? = some t ∧ t.join = some .or) := by
  have hload : ofQuery table query = .ok ⟨conditionsOf table ts⟩ :=
    ofQuery_eq_ok_iff.mpr ⟨ts, h, hnew, rfl⟩
  refine ⟨_, hload, ?_, length_conditionsOf ts, ?_⟩
  · obtain ⟨ts', hparse, _, hencode⟩ := encode_of_ofQuery hload
    obtain rfl : ts = ts' := by
      rw [h] at hparse
      injection hparse
    rw [hencode, Term.map_written_eq_self hvalue, Term.compose_of_parse h hstrip htab hblank]
  · intro i c hc
    have hi : (conditionsOf table ts)[i]? = some c := hc
    rw [getElem?_conditionsOf] at hi
    obtain ⟨t, _, rfl⟩ := Option.map_eq_some_iff.mp hi
    exact linkTo_eq_or_iff

/-- Three terms, with a blank inside of a value and a field name that begins like a separator. -/
theorem encode_ofQuery_of_three :
    let query : Text := ("ORa=1^b!=x y^ORcISEMPTY" : Text)
    let ts : List Term :=
      [⟨none, "ORa", .equals, "1"⟩, ⟨some .and, "b", .notEquals, "x y"⟩,
       ⟨some .or, "c", .isEmpty, []⟩]
    ∃ s, ofQuery none query = .ok s ∧ s.encode = query ∧ s.conditions.length = ts.length
      ∧ ∀ (i : Nat) (c : Condition), s.conditions[i]? = some c →
          (c.link = some .or ↔ ∃ t, ts[i + 1]? = some t ∧ t.join = some .or) := by
  intro query ts
  have hparse : Term.parse query = .ok ts := rfl
  have hstrip : Text.strip query = query := rfl
  have hblank : Term.NoLooseBlank query := by
    intro sep c hc
    simp only [Term.isBreak, decide_eq_true_eq] at hc
    rcases hc with rfl | rfl | rfl <;> cases sep <;> decide +kernel
  exact encode_ofQuery hparse (by decide) hstrip (by decide) hblank (by decide) none

end Chain

end EncodedQuery

/-
  EncodedQuery.Proofs.Condition.Described
  ───────────────────────────────────────
  **CONDITIONS READ BACK FROM THEIR DESCRIPTIONS.**

  A description keeps everything of a condition but two things: a name that is
  no text, and the exact instants of a range, which are shown with their year in
  plain digits and without a fraction of a second.  So a condition on a named
  field, with whole seconds in its range, is read back as it was when the range
  lies in the year 1000 or later; with an earlier year its description cannot be
  read.

  A query may name any year from 1 on.  What is loaded from it is therefore not
  always read back.

  Main results:
    • `Field.ofJson_toJson`, `Condition.ofJson_toJson` — what is read back,
    • `Chain.ofItems_toJson` — a chain of such conditions,
    • `Chain.ofItems_toJson_of_ofQuery` — the chain of a query.
-/
import EncodedQuery.Proofs.Condition.Linked
import EncodedQuery.Proofs.Condition.Reload
import EncodedQuery.Proofs.Fault
import EncodedQuery.Proofs.Instant.Shown

namespace EncodedQuery

/-! ## §1. Fields. -/

theorem FieldType.ofDescription_name (type : FieldType) :
    FieldType.ofDescription (.text type.name) = type := by
  cases type <;> decide

namespace Json

variable {name : Text} {ms : List (Text × Json)}

theorem shownMember_text {t : Text} (h : lookup? name ms = some (.text t)) :
    shownMember name ms = t := by
  rw [shownMember, h]
  rfl

/-- An empty text is nothing, and so it is read. -/
theorem shownUnlessEmpty_text {t : Text} (h : lookup? name ms = some (.text t)) :
    shownUnlessEmpty name ms = t := by
  rw [shownUnlessEmpty, h]
  cases t <;> rfl

theorem flag_bool {b : Bool} (h : lookup? name ms = some (.bool b)) : flag name ms = b := by
  rw [flag, h]
  cases b <;> rfl

end Json

namespace Field

/-- A choice is known by its value and its label. -/
theorem choiceOfJson_object (c : Choice) :
    choiceOfJson (.object [("value", .text c.value), ("label", .text c.label)]) = .ok c := by
  show Except.ok (Choice.of c.value c.label) = .ok c
  rw [Choice.of_self]

/-- The members of a description are found under their names. -/
theorem ofMembers_eq {f : Field} {ms : List (Text × Json)}
    (hchoices : Json.lookup? "choices" ms = some (.list (f.choices.map (fun c =>
      .object [("value", .text c.value), ("label", .text c.label)]))))
    (hlength : Json.lookup? "max_length" ms = some (.int f.maxLength)) :
    ofMembers ms = .ok {
      name := Json.shownMember "name" ms
      label := Json.shownMember "label" ms
      type := FieldType.ofDescription
        ((Json.lookup? "type" ms).getD (.text FieldType.string.name))
      maxLength := f.maxLength
      mandatory := Json.flag "mandatory" ms
      readOnly := Json.flag "read_only" ms
      reference := Json.shownUnlessEmpty "reference" ms
      choices := f.choices
      defaultValue := Json.shownUnlessEmpty "default_value" ms
      description := Json.shownUnlessEmpty "description" ms } := by
  have hnumber : ((Json.nonempty? (some (.int f.maxLength))).getD (.int 0)).toInt
      = .ok f.maxLength := by
    by_cases hn : f.maxLength = 0
    · rw [hn]
      rfl
    · simp [Json.nonempty?, Json.isEmptyValue, hn, Json.toInt]
  have hmap : (f.choices.map (fun c => Json.object [("value", .text c.value),
      ("label", .text c.label)])).mapM choiceOfJson = .ok f.choices :=
    mapM_map_eq_ok (fun c _ => choiceOfJson_object c)
  unfold ofMembers
  rw [hchoices, hlength, hnumber]
  -- no choices are an empty list, and an empty list is not walked
  cases hc : f.choices with
  | nil => rfl
  | cons c cs =>
      rw [hc] at hmap
      show (List.mapM choiceOfJson _ >>= _) = _
      rw [hmap]
      rfl

/-- **A field with a name is read back from its description.** -/
theorem ofJson_toJson {f : Field} (h : f.oddName = none) : ofJson f.toJson = .ok f := by
  obtain ⟨name, label, type, maxLength, mandatory, readOnly, reference, choices, defaultValue,
    description, oddName⟩ := f
  cases h
  refine (ofMembers_eq rfl rfl).trans (congrArg Except.ok ?_)
  rw [Json.shownMember_text (t := name) rfl, Json.shownMember_text (t := label) rfl,
    Json.flag_bool (b := mandatory) rfl, Json.flag_bool (b := readOnly) rfl,
    Json.shownUnlessEmpty_text (t := reference) rfl,
    Json.shownUnlessEmpty_text (t := defaultValue) rfl,
    Json.shownUnlessEmpty_text (t := description) rfl]
  show Field.mk _ _ (FieldType.ofDescription (.text type.name)) _ _ _ _ _ _ _ _ = _
  rw [FieldType.ofDescription_name]

end Field

/-! ## §2. Conditions. -/

namespace Condition

/-- The ends of the range of a condition. -/
def instants (c : Condition) : List Instant := c.start.toList ++ c.stop.toList

/-- What a description can keep: the field has a name, and the ends of the range are whole
seconds. -/
structure IsPlain (c : Condition) : Prop where
  /-- The name of the field is a text. -/
  named : c.field.oddName = none
  /-- The ends of the range are whole seconds. -/
  whole : ∀ t ∈ c.instants, t.micro = 0

/-- How an end of a range is described. -/
def endValue (end? : Option Instant) : Json := (end?.map (fun t => Json.text t.shown)).getD .null

/-- An end of a range is read when it lies in the year 1000 or later. -/
theorem instantOfJson_endValue {end? : Option Instant} (hwhole : ∀ t ∈ end?, t.micro = 0) :
    ((∀ t ∈ end?, 1000 ≤ t.date.year) → instantOfJson (some (endValue end?)) = .ok end?) ∧
    ((∃ t ∈ end?, t.date.year < 1000) → Fails (instantOfJson (some (endValue end?)))) := by
  cases end? with
  | none => exact ⟨fun _ => rfl, fun ⟨_, h, _⟩ => nomatch h⟩
  | some t =>
      have hshown : t.shown ≠ [] := by
        rw [Instant.shown_eq]
        simp
      have hpresent : Json.nonempty? (some (endValue (some t))) = some (.text t.shown) := by
        simp [endValue, Json.nonempty?, Json.isEmptyValue, hshown]
      have hread : instantOfJson (some (endValue (some t)))
          = (Pattern.backend.read t.shown).map some := by
        rw [instantOfJson, hpresent]
        show (Pattern.backend.read t.shown >>= fun i => pure (some i)) = _
        cases Pattern.backend.read t.shown <;> rfl
      rw [hread]
      constructor
      · intro hyear
        rw [Instant.read_shown (hyear t rfl), Instant.wholeSecond_eq_self (hwhole t rfl)]
        rfl
      · rintro ⟨_, ⟨⟩, hyear⟩
        exact (fails_map_iff _ _).mpr (Instant.fails_read_shown hyear)

theorem linkOfJson_name (link : Option Link) :
    linkOfJson (some ((link.map (fun l : Link => Json.text l.name)).getD .null)) = .ok link := by
  rcases link with _ | _ | _ <;> decide

/-- Only the ends of the range can keep a description from being read. -/
theorem ofJson_toJson_eq {c : Condition} (h : c.field.oddName = none) :
    ofJson c.toJson = (do
      let start ← instantOfJson (some (endValue c.start))
      let stop ← instantOfJson (some (endValue c.stop))
      return { c with start, stop }) := by
  show (do
    let field ← Field.ofJson c.field.toJson
    let start ← instantOfJson (some (endValue c.start))
    let stop ← instantOfJson (some (endValue c.stop))
    let link ← linkOfJson (some ((c.link.map (fun l : Link => Json.text l.name)).getD .null))
    return Condition.mk field (Json.shownUnlessEmpty "operator" _)
      (Json.shownUnlessEmpty "value" _) start stop link) = _
  rw [Field.ofJson_toJson h, linkOfJson_name, Json.shownUnlessEmpty_text (t := c.operator) rfl,
    Json.shownUnlessEmpty_text (t := c.value) rfl]
  rfl

/-- **A plain condition is read back from its description when its range lies in the year 1000
or later**, and otherwise the description cannot be read. -/
theorem ofJson_toJson {c : Condition} (h : c.IsPlain) :
    ((∀ t ∈ c.instants, 1000 ≤ t.date.year) → ofJson c.toJson = .ok c) ∧
    ((∃ t ∈ c.instants, t.date.year < 1000) → Fails (ofJson c.toJson)) := by
  have hmem : ∀ t, t ∈ c.instants ↔ t ∈ c.start ∨ t ∈ c.stop := by simp [instants]
  have hstart := instantOfJson_endValue (fun t ht => h.whole t ((hmem t).mpr (.inl ht)))
  have hstop := instantOfJson_endValue (fun t ht => h.whole t ((hmem t).mpr (.inr ht)))
  rw [ofJson_toJson_eq h.named]
  constructor
  · intro hyear
    rw [hstart.1 (fun t ht => hyear t ((hmem t).mpr (.inl ht))),
      hstop.1 (fun t ht => hyear t ((hmem t).mpr (.inr ht)))]
    rfl
  · rintro ⟨t, ht, hyear⟩
    refine (fails_bind_iff_or (fun _ => fails_bind_pure_iff _ _)).mpr ?_
    rcases (hmem t).mp ht with ht | ht
    · exact .inl (hstart.2 ⟨t, ht, hyear⟩)
    · exact .inr (hstop.2 ⟨t, ht, hyear⟩)

end Condition

/-! ## §3. Chains. -/

namespace Chain

variable {s : Chain}

/-- **A linked chain of plain conditions is read back from its descriptions when all its ranges lie
in the year 1000 or later**, and otherwise they cannot be read. -/
theorem ofItems_toJson (hlinked : s.Linked) (hplain : ∀ c ∈ s.conditions, c.IsPlain) :
    ((∀ c ∈ s.conditions, ∀ t ∈ c.instants, 1000 ≤ t.date.year) →
      ofItems s.toJson = .ok s) ∧
    ((∃ c ∈ s.conditions, ∃ t ∈ c.instants, t.date.year < 1000) →
      Fails (ofItems s.toJson)) := by
  constructor
  · intro hyear
    have hread : s.toJson.mapM Condition.ofJson = .ok s.conditions :=
      mapM_map_eq_ok (fun c hc => (Condition.ofJson_toJson (hplain c hc)).1 (hyear c hc))
    rw [ofItems, hread]
    show Except.ok (Chain.mk (unlinkLast s.conditions)) = .ok s
    rw [unlinkLast_eq_self hlinked.last]
  · rintro ⟨c, hc, hyear⟩
    refine (fails_bind_pure_iff _ _).mpr (fails_mapM ?_)
    exact ⟨c.toJson, List.mem_map_of_mem hc, (Condition.ofJson_toJson (hplain c hc)).2 hyear⟩

/-! ## §4. Loaded chains. -/

/-- A field that is found by a text has a name. -/
theorem oddName_fieldOfTerm (table : Option Table) (name : Text) :
    (fieldOfTerm table name).oddName = none := by
  unfold fieldOfTerm
  cases h : table.bind (fun t => t.field? name) with
  | none => rfl
  | some f =>
      obtain ⟨t, _, hf⟩ := Option.bind_eq_some_iff.mp h
      have hfound := List.find?_some hf
      simp only [Bool.and_eq_true, Option.isNone_iff_eq_none] at hfound
      exact hfound.1

/-- The instants beside a loaded value are those that its range literal names. -/
theorem isPlain_conditionOfTerm (table : Option Table) (t : Term) (link : Option Link) :
    ({ conditionOfTerm table t with link } : Condition).IsPlain where
  named := oddName_fieldOfTerm table t.field
  whole := by
    intro i hi
    cases hread : Instant.readRange t.value with
    | error e => simp [conditionOfTerm, Condition.instants, hread, Except.toOption] at hi
    | ok range =>
        cases range with
        | none => simp [conditionOfTerm, Condition.instants, hread, Except.toOption] at hi
        | some ends =>
            obtain ⟨ha, hz⟩ := Instant.micro_of_readRange hread
            have hends : i = ends.1 ∨ i = ends.2 := by
              simpa [conditionOfTerm, Condition.instants, hread, Except.toOption] using hi
            rcases hends with rfl | rfl
            · exact ha
            · exact hz

theorem linked_conditionsOf (table : Option Table) (ts : List Term) :
    Linked ⟨conditionsOf table ts⟩ := by
  induction ts with
  | nil => exact linked_empty
  | cons t rest ih =>
      cases rest with
      | nil => exact ⟨by simp [conditionsOf], by simp [conditionsOf, linkTo]⟩
      | cons next rest =>
          refine ⟨?_, ih.last⟩
          intro c hc
          rcases List.mem_cons.mp hc with rfl | hc
          · show (if next.join = some .or then some Link.or else some .and).isSome = true
            split <;> rfl
          · exact ih.earlier c hc

theorem isPlain_of_mem_conditionsOf {table : Option Table} {ts : List Term} :
    ∀ c ∈ conditionsOf table ts, c.IsPlain := by
  induction ts with
  | nil =>
      intro c hc
      simp [conditionsOf] at hc
  | cons t rest ih =>
      intro c hc
      rcases List.mem_cons.mp hc with rfl | hc
      · exact isPlain_conditionOfTerm table t (linkTo rest)
      · exact ih c hc

/-- **A LOADED QUERY IS READ BACK FROM ITS DESCRIPTIONS WHEN IT NAMES NO YEAR BEFORE 1000.**  A
range that begins or ends before that year is loaded, but its description cannot be read. -/
theorem ofItems_toJson_of_ofQuery {table : Option Table} {query : Text} {s : Chain}
    (h : ofQuery table query = .ok s) :
    ((∀ c ∈ s.conditions, ∀ t ∈ c.instants, 1000 ≤ t.date.year) →
      ofItems s.toJson = .ok s) ∧
    ((∃ c ∈ s.conditions, ∃ t ∈ c.instants, t.date.year < 1000) →
      Fails (ofItems s.toJson)) := by
  obtain ⟨ts, _, _, rfl⟩ := ofQuery_eq_ok_iff.mp h
  exact ofItems_toJson (linked_conditionsOf table ts) isPlain_of_mem_conditionsOf

/-- A range of the year 2024 and a choice beside it. -/
theorem ofItems_toJson_of_ofQuery_2024 :
    let query : Text :=
      ("due=javascript:gs.dateGenerate('2024-1-05 00:00:00','2024-02-29 23:59:59')^state=1" : Text)
    ∃ s, ofQuery none query = .ok s ∧ ofItems s.toJson = .ok s := by
  intro query
  have hload : ofQuery none query = .ok ⟨conditionsOf none
      [⟨none, "due", .equals,
        "javascript:gs.dateGenerate('2024-1-05 00:00:00','2024-02-29 23:59:59')"⟩,
       ⟨some .and, "state", .equals, "1"⟩]⟩ := by decide +kernel
  refine ⟨_, hload, (ofItems_toJson_of_ofQuery hload).1 ?_⟩
  decide +kernel

/-- A range that begins in the year 999 is loaded, and its description cannot be read. -/
theorem not_ofItems_toJson_before_1000 :
    ¬ ∀ (table : Option Table) (query : Text) (s : Chain), ofQuery table query = .ok s →
      ∃ s', ofItems s.toJson = .ok s' ∧ s' = s ∧ s'.encode = s.encode := by
  intro h
  let ts : List Term := [⟨none, "due", .equals,
    "javascript:gs.dateGenerate('0999-01-01 00:00:00','2024-01-01 00:00:00')"⟩]
  have hload : ofQuery none
      "due=javascript:gs.dateGenerate('0999-01-01 00:00:00','2024-01-01 00:00:00')"
      = .ok ⟨conditionsOf none ts⟩ := by decide +kernel
  have hearly : ∃ c ∈ conditionsOf none ts, ∃ t ∈ c.instants, t.date.year < 1000 := by
    decide +kernel
  obtain ⟨s', hs', _⟩ := h none _ _ hload
  have hfails := (ofItems_toJson (linked_conditionsOf none ts) isPlain_of_mem_conditionsOf).2 hearly
  rw [hs'] at hfails
  exact not_fails_ok s' hfails

end Chain

end EncodedQuery

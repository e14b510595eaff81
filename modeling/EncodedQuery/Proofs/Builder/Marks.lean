/-
  EncodedQuery.Proofs.Builder.Marks
  ─────────────────────────────────
  **WHAT MARKED CHOICES MEAN.**

  Enter takes the values of the marked choices, with commas between them, as the
  value of the condition.  The check cuts it at the commas again, strips the pieces
  and looks for each among the choices; a record is matched in the same way.  So
  the check is content, and the records with one of the marked values are found,
  as long as every marked value can be listed.  A value with a comma or with a
  blank at its end cannot: it is taken apart or stripped, and other records are
  found.

  Main results:
    • `Check.condition_of_choices` — what the check says about values of choices,
    • `History.marks_mean` — when marked choices mean what was marked.
-/
import EncodedQuery.Proofs.Builder.Choices
import EncodedQuery.Proofs.Builder.RangeEntry
import EncodedQuery.Proofs.Check.Clear
import EncodedQuery.Proofs.Record.Listed

namespace EncodedQuery

/-! ## §1. The check of choices. -/

namespace Check

/-- The warning about a field that the table does not have. -/
def unknownField (f : Field) : Issue :=
  { severity := .warning, message := "Field '" ++ f.name ++ "' does not exist in table",
    subject := f.name, suggestion := "Use field search to find valid fields" }

/-- The condition asks for values of a list among the choices of its field. -/
structure AsksForChoices (c : Condition) (op : Operator) : Prop where
  /-- The field is a choice field. -/
  type : c.field.type = .choice
  /-- The operator is this one. -/
  operator : c.operator = op.token
  /-- It takes a list of values. -/
  listed : op.isListed = true
  /-- A value is given. -/
  filled : Text.strip c.value ≠ []

variable {c : Condition} {op : Operator} (h : AsksForChoices c op) (table : Option Table)
include h

theorem AsksForChoices.isOperatorIn (p : Operator → Bool) :
    Text.isOperatorIn p c.operator = p op := by
  rw [h.operator, Operator.isOperatorIn_token]

/-- An operator for lists needs a value. -/
theorem AsksForChoices.isValueless : Text.isOperatorIn Operator.isValueless c.operator = false := by
  rw [h.isOperatorIn]
  have hlisted := h.listed
  revert hlisted
  cases op <;> decide

/-- It is not the operator for ranges. -/
theorem AsksForChoices.isRange : isRange c = false := by
  have hne : c.operator ≠ Operator.between.token := by
    rw [h.operator]
    intro heq
    have hlisted := h.listed
    rw [Operator.token_injective heq] at hlisted
    cases hlisted
  unfold Check.isRange
  rw [decide_eq_false hne, Bool.false_and]

theorem AsksForChoices.splitValues :
    splitValues c = (Record.listed (Text.strip c.value)).filter (fun v => !v.isEmpty) := by
  unfold Check.splitValues
  dsimp only
  rw [h.isOperatorIn, h.listed, if_pos rfl]
  rfl

/-- **Nothing stands in the way of choices** on a field with a name. -/
theorem AsksForChoices.clear (hname : c.field.isNameless = false) : Clear (condition table c) := by
  rw [clear_condition_iff, clear_valueIssues_iff]
  refine ⟨hname, ?_, ?_⟩
  · rw [h.operator]
    exact Operator.token_ne_nil op
  · intro _
    refine ⟨.inl h.filled, ?_, ?_⟩
    · intro hrange
      rw [h.isRange] at hrange
      cases hrange
    · intro _
      unfold WellFormed
      rw [h.type]
      trivial

/-- **About values that are choices the check says nothing**; it warns when the table does not have
the field. -/
theorem condition_of_choices (hname : c.field.isNameless = false)
    (hchoices : ∀ v ∈ splitValues c, c.field.hasChoice v = true) :
    ∀ i ∈ condition table c, i = unknownField c.field := by
  have hoperator : operatorIssues c = [] := by
    unfold operatorIssues
    simp [h.type, FieldType.isDate, FieldType.isNumeric]
  have hfilled : (Text.strip c.value).isEmpty = false := List.isEmpty_eq_false_iff.mpr h.filled
  have hvalue : valueIssues c = [] := by
    have hall : (Check.splitValues c).all c.field.hasChoice = true := List.all_eq_true.mpr hchoices
    unfold valueIssues typedIssues
    rw [h.isValueless, h.isRange, hfilled, h.type, hall]
    simp
  have hop : c.operator.isEmpty = false := by
    rw [h.operator]
    exact List.isEmpty_eq_false_iff.mpr (Operator.token_ne_nil op)
  intro i hi
  unfold condition at hi
  dsimp only at hi
  rw [hname, hop, hoperator, hvalue, List.append_nil, List.append_nil] at hi
  simp only [Bool.false_eq_true, if_false] at hi
  split at hi
  · exact List.mem_singleton.mp hi
  · cases hi

omit h in
/-- A field without a name is refused. -/
theorem condition_of_nameless (hname : c.field.isNameless = true) :
    condition table c = [{ severity := .error, message := "Field is required" }] := by
  unfold condition
  dsimp only
  rw [hname]
  rfl

end Check

namespace Builder

/-! ## §2. The marked choices. -/

/-- The values of the marked choices, in the order of the marks. -/
def markedValues (b : Builder) : List Text :=
  b.choiceList.marked.map (fun item => item.value.value)

/-- The condition that the marks make, with a field and an operator. -/
def marksCondition (b : Builder) (f : Field) (op : Operator) : Condition :=
  { field := f, operator := op.token, value := Text.join "," b.markedValues }

/-- Marked choices of the field `f` wait for Enter, with an operator for lists, and not all of their
values are blank. -/
structure HasMarks (b : Builder) (f : Field) (e : OperatorEntry) (op : Operator) : Prop where
  /-- Keys are taken. -/
  active : b.active = true
  /-- A value of a list is asked for. -/
  stage : b.stage = .choice
  /-- Field and operator are chosen, and the choices of the field are listed. -/
  offers : b.Offers f e
  /-- What is marked is listed. -/
  marked : b.choiceList.marked ⊆ b.choiceList.items
  /-- The operator is this one. -/
  token : e.token = op.token
  /-- It takes a list of values. -/
  listed : op.isListed = true
  /-- Some marked value is not blank. -/
  filled : ∃ v ∈ b.markedValues, Text.strip v ≠ []

section
variable {b : Builder} {f : Field} {e : OperatorEntry} {op : Operator}

/-- Choices can only be marked for an operator that takes a list of values. -/
theorem History.exists_hasMarks {table : Table} {settings : Settings} {resolver : Resolver}
    (h : History table settings resolver b) (ha : b.active = true) (hs : b.stage = .choice)
    (hfilled : ∃ v ∈ b.markedValues, Text.strip v ≠ []) : ∃ f e op, b.HasMarks f e op := by
  have hlists := h.listsChoices
  obtain ⟨f, e, ho⟩ := hlists.offers hs
  have hmulti : b.choiceList.multi = true := by
    by_contra hsingle
    obtain ⟨v, hv, _⟩ := hfilled
    unfold markedValues at hv
    rw [ho.single (Bool.eq_false_iff.mpr hsingle)] at hv
    cases hv
  rw [ho.multi, Text.isOperatorIn, Option.any_eq_true] at hmulti
  obtain ⟨op, hop, hlisted⟩ := hmulti
  exact ⟨f, e, op, ha, hs, ho, hlists.inSight.marked, (Operator.ofToken?_eq_some_iff.mp hop).symm,
    hlisted, hfilled⟩

namespace HasMarks

variable (h : b.HasMarks f e op)
include h

theorem values_ne_nil : b.markedValues ≠ [] := by
  obtain ⟨v, hv, _⟩ := h.filled
  exact List.ne_nil_of_mem hv

/-- Every marked value is one of a choice of the field. -/
theorem mem_choices : ∀ v ∈ b.markedValues, ∃ c ∈ f.choices, c.value = v := by
  intro v hv
  obtain ⟨item, hitem, rfl⟩ := List.mem_map.mp hv
  have hlisted := h.marked hitem
  rw [h.offers.items] at hlisted
  obtain ⟨c, hc, rfl⟩ := List.mem_map.mp hlisted
  exact ⟨c, hc, rfl⟩

/-- The condition that the marks make. -/
theorem valueCondition?_eq :
    b.valueCondition? (Text.join "," (chosenValues b.choiceList))
      = some (b.marksCondition f op) := by
  have hmarked : b.choiceList.marked.isEmpty = false := by
    apply List.isEmpty_eq_false_iff.mpr
    intro hnil
    apply h.values_ne_nil
    unfold markedValues
    rw [hnil]
    rfl
  unfold valueCondition? chosenValues marksCondition
  rw [h.offers.field, h.offers.operator, hmarked, ← h.token]
  rfl

/-- **Enter completes it.** -/
theorem completed?_eq (now : Instant) : b.completed? now .enter = some (b.marksCondition f op) := by
  unfold completed? stageCondition?
  rw [h.active, h.stage]
  exact h.valueCondition?_eq

theorem update_enter (now : Instant) :
    b.update now .enter = b.described (b.submit (b.marksCondition f op)) := by
  have hkey : b.choiceKey .enter = b.submit (b.marksCondition f op) := by
    unfold choiceKey
    rw [if_pos rfl, submitValue_eq, h.valueCondition?_eq]
    rfl
  rw [← hkey, update, h.active, stageKey, h.stage]
  rfl

theorem asksForChoices : Check.AsksForChoices (b.marksCondition f op) op where
  type := h.offers.type
  operator := rfl
  listed := h.listed
  filled := by
    -- a blank list would have nothing but blank values
    intro hblank
    obtain ⟨v, hv, hne⟩ := h.filled
    apply hne
    rw [Text.strip_eq_nil_iff] at hblank ⊢
    intro c hc
    exact hblank c (Text.mem_join_of_mem hv hc)

/-- **Nothing stands in its way** on a field with a name that is a text. -/
theorem accepts_iff (hname : f.isNameless = false) (now : Instant) :
    (∃ b', b.update now .enter = .ok b' ∧ b.Accepts (b.marksCondition f op) b') ↔
      (b.conditions.conditions = [] → ¬ OnOddName (b.marksCondition f op)) := by
  have hclear := h.asksForChoices.clear (some b.table) hname
  have haccepted : ¬ b.core.Rejects (b.marksCondition f op) := by
    intro hr
    obtain ⟨i, hi, herror⟩ := List.any_eq_true.mp hr
    rw [hclear i hi] at herror
    cases herror
  have hstage : b.stage ≠ .link := by
    rw [h.stage]
    nofun
  rw [h.update_enter, described_submit_iff rfl rfl rfl hstage rfl]
  exact ⟨fun hadmits => hadmits.1.2, fun hodd => ⟨⟨haccepted, hodd⟩, rfl⟩⟩

/-- **The check knows all values that can be listed.** -/
theorem check_of_listable (hname : f.isNameless = false) (hv : ∀ v ∈ b.markedValues, v.Listable) :
    ∀ i ∈ Check.condition (some b.table) (b.marksCondition f op), i = Check.unknownField f := by
  apply Check.condition_of_choices h.asksForChoices (some b.table) hname
  intro v hsplit
  have htrim := Text.trim_join (fun v hmem => (hv v hmem).trim)
  rw [h.asksForChoices.splitValues] at hsplit
  replace hsplit : v ∈ Record.listed (Text.strip (Text.join "," b.markedValues)) :=
    List.mem_of_mem_filter hsplit
  rw [Text.strip_eq_self htrim, Record.listed_join h.values_ne_nil hv] at hsplit
  obtain ⟨c, hc, rfl⟩ := h.mem_choices v hsplit
  exact List.any_eq_true.mpr ⟨c, hc, decide_eq_true (.inl rfl)⟩

/-- **WHEN MARKS MEAN WHAT WAS MARKED**: on a field with a name, for values that can be listed. -/
theorem mean_iff :
    (∀ i ∈ Check.condition (some b.table) (b.marksCondition f op), i = Check.unknownField f) ∧
      Record.Finds op f.name (b.marksCondition f op).value b.markedValues ↔
    f.isNameless = false ∧ ∀ v ∈ b.markedValues, v.Listable := by
  have hfinds := Record.finds_listed_iff h.listed f.name h.values_ne_nil
  constructor
  · intro hmean
    refine ⟨?_, hfinds.mp hmean.2⟩
    by_contra hnameless
    have hcheck := Check.condition_of_nameless (c := b.marksCondition f op) (some b.table)
      (Bool.not_eq_false _ ▸ hnameless)
    have hissue := hmean.1 _ (hcheck ▸ List.mem_singleton_self _)
    cases congrArg Issue.severity hissue
  · intro hlistable
    exact ⟨h.check_of_listable hlistable.1 hlistable.2, hfinds.mpr hlistable.2⟩

end HasMarks

/-- **WHAT MARKED CHOICES MEAN.**  Whatever happened to the builder: with choices marked, not all of
them blank, Enter completes a condition on the chosen choice field, for the chosen operator, with
the marked values.  On a field with a name it is accepted, unless it would be committed at once and
could not be described.  The check has nothing to say about it but that the table does not have the
field, and it finds the records with one of the marked values, or those without, if and only if the
field has a name and every marked value can be listed: it holds no comma and neither end of it is
blank. -/
theorem History.marks_mean {table : Table} {settings : Settings} {resolver : Resolver}
    (h : History table settings resolver b) (ha : b.active = true) (hs : b.stage = .choice)
    (hfilled : ∃ v ∈ b.markedValues, Text.strip v ≠ []) (now : Instant) :
    ∃ f op, b.field = some f ∧ f.type = .choice ∧
      b.operator.map OperatorEntry.token = some op.token ∧ (op = .inList ∨ op = .notInList) ∧
      (∀ v ∈ b.markedValues, ∃ c ∈ f.choices, c.value = v) ∧
      b.completed? now .enter = some (b.marksCondition f op) ∧
      (f.isNameless = false →
        ((∃ b', b.update now .enter = .ok b' ∧ b.Accepts (b.marksCondition f op) b') ↔
          (b.conditions.conditions = [] → ¬ OnOddName (b.marksCondition f op)))) ∧
      ((∀ i ∈ Check.condition (some b.table) (b.marksCondition f op), i = Check.unknownField f) ∧
          Record.Finds op f.name (b.marksCondition f op).value b.markedValues ↔
        f.isNameless = false ∧ ∀ v ∈ b.markedValues, v.Listable) := by
  obtain ⟨f, e, op, hm⟩ := h.exists_hasMarks ha hs hfilled
  have hop : op = .inList ∨ op = .notInList := by
    have hlisted := hm.listed
    revert hlisted
    cases op <;> decide
  refine ⟨f, op, hm.offers.field, hm.offers.type, ?_, hop, hm.mem_choices, hm.completed?_eq now,
    fun hname => hm.accepts_iff hname now, hm.mean_iff⟩
  rw [hm.offers.operator, ← hm.token]
  rfl

end

/-! ## §3. Two tables. -/

/-- A table with one choice field, of two values. -/
def oneChoice (first second : Text) : Table :=
  ⟨"incident",
    [{ name := "state", label := "State", type := .choice,
       choices := [Choice.of first [], Choice.of second []] }]⟩

/-- The condition on its field. -/
def stateIn (first second value : Text) : Condition :=
  { field := { name := "state", label := "State", type := .choice,
               choices := [Choice.of first [], Choice.of second []] },
    operator := "IN", value }

/-- The field and the operator for lists of values are chosen, and the first value is marked. -/
def markKeys : List Key := [.enter, .down, .down, .enter, .char ' ']

/-- A state in which the marks make that condition. -/
def ShowsMarks (first second : Text) (values : List Text) (b : Builder) : Prop :=
  b.active = true ∧ b.stage = .choice ∧ b.markedValues = values ∧
    b.completed? ides .enter = some (stateIn first second (Text.join "," values))

instance (first second : Text) (values : List Text) (b : Builder) :
    Decidable (ShowsMarks first second values b) := inferInstanceAs (Decidable (_ ∧ _))

/-- Two marked values that can be listed: the records with one of them are found. -/
theorem marks_mean_one_or_seven :
    ∃ b, History (oneChoice "1" "7") {} noSearches b ∧ b.active = true ∧ b.stage = .choice ∧
      (∃ v ∈ b.markedValues, Text.strip v ≠ []) ∧ b.markedValues = [("1" : Text), "7"] ∧
      b.completed? ides .enter = some (stateIn "1" "7" "1,7") ∧
      Record.Finds .inList "state" "1,7" b.markedValues := by
  obtain ⟨b, hb, hshows⟩ := exists_reachable (oneChoice "1" "7") {} noSearches ides
    (markKeys ++ [.down, .char ' ']) (fun b => decide (ShowsMarks "1" "7" ["1", "7"] b))
    (by decide +kernel)
  obtain ⟨ha, hs, hvalues, hcompleted⟩ := of_decide_eq_true hshows
  have hfilled : ∃ v ∈ b.markedValues, Text.strip v ≠ [] := by
    rw [hvalues]
    exact ⟨"1", List.mem_cons_self, by decide⟩
  have hlistable : ∀ v ∈ b.markedValues, v.Listable := by
    rw [hvalues]
    decide
  obtain ⟨f, op, _, _, _, _, _, hcondition, _, hmean⟩ := hb.history.marks_mean ha hs hfilled ides
  have hsame := Option.some.inj (hcompleted.symm.trans hcondition)
  -- field and operator are those of the condition
  have hfield : (stateIn "1" "7" "1,7").field = f := congrArg Condition.field hsame
  have hop : op = .inList := Operator.token_injective (congrArg Condition.operator hsame).symm
  subst hop
  rw [← hsame, ← hfield] at hmean
  exact ⟨b, hb.history, ha, hs, hfilled, hvalues, hcompleted, (hmean.mpr ⟨rfl, hlistable⟩).2⟩

/-- **A marked value with a comma**: the condition does not find the record with it. -/
theorem marks_mean_other :
    ∃ b, Reachable (oneChoice "a,b" "c") {} noSearches b ∧ b.active = true ∧ b.stage = .choice ∧
      b.markedValues = [("a,b" : Text)] ∧
      b.completed? ides .enter = some (stateIn "a,b" "c" "a,b") ∧
      (Check.condition (some (oneChoice "a,b" "c")) (stateIn "a,b" "c" "a,b")).map Issue.message
        = [("Value may not be a valid choice for this field" : Text)] ∧
      Record.matchesTerm [("state", .text "a,b")]
        { join := none, field := "state", operator := .inList, value := "a,b" } = false := by
  obtain ⟨b, hb, hshows⟩ := exists_reachable (oneChoice "a,b" "c") {} noSearches ides markKeys
    (fun b => decide (ShowsMarks "a,b" "c" ["a,b"] b)) (by decide +kernel)
  obtain ⟨ha, hs, hvalues, hcompleted⟩ := of_decide_eq_true hshows
  exact ⟨b, hb, ha, hs, hvalues, hcompleted, by decide +kernel, by decide +kernel⟩

end Builder

end EncodedQuery

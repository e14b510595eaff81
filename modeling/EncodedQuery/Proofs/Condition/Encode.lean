/-
  EncodedQuery.Proofs.Condition.Encode
  ────────────────────────────────────
  **CONDITIONS AND THE TERMS THEY ARE WRITTEN AS.**

  A chain writes its conditions from left to right; the link that a condition
  carries becomes the separator in front of the next one.  `termsAfter` is the
  row of terms behind that text.  When every field name is plain and no literal
  runs into its operator or its separator, the text is read back as just these
  terms.

  Main results:
    • `compose_termsAfter` — the query of a chain is the text of its terms,
    • `parse_encodeList` — the query of plain conditions is read back as them.
-/
import EncodedQuery.Condition.Chain
import EncodedQuery.Proofs.Query.Plain

namespace EncodedQuery

/-! ## §1. The terms of conditions. -/

/-- The token of the condition belongs to an operator. -/
def Condition.HasToken (c : Condition) : Prop := c.operator ∈ Operator.byLength.map Operator.token

/-- The term that a condition is written as behind a separator. -/
def Condition.termAfter (join : Option Separator) (c : Condition) : Term :=
  { join
    field := c.field.name
    operator := (Operator.ofToken? c.operator).getD .equals
    value := c.literal }

theorem Condition.HasToken.token_termAfter {c : Condition} (h : c.HasToken)
    (join : Option Separator) : (c.termAfter join).operator.token = c.operator := by
  obtain ⟨op, _, hop⟩ := List.mem_map.mp h
  rw [termAfter, ← hop, Operator.ofToken?_token, Option.getD_some]

theorem Condition.HasToken.body_termAfter {c : Condition} (h : c.HasToken)
    (join : Option Separator) : (c.termAfter join).body = c.encode := by
  rw [Term.body, h.token_termAfter]
  rfl

theorem Condition.separator_eq (c : Condition) :
    c.separator = if c.link = some .or then .or else .and := by
  unfold separator
  cases c.link with
  | none => rfl
  | some l => cases l <;> rfl

namespace Chain

open Term (compose)

/-- The terms that conditions are written as; each link becomes the separator of the next
term. -/
def termsAfter (join : Option Separator) : List Condition → List Term
  | [] => []
  | c :: rest => c.termAfter join :: termsAfter (some c.separator) rest

theorem length_termsAfter :
    ∀ (join : Option Separator) (cs : List Condition), (termsAfter join cs).length = cs.length
  | _, [] => rfl
  | _, _ :: rest => congrArg (· + 1) (length_termsAfter _ rest)

theorem mem_termsAfter {t : Term} :
    ∀ {join : Option Separator} {cs : List Condition}, t ∈ termsAfter join cs →
      ∃ c ∈ cs, ∃ own, t = c.termAfter own
  | join, c :: rest, h => by
      rcases List.mem_cons.mp h with rfl | h
      · exact ⟨c, List.mem_cons_self, join, rfl⟩
      · obtain ⟨c', hc', own, ht⟩ := mem_termsAfter h
        exact ⟨c', List.mem_cons_of_mem c hc', own, ht⟩

theorem join_of_head?_termsAfter {t : Term} {join : Option Separator} {cs : List Condition}
    (h : t ∈ (termsAfter join cs).head?) : t.join = join := by
  cases cs with
  | nil => exact absurd h (by simp [termsAfter])
  | cons c rest =>
      rw [← Option.some.inj h]
      rfl

theorem join_ne_none_of_mem_termsAfter {t : Term} :
    ∀ {sep : Separator} {cs : List Condition}, t ∈ termsAfter (some sep) cs → t.join ≠ none
  | _, c :: rest, h => by
      rcases List.mem_cons.mp h with rfl | h
      · exact Option.some_ne_none _
      · exact join_ne_none_of_mem_termsAfter h

theorem getLast?_termsAfter {t : Term} :
    ∀ {join : Option Separator} {cs : List Condition}, t ∈ (termsAfter join cs).getLast? →
      ∃ c ∈ cs.getLast?, ∃ own, t = c.termAfter own
  | join, [c], h => ⟨c, rfl, join, (Option.some.inj h).symm⟩
  | _, c :: c' :: rest, h => by
      have hlast : t ∈ (termsAfter (some c.separator) (c' :: rest)).getLast? := h
      obtain ⟨d, hd, own, ht⟩ := getLast?_termsAfter hlast
      exact ⟨d, hd, own, ht⟩

/-- A later term has the separator of the condition before it. -/
theorem getElem?_termsAfter_succ :
    ∀ (join : Option Separator) (cs : List Condition) (i : Nat),
      (termsAfter join cs)[i + 1]?
        = cs[i + 1]?.map (Condition.termAfter (cs[i]?.map Condition.separator))
  | _, [], _ => rfl
  | _, [_], _ => rfl
  | _, _ :: _ :: _, 0 => rfl
  | _, c :: c' :: rest, i + 1 => getElem?_termsAfter_succ (some c.separator) (c' :: rest) i

theorem encodeList_cons_cons (c c' : Condition) (rest : List Condition) :
    encodeList (c :: c' :: rest) = c.encode ++ c.separator.token ++ encodeList (c' :: rest) := rfl

/-- The separator in front of a row is written before it. -/
theorem compose_termsAfter_cons (join : Option Separator) (c : Condition) (rest : List Condition)
    (h : ∀ d ∈ c :: rest, d.HasToken) :
    compose (termsAfter join (c :: rest))
      = (join.map Separator.token).getD [] ++ encodeList (c :: rest) := by
  have hbody := (h c List.mem_cons_self).body_termAfter join
  induction rest generalizing join c with
  | nil =>
      rw [termsAfter, termsAfter, compose, List.flatMap_cons, List.flatMap_nil, List.append_nil,
          hbody]
      rfl
  | cons c' rest ih =>
      have htail : ∀ d ∈ c' :: rest, d.HasToken := fun d hd => h d (List.mem_cons_of_mem c hd)
      have ih := ih (some c.separator) c' htail ((htail c' List.mem_cons_self).body_termAfter _)
      rw [compose] at ih
      rw [termsAfter, compose, List.flatMap_cons, ih, hbody, encodeList_cons_cons,
          List.append_assoc, List.append_assoc]
      rfl

/-- **The query of a chain is the text of its terms.** -/
theorem compose_termsAfter {cs : List Condition} (h : ∀ c ∈ cs, c.HasToken) :
    compose (termsAfter none cs) = encodeList cs := by
  cases cs with
  | nil => rfl
  | cons c rest => exact compose_termsAfter_cons none c rest h

/-! ## §2. Terms that say what conditions say. -/

/-- Terms say what conditions say: one term for each condition, in order, with its field, operator
and literal, and in front of each later term the link of the condition before. -/
structure SaidBy (cs : List Condition) (ts : List Term) : Prop where
  /-- There are as many terms as conditions. -/
  length : ts.length = cs.length
  /-- Each term says what its condition says. -/
  each : ∀ (i : Nat) (c : Condition) (t : Term), cs[i]? = some c → ts[i]? = some t →
    t.field = c.field.name ∧ t.operator.token = c.operator ∧ t.value = c.literal
  /-- The first term has no separator. -/
  first : ∀ t : Term, ts[0]? = some t → t.join = none
  /-- A later term has the separator that the condition before it asks for. -/
  later : ∀ (i : Nat) (c : Condition) (t : Term), cs[i]? = some c → ts[i + 1]? = some t →
    t.join = some (if c.link = some .or then .or else .and)

theorem saidBy_termsAfter {cs : List Condition} (h : ∀ c ∈ cs, c.HasToken) :
    SaidBy cs (termsAfter none cs) where
  length := length_termsAfter none cs
  each := by
    intro i c t hc ht
    have hown : ∃ own, t = c.termAfter own := by
      cases i with
      | zero =>
          cases cs with
          | nil => exact absurd hc (by simp)
          | cons c' rest =>
              obtain rfl : c' = c := Option.some.inj hc
              exact ⟨none, (Option.some.inj ht).symm⟩
      | succ i =>
          rw [getElem?_termsAfter_succ, hc] at ht
          exact ⟨_, (Option.some.inj ht).symm⟩
    obtain ⟨own, rfl⟩ := hown
    exact ⟨rfl, (h c (List.mem_of_getElem? hc)).token_termAfter own, rfl⟩
  first := by
    intro t ht
    rw [← List.head?_eq_getElem?] at ht
    exact join_of_head?_termsAfter ht
  later := by
    intro i c t hc ht
    rw [getElem?_termsAfter_succ, hc] at ht
    obtain ⟨c', _, rfl⟩ := Option.map_eq_some_iff.mp ht
    rw [← c.separator_eq]
    rfl

/-! ## §3. Plain conditions. -/

/-- A condition that nothing in its text can be mistaken for: the field name is plain, the token
belongs to an operator, and the literal runs into neither the token nor the next separator. -/
structure PlainCondition (c : Condition) : Prop where
  /-- The field name is plain. -/
  name : Term.IsPlainName c.field.name
  /-- The token belongs to an operator. -/
  token : c.HasToken
  /-- The literal holds no caret. -/
  caret : .char '^' ∉ c.literal
  /-- The literal holds no tab. -/
  tab : .char '\t' ∉ c.literal
  /-- The literal makes no longer token of `<` or `>`. -/
  equals : c.operator = ("<" : Text) ∨ c.operator = (">" : Text) → ¬ ("=" : Text) <+: c.literal

/-- Plain conditions of which the last one has no blank at the end of its literal. -/
structure Plain (cs : List Condition) : Prop where
  /-- Each condition is plain. -/
  each : ∀ c ∈ cs, PlainCondition c
  /-- The text does not end in a blank of a literal. -/
  last : ∀ c ∈ cs.getLast?, ∀ x ∈ c.literal.getLast?, Text.isBlank x = false

theorem PlainCondition.legible_termAfter {c : Condition} (h : PlainCondition c)
    (join : Option Separator) : (c.termAfter join).Legible := by
  refine Term.legible_of_plain h.name h.caret ?_
  have htoken := h.token.token_termAfter join
  rintro (hop | hop)
  · exact h.equals (Or.inl (by rw [← htoken, hop]; rfl))
  · exact h.equals (Or.inr (by rw [← htoken, hop]; rfl))

/-- The terms of plain conditions can be written. -/
theorem Plain.writable {cs : List Condition} (h : Plain cs) :
    Term.Writable (termsAfter none cs) where
  first := by
    intro t ht
    exact join_of_head?_termsAfter ht
  later := by
    intro t ht
    cases cs with
    | nil => exact absurd ht (by simp [termsAfter])
    | cons c rest => exact join_ne_none_of_mem_termsAfter ht
  legible := by
    intro t ht
    obtain ⟨c, hc, own, rfl⟩ := mem_termsAfter ht
    exact (h.each c hc).legible_termAfter own
  tab := by
    intro t ht
    obtain ⟨c, hc, own, rfl⟩ := mem_termsAfter ht
    exact (h.each c hc).tab
  last := by
    intro t ht
    obtain ⟨c, hc, own, rfl⟩ := getLast?_termsAfter ht
    exact h.last c hc

theorem Plain.hasToken {cs : List Condition} (h : Plain cs) : ∀ c ∈ cs, c.HasToken :=
  fun c hc => (h.each c hc).token

/-- The query of plain conditions is read as the terms they are written as. -/
theorem Plain.parse_eq {cs : List Condition} (h : Plain cs) :
    Term.parse (encodeList cs) = .ok (termsAfter none cs) := by
  rw [← compose_termsAfter h.hasToken, Term.parse_compose_iff h.writable]
  intro t ht
  obtain ⟨c, hc, own, rfl⟩ := mem_termsAfter ht
  exact Term.keepsSeparator_of_plain (h.each c hc).name

/-- **The query of plain conditions is read back as what they say.** -/
theorem parse_encodeList {cs : List Condition} (h : Plain cs) :
    ∃ ts, Term.parse (encodeList cs) = .ok ts ∧ SaidBy cs ts :=
  ⟨termsAfter none cs, h.parse_eq, saidBy_termsAfter h.hasToken⟩

/-- Three conditions, the last of which has a value that is not written. -/
theorem parse_encodeList_priority_or_state :
    let cs : List Condition :=
      [{ field := { name := "priority" }, operator := "<", value := "3", link := some .or },
       { field := { name := "state" }, operator := "NOT IN", value := "6,7", link := some .and },
       { field := { name := "u_note.v2" }, operator := "ISEMPTY", value := "x^y " }]
    ∃ ts, Term.parse (encodeList cs) = .ok ts ∧ SaidBy cs ts := by
  refine parse_encodeList ⟨?_, by rintro c ⟨⟩ x ⟨⟩⟩
  refine List.forall_mem_cons.mpr ⟨?_, List.forall_mem_cons.mpr ⟨?_, ?_⟩⟩
  · exact ⟨⟨'p', _, rfl, rfl, List.all_eq_true.mp rfl⟩, by unfold Condition.HasToken; decide,
      by decide, by decide, by decide⟩
  · exact ⟨⟨'s', _, rfl, rfl, List.all_eq_true.mp rfl⟩, by unfold Condition.HasToken; decide,
      by decide, by decide, by decide⟩
  · rw [List.forall_mem_singleton]
    exact ⟨⟨'u', _, rfl, rfl, List.all_eq_true.mp rfl⟩, by unfold Condition.HasToken; decide,
      by decide, by decide, by decide⟩

end Chain

end EncodedQuery

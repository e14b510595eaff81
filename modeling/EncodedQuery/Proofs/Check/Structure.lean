/-
  EncodedQuery.Proofs.Check.Structure
  ───────────────────────────────────
  **THE STRUCTURE OF A WRITTEN QUERY.**

  The check of a query's structure looks for carets in its text: at its ends,
  one behind the other, around an `OR`, and in front of one.  A query that is
  written from conditions is a row of pieces between carets (`laterPieces`): the
  text of a condition each, with the rest of the separator before it.  Where no
  caret stands in names and literals, these are the only carets.  No piece is
  empty or a bare `OR`, so the check finds no caret out of place, and it counts
  one alternative for each link "or".

  Main result: `structureIssues_encodeList`.
-/
import EncodedQuery.Proofs.Check.Balance
import EncodedQuery.Proofs.Condition.Encode

namespace EncodedQuery

open Text (marked)

/-! ## §1. The text of a condition. -/

namespace Condition

/-- A condition on a field with a name, with the token of an operator, and with no caret in its
name and its literal. -/
structure Separable (c : Condition) : Prop where
  /-- The field has a name. -/
  name : c.field.name ≠ []
  /-- The token belongs to an operator. -/
  token : c.HasToken
  /-- The name holds no caret. -/
  caretName : .char '^' ∉ c.field.name
  /-- The literal holds no caret. -/
  caretLiteral : .char '^' ∉ c.literal

variable {c : Condition}

theorem HasToken.exists_operator (h : c.HasToken) : ∃ op : Operator, c.operator = op.token := by
  obtain ⟨op, _, hop⟩ := List.mem_map.mp h
  exact ⟨op, hop.symm⟩

theorem Separable.caret_not_mem_encode (h : c.Separable) : .char '^' ∉ c.encode := by
  obtain ⟨op, hop⟩ := h.token.exists_operator
  intro hmem
  rcases List.mem_append.mp hmem with hmem | hmem
  · rcases List.mem_append.mp hmem with hmem | hmem
    · exact h.caretName hmem
    · rw [hop] at hmem
      exact op.caret_not_mem_token hmem
  · exact h.caretLiteral hmem

/-- The text of a condition begins with `OR` only if its name does: no token begins with an `R`. -/
theorem Separable.or_prefix_name (h : c.Separable) (hor : ("OR" : Text) <+: c.encode) :
    ("OR" : Text) <+: c.field.name := by
  obtain ⟨op, hop⟩ := h.token.exists_operator
  have hname : c.field.name <+: c.encode := by
    rw [encode, List.append_assoc]
    exact List.prefix_append _ _
  by_cases hlength : 2 ≤ c.field.name.length
  · exact List.prefix_of_prefix_length_le hor hname hlength
  · -- the name is a single character, and the token comes right behind it
    obtain ⟨x, hx⟩ : ∃ x, c.field.name = [x] := by
      have hpos : 0 < c.field.name.length := List.length_pos_iff.mpr h.name
      exact List.length_eq_one_iff.mp (by omega)
    have htable : ∀ op ∈ Operator.byLength, op.token.head? ≠ some (.char 'R') := by decide
    have hencode : c.encode = x :: (op.token ++ c.literal) := by
      rw [encode, hx, hop]
      rfl
    rw [hencode] at hor
    obtain ⟨-, hr⟩ := List.cons_prefix_cons.mp hor
    obtain ⟨y, rest, htoken⟩ := List.exists_cons_of_ne_nil op.token_ne_nil
    rw [htoken] at hr
    have hy : 'R' = y := (List.cons_prefix_cons.mp hr).1
    refine absurd ?_ (htable op op.mem_byLength)
    rw [htoken, ← hy]
    rfl

/-- It is longer than a bare `OR`. -/
theorem Separable.encode_ne_or (h : c.Separable) : c.encode ≠ ("OR" : Text) := by
  intro heq
  obtain ⟨rest, hrest⟩ := h.or_prefix_name (heq ▸ List.prefix_refl _)
  obtain ⟨op, hop⟩ := h.token.exists_operator
  have hpos : 0 < op.token.length := List.length_pos_iff.mpr op.token_ne_nil
  have hlength := congrArg List.length heq
  rw [encode, ← hrest, hop, List.length_append, List.length_append, List.length_append] at hlength
  omega

theorem Separable.encode_ne_nil (h : c.Separable) : c.encode ≠ [] :=
  List.append_ne_nil_of_left_ne_nil (List.append_ne_nil_of_left_ne_nil h.name _) _

end Condition

/-! ## §2. The pieces of a query. -/

namespace Chain

/-- The pieces behind the carets: each condition, behind the rest of the separator before it. -/
def laterPieces : Separator → List Condition → List Text
  | _, [] => []
  | sep, c :: rest => (sep.suffix ++ c.encode) :: laterPieces c.separator rest

/-- The number of conditions that are linked to the next one by "or". -/
def orLinks (cs : List Condition) : Nat :=
  (cs.zip cs.tail).countP (fun (c, _) => c.link = some .or)

/-- **A query is its first condition and the later pieces, each behind a caret.** -/
theorem encodeList_eq (c : Condition) (rest : List Condition) :
    encodeList (c :: rest) = c.encode ++ marked '^' (laterPieces c.separator rest) := by
  induction rest generalizing c with
  | nil => exact (List.append_nil _).symm
  | cons c' rest ih =>
      rw [encodeList_cons_cons, ih, Separator.token_eq, laterPieces, Text.marked_cons]
      simp only [List.append_assoc, List.cons_append]

theorem mem_laterPieces {piece : Text} :
    ∀ {sep : Separator} {cs : List Condition}, piece ∈ laterPieces sep cs →
      ∃ c ∈ cs, ∃ own : Separator, piece = own.suffix ++ c.encode
  | sep, c :: rest, h => by
      rcases List.mem_cons.mp h with rfl | h
      · exact ⟨c, List.mem_cons_self, sep, rfl⟩
      · obtain ⟨d, hd, own, heq⟩ := mem_laterPieces h
        exact ⟨d, List.mem_cons_of_mem c hd, own, heq⟩

section
variable {sep : Separator} {cs : List Condition} (h : ∀ c ∈ cs, c.Separable)
include h

theorem caret_not_mem_laterPieces : ∀ piece ∈ laterPieces sep cs, .char '^' ∉ piece := by
  intro piece hpiece hmem
  obtain ⟨c, hc, own, rfl⟩ := mem_laterPieces hpiece
  rcases List.mem_append.mp hmem with hmem | hmem
  · exact own.caret_not_mem_suffix hmem
  · exact (h c hc).caret_not_mem_encode hmem

theorem nil_not_mem_laterPieces : [] ∉ laterPieces sep cs := by
  intro hmem
  obtain ⟨c, hc, own, heq⟩ := mem_laterPieces hmem
  exact (h c hc).encode_ne_nil (List.append_eq_nil_iff.mp heq.symm).2

theorem or_not_mem_laterPieces : ("OR" : Text) ∉ laterPieces sep cs := by
  intro hmem
  obtain ⟨c, hc, own, heq⟩ := mem_laterPieces hmem
  cases own with
  | and => exact (h c hc).encode_ne_or heq.symm
  | or =>
      -- behind the separator's own `OR` nothing is left for the condition
      have hnil : c.encode = [] :=
        List.append_cancel_left (heq.symm.trans (List.append_nil ("OR" : Text)).symm)
      exact (h c hc).encode_ne_nil hnil
  | newQuery => exact absurd (List.cons.inj heq).1 (by decide)

end

/-- **A piece begins with `OR` for each link "or"**, as long as no name does. -/
theorem countP_laterPieces {c : Condition} {rest : List Condition}
    (h : ∀ d ∈ rest, d.Separable) (hor : ∀ d ∈ rest, ¬ ("OR" : Text) <+: d.field.name) :
    (laterPieces c.separator rest).countP (fun p => ("OR" : Text).isPrefixOf p)
      = orLinks (c :: rest) := by
  induction rest generalizing c with
  | nil => rfl
  | cons d rest ih =>
      obtain ⟨hd, hrest⟩ := List.forall_mem_cons.mp h
      obtain ⟨hdor, hrestor⟩ := List.forall_mem_cons.mp hor
      have hpiece : ("OR" : Text).isPrefixOf (c.separator.suffix ++ d.encode)
          = decide (c.link = some .or) := by
        rw [Bool.eq_iff_iff, List.isPrefixOf_iff_prefix, decide_eq_true_iff, c.separator_eq]
        by_cases hlink : c.link = some .or
        · rw [if_pos hlink]
          exact iff_of_true (List.prefix_append _ _) hlink
        · rw [if_neg hlink]
          exact iff_of_false (fun hprefix => hdor (hd.or_prefix_name hprefix)) hlink
      show List.countP _ ((c.separator.suffix ++ d.encode) :: laterPieces d.separator rest)
        = List.countP _ ((c, d) :: (d :: rest).zip rest)
      rw [List.countP_cons, List.countP_cons, ih hrest hrestor, hpiece]
      rfl

end Chain

/-! ## §3. The findings. -/

namespace Check

open Chain

/-- No caret of the query is out of place: at an end, around an `OR` at the end, or in front of
another separator. -/
structure CaretsInPlace (query : Text) : Prop where
  /-- None stands at the beginning. -/
  first : Text.startsWith query "^" = false
  /-- None stands at the end. -/
  last : Text.endsWith query "^" = false
  /-- None stands in front of a bare `OR` at the end. -/
  lastOr : Text.endsWith query "^OR" = false
  /-- None stands behind another one. -/
  doubled : Text.contains query "^^" = false
  /-- None stands behind a bare `OR`. -/
  doubledOr : Text.contains query "^OR^" = false

/-- **The carets of a written query are in their places.** -/
theorem caretsInPlace_encodeList {cs : List Condition} (hcs : cs ≠ [])
    (h : ∀ c ∈ cs, c.Separable) : CaretsInPlace (encodeList cs) := by
  obtain ⟨c, rest, rfl⟩ := List.exists_cons_of_ne_nil hcs
  obtain ⟨hc, hrest⟩ := List.forall_mem_cons.mp h
  have hs : .char '^' ∉ c.encode := hc.caret_not_mem_encode
  have hp : ∀ p ∈ laterPieces c.separator rest, .char '^' ∉ p := caret_not_mem_laterPieces hrest
  have hnil : [] ∉ laterPieces c.separator rest := nil_not_mem_laterPieces hrest
  have hor : ("OR" : Text) ∉ laterPieces c.separator rest := or_not_mem_laterPieces hrest
  have hw : .char '^' ∉ ("OR" : Text) := by decide
  rw [encodeList_eq]
  refine ⟨?_, ?_, ?_, ?_, ?_⟩ <;> rw [Bool.eq_false_iff]
  · intro hfirst
    obtain ⟨x, name, hname⟩ := List.exists_cons_of_ne_nil hc.encode_ne_nil
    rw [hname] at hs hfirst
    have hx : '^' = x := (List.cons_prefix_cons.mp (List.isPrefixOf_iff_prefix.mp hfirst)).1
    exact hs (hx ▸ List.mem_cons_self)
  · intro hlast
    have hpiece := Text.getLast?_of_suffix hs hp List.not_mem_nil
      (List.isSuffixOf_iff_suffix.mp hlast)
    exact hnil (List.mem_of_getLast? hpiece)
  · intro hlast
    have hpiece := Text.getLast?_of_suffix hs hp hw (List.isSuffixOf_iff_suffix.mp hlast)
    exact hor (List.mem_of_getLast? hpiece)
  · intro hinside
    exact hnil (Text.mem_of_between hs hp List.not_mem_nil (Text.contains_iff.mp hinside))
  · intro hinside
    exact hor (Text.mem_of_between hs hp hw (Text.contains_iff.mp hinside))

/-- What is found in a query whose carets are in their places. -/
theorem CaretsInPlace.structureIssues_eq {query : Text} (h : CaretsInPlace query)
    (hne : query ≠ []) :
    structureIssues query
      = (if isBalanced query then []
          else [{ severity := .error, message := "Query has unbalanced parentheses" }])
        ++ (if longestQuery < query.length then
            [{ severity := .warning,
               message := "Query is very long and may cause performance issues",
               suggestion :=
                 "Consider simplifying the query or breaking it into multiple searches" }]
           else []) := by
  have hnonempty : query.isEmpty = false := by
    rw [Bool.eq_false_iff, ne_eq, List.isEmpty_iff]
    exact hne
  unfold structureIssues
  simp only [hnonempty, h.first, h.last, h.lastOr, h.doubled, h.doubledOr, Bool.or_false,
    Bool.false_eq_true, if_false, List.nil_append]
  cases isBalanced query <;> rfl

/-- **WHAT IS FOUND IN A WRITTEN QUERY.**  Of conditions with names, tokens of operators, and no
carets in names and literals, the query is not found to have separators without a match or behind
each other.  It is found to have unbalanced parentheses exactly if they are not balanced.  As long
as no name begins with `OR`, as many alternatives are counted in it as there are links "or". -/
theorem structureIssues_encodeList {cs : List Condition} (hcs : cs ≠ [])
    (h : ∀ c ∈ cs, c.Separable) :
    (∀ i ∈ structureIssues (encodeList cs),
        i.message ≠ ("Query has unmatched logical operators (^)" : Text) ∧
        i.message ≠ ("Query contains consecutive logical operators" : Text)) ∧
      ((∃ i ∈ structureIssues (encodeList cs),
          i.message = ("Query has unbalanced parentheses" : Text)) ↔
        ¬ Balanced (parentheses (encodeList cs))) ∧
      ((∀ c ∈ cs, ¬ ("OR" : Text) <+: c.field.name) →
        alternatives (encodeList cs) = orLinks cs) := by
  have hbalanced : isBalanced (encodeList cs) = true ↔ Balanced (parentheses (encodeList cs)) :=
    balancedFrom_iff
  have hne : encodeList cs ≠ [] := by
    obtain ⟨c, rest, rfl⟩ := List.exists_cons_of_ne_nil hcs
    rw [encodeList_eq]
    exact List.append_ne_nil_of_left_ne_nil (h c List.mem_cons_self).encode_ne_nil _
  rw [(caretsInPlace_encodeList hcs h).structureIssues_eq hne]
  refine ⟨?_, ?_, fun hor => ?_⟩
  · intro i hi
    rcases List.mem_append.mp hi with hi | hi <;> split at hi
    · cases hi
    · rw [List.mem_singleton.mp hi]
      exact ⟨by decide, by decide⟩
    · rw [List.mem_singleton.mp hi]
      exact ⟨by decide, by decide⟩
    · cases hi
  · rw [← hbalanced]
    by_cases hb : isBalanced (encodeList cs) = true
    · rw [if_pos hb, List.nil_append]
      refine iff_of_false ?_ (not_not_intro hb)
      rintro ⟨i, hi, hmessage⟩
      split at hi
      · rw [List.mem_singleton.mp hi] at hmessage
        exact absurd hmessage (by decide)
      · cases hi
    · rw [if_neg hb]
      exact iff_of_true ⟨_, List.mem_append_left _ (List.mem_singleton_self _), rfl⟩ hb
  · obtain ⟨c, rest, rfl⟩ := List.exists_cons_of_ne_nil hcs
    obtain ⟨hc, hrest⟩ := List.forall_mem_cons.mp h
    show Text.occurrences (encodeList (c :: rest)) (.char '^' :: ("OR" : Text)) = _
    rw [encodeList_eq, Text.occurrences_marked (by decide) hc.caret_not_mem_encode
      (caret_not_mem_laterPieces hrest)]
    exact countP_laterPieces hrest (List.forall_mem_cons.mp hor).2

/-- A name `O` in front of a token, a group that is not closed, and one link "or". -/
theorem structureIssues_encodeList_open_group :
    let cs : List Condition :=
      [{ field := { name := "O" }, operator := "<", value := "3", link := some .or },
       { field := { name := "state" }, operator := "IN", value := "(OR" },
       { field := { name := "active" }, operator := "ISEMPTY", value := "x^y", link := some .or }]
    encodeList cs = ("O<3^ORstateIN(OR^activeISEMPTY" : Text) ∧
      (∀ i ∈ structureIssues (encodeList cs),
        i.message ≠ ("Query has unmatched logical operators (^)" : Text)) ∧
      (∃ i ∈ structureIssues (encodeList cs),
        i.message = ("Query has unbalanced parentheses" : Text)) ∧
      alternatives (encodeList cs) = 1 := by
  intro cs
  have hseparable : ∀ c ∈ cs, c.Separable := by
    refine List.forall_mem_cons.mpr ⟨?_, List.forall_mem_cons.mpr ⟨?_, ?_⟩⟩
    · exact ⟨by decide, by unfold Condition.HasToken; decide, by decide, by decide⟩
    · exact ⟨by decide, by unfold Condition.HasToken; decide, by decide, by decide⟩
    · rw [List.forall_mem_singleton]
      exact ⟨by decide, by unfold Condition.HasToken; decide, by decide, by decide⟩
  have hopen : ¬ Closes 0 (parentheses (encodeList cs)) := by
    rw [← balancedFrom_iff]
    decide
  have hcs : cs ≠ [] := List.cons_ne_nil _ _
  obtain ⟨hcarets, hparentheses, hcount⟩ := structureIssues_encodeList hcs hseparable
  refine ⟨by decide, fun i hi => (hcarets i hi).1, hparentheses.mpr hopen, ?_⟩
  exact (hcount (by decide)).trans (by decide)

end Check

end EncodedQuery

/-
  EncodedQuery.Proofs.Record.Match
  ────────────────────────────────
  **WHAT A QUERY ASKS OF A RECORD.**

  How terms are grouped is decided by their separators alone.  Terms can
  therefore be replaced one by one: when each new term has the old separator and
  asks the same of a record, so does the whole query.

  Main results:
    • `parts_map` — the groups of replaced terms are the replaced groups,
    • `matchesTerms_map` — replacing terms by equivalent ones changes no answer.
-/
import EncodedQuery.Record.Match

namespace EncodedQuery

/-! ## §1. Groups. -/

namespace Term

/-- **The groups of replaced terms are the replaced groups.** -/
theorem parts_map {f : Term → Term} (hf : ∀ t, (f t).join = t.join) :
    ∀ ts : List Term, parts (ts.map f) = (parts ts).map (List.map (List.map f))
  | [] => rfl
  | [_] => rfl
  | t :: next :: rest => by
      have ih := parts_map hf (next :: rest)
      rw [List.map_cons] at ih
      rw [List.map_cons, List.map_cons, parts, ih, hf next, parts]
      -- what is done with the first term depends on the separator and the shape of the rest
      cases next.join with
      | none =>
          cases parts (next :: rest) <;> rfl
      | some sep =>
          cases sep with
          | newQuery => rfl
          | and => cases parts (next :: rest) <;> rfl
          | or =>
              cases parts (next :: rest) with
              | nil => rfl
              | cons groups queries => cases groups <;> rfl

/-- Terms that are all linked by "or" are one group. -/
theorem parts_of_or :
    ∀ {t : Term} {rest : List Term}, (∀ u ∈ rest, u.join = some .or) →
      parts (t :: rest) = [[t :: rest]]
  | _, [], _ => rfl
  | _, next :: rest, h => by
      obtain ⟨hnext, hrest⟩ := List.forall_mem_cons.mp h
      rw [parts, hnext, parts_of_or hrest]

end Term

/-! ## §2. Answers. -/

namespace Record

/-- **Replacing terms by equivalent ones changes no answer.** -/
theorem matchesTerms_map {f : Term → Term} (hjoin : ∀ t, (f t).join = t.join) {r : Record}
    (hterm : ∀ t, r.matchesTerm (f t) = r.matchesTerm t) (ts : List Term) :
    r.matchesTerms (ts.map f) = r.matchesTerms ts := by
  unfold matchesTerms
  rw [Term.parts_map hjoin, List.any_map]
  refine List.any_congr rfl fun groups => ?_
  rw [Function.comp, List.all_map]
  refine List.all_congr rfl fun group => ?_
  rw [Function.comp, List.any_map]
  exact List.any_congr rfl hterm

/-- Of terms that are all linked by "or", one has to hold. -/
theorem matchesTerms_of_or {r : Record} {t : Term} {rest : List Term}
    (h : ∀ u ∈ rest, u.join = some .or) :
    r.matchesTerms (t :: rest) = (t :: rest).any r.matchesTerm := by
  rw [matchesTerms, Term.parts_of_or h, List.any_cons, List.any_nil, Bool.or_false, List.all_cons,
    List.all_nil, Bool.and_true]

/-- An operator that takes no value asks the same with any value. -/
theorem holds_of_isValueless {op : Operator} (h : op.isValueless = true) (stored shown : Text)
    (v w : Text) : holds stored shown op v = holds stored shown op w := by
  cases op <;> first | rfl | exact absurd h (by decide)

end Record

end EncodedQuery

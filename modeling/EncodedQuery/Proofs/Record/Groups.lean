/-
  EncodedQuery.Proofs.Record.Groups
  ─────────────────────────────────
  **QUERIES AND GROUPS ARE RUNS.**

  Whether two neighbours belong together is said by the separator of the later
  one.  So the queries of a row of terms are its maximal runs without `^NQ`, and
  the groups of a query its maximal runs joined by `^OR`.  A condition carries
  the link to its successor instead; its runs are those linked by "or".

  Main results:
    • `Term.parts_eq` — queries and groups as maximal runs,
    • `matchesTerms_append_newQuery`, `matchesTerms_append_and` — the answers to
      two rows of terms, one behind the other,
    • `matchesTerms_termsAfter` — what the terms of conditions ask of a record.
-/
import Mathlib.Data.List.SplitBy
import EncodedQuery.Proofs.Condition.Encode
import EncodedQuery.Proofs.Query.Concat
import EncodedQuery.Proofs.Record.Match

namespace EncodedQuery

/-! ## §1. Runs from left to right. -/

section Runs

variable {α : Type} {r : α → α → Bool}

/-- The first run begins with the first item. -/
theorem exists_splitBy_cons (r : α → α → Bool) (a : α) (l : List α) :
    ∃ run runs, (a :: l).splitBy r = (a :: run) :: runs := by
  cases h : (a :: l).splitBy r with
  | nil => exact absurd (List.splitBy_eq_nil.mp h) (List.cons_ne_nil a l)
  | cons run runs =>
      have hflat := List.flatten_splitBy r (a :: l)
      have hne : run ≠ [] := List.ne_nil_of_mem_splitBy (h ▸ List.mem_cons_self)
      cases run with
      | nil => exact absurd rfl hne
      | cons b run =>
          rw [h, List.flatten_cons, List.cons_append] at hflat
          rw [(List.cons.inj hflat).1]
          exact ⟨run, runs, rfl⟩

/-- An item that belongs to its successor goes to the front of the first run. -/
theorem splitBy_cons_of_rel {a b : α} {l run : List α} {runs : List (List α)}
    (hr : r a b = true) (h : (b :: l).splitBy r = (b :: run) :: runs) :
    (a :: b :: l).splitBy r = (a :: b :: run) :: runs := by
  obtain ⟨hflat, hne, hchain, hbreak⟩ := List.splitBy_eq_iff.mp h
  refine List.splitBy_eq_iff.mpr ⟨?_, ?_, ?_, ?_⟩
  · rw [hflat]
    rfl
  · exact fun hmem => hne (by simpa using hmem)
  · obtain ⟨hfirst, hrest⟩ := List.forall_mem_cons.mp hchain
    exact List.forall_mem_cons.mpr ⟨List.isChain_cons_cons.mpr ⟨hr, hfirst⟩, hrest⟩
  · -- the first run ends as it did before
    refine List.isChain_cons.mpr ⟨fun g hg => ?_, (List.isChain_cons.mp hbreak).2⟩
    obtain ⟨ha, hb, hrel⟩ := (List.isChain_cons.mp hbreak).1 g hg
    exact ⟨List.cons_ne_nil _ _, hb, by rwa [List.getLast_cons ha]⟩

/-- One that does not is a run of its own. -/
theorem splitBy_cons_of_not_rel {a b : α} (l : List α) (hr : r a b = false) :
    (a :: b :: l).splitBy r = [a] :: (b :: l).splitBy r :=
  List.splitBy_append_cons (l := [a]) l (by simpa using hr)

/-- Where runs end does not depend on an item that the relation does not look at. -/
theorem splitBy_cons_congr {a : α} {l run : List α} {runs : List (List α)}
    (h : (a :: l).splitBy r = (a :: run) :: runs) (a' : α) (hr : ∀ b, r a b = r a' b) :
    (a' :: l).splitBy r = (a' :: run) :: runs := by
  cases l with
  | nil =>
      cases h
      rfl
  | cons b l =>
      obtain ⟨run', runs', hb⟩ := exists_splitBy_cons r b l
      cases hrel : r a b with
      | true =>
          rw [splitBy_cons_of_rel hrel hb] at h
          cases h
          exact splitBy_cons_of_rel ((hr b).symm.trans hrel) hb
      | false =>
          rw [splitBy_cons_of_not_rel l hrel] at h
          cases h
          exact splitBy_cons_of_not_rel l ((hr b).symm.trans hrel)

end Runs

/-! ## §2. The groups of terms. -/

namespace Term

/-- Both terms belong to one query. -/
def SameQuery (_ t : Term) : Bool := t.join ≠ some .newQuery

/-- Both terms belong to one group. -/
def SameGroup (_ t : Term) : Bool := t.join = some .or

/-- **Queries and groups are maximal runs.** -/
theorem parts_eq : ∀ (t : Term) (rest : List Term),
    parts (t :: rest) = ((t :: rest).splitBy SameQuery).map (List.splitBy SameGroup)
  | _, [] => rfl
  -- from the last term back: a term joins the parts of its successor or opens new ones
  | t, next :: rest => by
      have ih := parts_eq next rest
      obtain ⟨query, queries, hquery⟩ := exists_splitBy_cons SameQuery next rest
      obtain ⟨group, groups, hgroup⟩ := exists_splitBy_cons SameGroup next query
      rw [hquery, List.map_cons, hgroup] at ih
      rw [parts, ih]
      -- a term of the same query joins the first one, and of the same group its first group
      cases hj : next.join with
      | none =>
          rw [splitBy_cons_of_rel (by simp [SameQuery, hj]) hquery, List.map_cons,
            splitBy_cons_of_not_rel query (by simp [SameGroup, hj]), hgroup]
      | some sep =>
          cases sep with
          | newQuery =>
              rw [splitBy_cons_of_not_rel rest (by simp [SameQuery, hj]), hquery, List.map_cons,
                List.map_cons, hgroup]
              rfl
          | and =>
              rw [splitBy_cons_of_rel (by simp [SameQuery, hj]) hquery, List.map_cons,
                splitBy_cons_of_not_rel query (by simp [SameGroup, hj]), hgroup]
          | or =>
              rw [splitBy_cons_of_rel (by simp [SameQuery, hj]) hquery, List.map_cons,
                splitBy_cons_of_rel (by simp [SameGroup, hj]) hgroup]

/-- Terms without `^NQ` behind the first one belong together. -/
theorem isChain_sameQuery : ∀ {ts : List Term}, (∀ t ∈ ts.tail, t.join ≠ some .newQuery) →
    ts.IsChain (fun t u => SameQuery t u = true)
  | [], _ => List.isChain_nil
  | [_], _ => List.isChain_singleton _
  | _ :: _ :: _, h => by
      obtain ⟨hfirst, hrest⟩ := List.forall_mem_cons.mp h
      exact List.isChain_cons_cons.mpr ⟨decide_eq_true hfirst, isChain_sameQuery hrest⟩

end Term

/-! ## §3. Rows of terms, one behind the other. -/

namespace Record

open Term (SameQuery SameGroup rejoin)

variable (r : Record)

/-- In every group of the query some term holds. -/
def matchesGroups (query : List Term) : Bool :=
  (query.splitBy SameGroup).all (fun group => group.any r.matchesTerm)

/-- Some query holds. -/
theorem matchesTerms_eq {ts : List Term} (h : ts ≠ []) :
    r.matchesTerms ts = (ts.splitBy SameQuery).any r.matchesGroups := by
  cases ts with
  | nil => exact absurd rfl h
  | cons t rest =>
      rw [matchesTerms, Term.parts_eq, List.any_map]
      rfl

/-- Terms without `^NQ` are one query. -/
theorem matchesTerms_of_one_query {ts : List Term} (h : ts ≠ [])
    (hone : ∀ t ∈ ts.tail, t.join ≠ some .newQuery) :
    r.matchesTerms ts = r.matchesGroups ts := by
  rw [matchesTerms_eq r h, List.splitBy_of_isChain h (Term.isChain_sameQuery hone), List.any_cons,
    List.any_nil, Bool.or_false]

/-- A separator in front of the first term changes no answer. -/
theorem matchesTerms_rejoin (sep : Separator) (ts : List Term) :
    r.matchesTerms (rejoin sep ts) = r.matchesTerms ts := by
  cases ts with
  | nil => rfl
  | cons t rest =>
      obtain ⟨query, queries, hquery⟩ := exists_splitBy_cons SameQuery t rest
      obtain ⟨group, groups, hgroup⟩ := exists_splitBy_cons SameGroup t query
      have hquery' := splitBy_cons_congr hquery { t with join := some sep } (fun _ => rfl)
      have hgroup' := splitBy_cons_congr hgroup { t with join := some sep } (fun _ => rfl)
      rw [rejoin, matchesTerms_eq r (List.cons_ne_nil _ _),
        matchesTerms_eq r (List.cons_ne_nil _ _), hquery, hquery', List.any_cons, List.any_cons,
        matchesGroups, matchesGroups, hgroup, hgroup']
      rfl

/-- **Terms behind `^NQ` find records of their own.** -/
theorem matchesTerms_append_newQuery {ts us : List Term} (ht : ts ≠ []) (hu : us ≠ []) :
    r.matchesTerms (ts ++ rejoin .newQuery us) = (r.matchesTerms ts || r.matchesTerms us) := by
  have hbreak : ∀ t ∈ ts.getLast?, ∀ u ∈ (rejoin .newQuery us).head?, SameQuery t u = false := by
    intro t _ u hu
    simp [SameQuery, Term.join_of_head?_rejoin u hu]
  rw [matchesTerms_eq r (List.append_ne_nil_of_left_ne_nil ht _), List.splitBy_append hbreak,
    List.any_append, ← matchesTerms_eq r ht, ← matchesTerms_eq r (Term.rejoin_ne_nil hu),
    matchesTerms_rejoin]

/-- **Terms behind a bare caret are asked for too**, as long as there is one query. -/
theorem matchesTerms_append_and {ts us : List Term} (ht : ts ≠ []) (hu : us ≠ [])
    (hts : ∀ t ∈ ts, t.join ≠ some .newQuery) (hus : ∀ u ∈ us, u.join ≠ some .newQuery) :
    r.matchesTerms (ts ++ rejoin .and us) = (r.matchesTerms ts && r.matchesTerms us) := by
  have hbreak : ∀ t ∈ ts.getLast?, ∀ u ∈ (rejoin .and us).head?, SameGroup t u = false := by
    intro t _ u hu
    simp [SameGroup, Term.join_of_head?_rejoin u hu]
  have hone : ∀ u ∈ rejoin .and us, u.join ≠ some .newQuery := by
    cases us with
    | nil => nofun
    | cons u us => exact List.forall_mem_cons.mpr ⟨nofun, (List.forall_mem_cons.mp hus).2⟩
  have htail : ∀ {vs : List Term}, (∀ v ∈ vs, v.join ≠ some .newQuery) →
      ∀ v ∈ vs.tail, v.join ≠ some .newQuery := fun h v hv => h v (List.mem_of_mem_tail hv)
  have happend : ∀ v ∈ ts ++ rejoin .and us, v.join ≠ some .newQuery := by
    intro v hv
    rcases List.mem_append.mp hv with hv | hv
    · exact hts v hv
    · exact hone v hv
  rw [← matchesTerms_rejoin r .and us,
    matchesTerms_of_one_query r (List.append_ne_nil_of_left_ne_nil ht _) (htail happend),
    matchesTerms_of_one_query r ht (htail hts),
    matchesTerms_of_one_query r (Term.rejoin_ne_nil hu) (htail hone)]
  unfold matchesGroups
  rw [List.splitBy_append hbreak, List.all_append]

end Record

/-! ## §4. The groups of conditions. -/

/-- The maximal runs of conditions linked by "or". -/
def Chain.runs (cs : List Condition) : List (List Condition) :=
  cs.splitBy (fun c _ => c.link = some .or)

namespace Record

open Chain (runs termsAfter)

variable (r : Record)

/-- The condition holds of the record: its field, its operator and its literal are asked for. -/
def satisfies (c : Condition) : Bool := r.matchesTerm (c.termAfter none)

/-- **The groups of the terms are the runs of the conditions.** -/
theorem map_any_termsAfter : ∀ (join : Option Separator) (cs : List Condition),
    ((termsAfter join cs).splitBy Term.SameGroup).map (fun group => group.any r.matchesTerm)
      = (runs cs).map (fun run => run.any r.satisfies)
  | _, [] => rfl
  | join, [c] => rfl
  | join, c :: d :: rest => by
      have ih := map_any_termsAfter (some c.separator) (d :: rest)
      obtain ⟨group, groups, hgroup⟩ :=
        exists_splitBy_cons Term.SameGroup (d.termAfter (some c.separator))
          (termsAfter (some d.separator) rest)
      obtain ⟨run, later, hrun⟩ := exists_splitBy_cons (fun c _ => c.link = some .or) d rest
      rw [termsAfter, hgroup, runs, hrun] at ih
      have hfirst : r.matchesTerm (c.termAfter join) = r.satisfies c := rfl
      rw [termsAfter, termsAfter, runs]
      -- the link of the first condition is the separator in front of the second term
      by_cases hlink : c.link = some .or
      · have hsame : Term.SameGroup (c.termAfter join) (d.termAfter (some c.separator)) = true := by
          simp [Term.SameGroup, Condition.termAfter, c.separator_eq, hlink]
        rw [splitBy_cons_of_rel hsame hgroup, splitBy_cons_of_rel (by simpa using hlink) hrun]
        rw [List.map_cons, List.map_cons] at ih ⊢
        obtain ⟨hany, hrest⟩ := List.cons.inj ih
        rw [List.any_cons, List.any_cons (l := d :: run), hany, hrest, hfirst]
      · have hsplit :
            Term.SameGroup (c.termAfter join) (d.termAfter (some c.separator)) = false := by
          simp [Term.SameGroup, Condition.termAfter, c.separator_eq, hlink]
        rw [splitBy_cons_of_not_rel _ hsplit, splitBy_cons_of_not_rel _ (by simpa using hlink),
          List.map_cons, List.map_cons, hgroup, hrun, ih, List.any_cons, List.any_cons, hfirst]
        rfl

/-- **What the terms of conditions ask of a record**: of every run one condition. -/
theorem matchesTerms_termsAfter {cs : List Condition} (h : cs ≠ []) :
    r.matchesTerms (termsAfter none cs) = (runs cs).all (fun run => run.any r.satisfies) := by
  have hne : termsAfter none cs ≠ [] := by
    rw [← List.length_pos_iff, Chain.length_termsAfter]
    exact List.length_pos_iff.mpr h
  have hone : ∀ t ∈ (termsAfter none cs).tail, t.join ≠ some .newQuery := by
    intro t ht
    obtain ⟨i, hi⟩ := List.mem_iff_getElem?.mp ht
    rw [List.getElem?_tail, Chain.getElem?_termsAfter_succ] at hi
    obtain ⟨d, _, rfl⟩ := Option.map_eq_some_iff.mp hi
    show cs[i]?.map Condition.separator ≠ some .newQuery
    cases cs[i]? with
    | none => exact nofun
    | some c =>
        rw [Option.map_some, c.separator_eq]
        split <;> exact nofun
  rw [matchesTerms_of_one_query r hne hone, matchesGroups]
  have hgroups := congrArg (fun found : List Bool => found.all id) (r.map_any_termsAfter none cs)
  simpa only [List.all_map, Function.comp_def, id] using hgroups

end Record

end EncodedQuery

/-
  EncodedQuery.Proofs.Query.RoundTrip
  ───────────────────────────────────
  **WRITING TERMS AND READING THEM BACK.**

  `compose` writes terms one behind the other, each later one with its
  separator in front.  Terms that a query was read as can be written again
  (`Writable`), but the text can lose a separator: `^` in front of a field whose
  name begins with `OR` or `NQ` looks like one of the longer separators.  This
  is the only way in which reading back can fail.

  Main results:
    • `writable_of_parse` — what a query is read as can be written,
    • `parse_compose_iff` — written terms are read back exactly when every
      separator is kept,
    • `compose_of_parse` — a query without loose blanks is written as it was.
-/
import EncodedQuery.Proofs.Query.Split

namespace EncodedQuery

/-- What follows the caret in the token of a separator. -/
def Separator.suffix : Separator → Text
  | and => []
  | or => "OR"
  | newQuery => "NQ"

theorem Separator.token_eq (sep : Separator) : sep.token = .char '^' :: sep.suffix := by
  cases sep <;> rfl

theorem Separator.caret_not_mem_suffix (sep : Separator) : .char '^' ∉ sep.suffix := by
  cases sep <;> decide

theorem Separator.tab_not_mem_suffix (sep : Separator) : .char '\t' ∉ sep.suffix := by
  cases sep <;> decide

namespace Term

/-! ## §1. Characters of names. -/

theorem not_isBlank_of_isNameStart {c : CodePoint} (h : isNameStart c = true) :
    Text.isBlank c = false := by
  have hrange : (65 ≤ c.toNat ∧ c.toNat ≤ 90) ∨ (97 ≤ c.toNat ∧ c.toNat ≤ 122)
      ∨ c.toNat = 95 := by
    simp only [isNameStart, decide_eq_true_eq] at h
    rcases h with ⟨hlo, hhi⟩ | ⟨hlo, hhi⟩ | rfl
    · exact Or.inl ⟨hlo, hhi⟩
    · exact Or.inr (Or.inl ⟨hlo, hhi⟩)
    · exact Or.inr (Or.inr rfl)
  simp only [Text.isBlank, Bool.or_eq_false_iff, Bool.and_eq_false_iff, decide_eq_false_iff_not,
    beq_eq_false_iff_ne]
  omega

theorem IsName.not_mem {s : Text} (h : IsName s) {c : CodePoint} (hc : isNameChar c = false) :
    c ∉ s := by
  obtain ⟨d, rest, rfl, hstart, hrest⟩ := h
  intro hmem
  rcases List.mem_cons.mp hmem with rfl | hmem
  · simp [isNameChar, hstart] at hc
  · rw [hrest c hmem] at hc
    exact absurd hc (by decide)

/-! ## §2. Single terms. -/

/-- A term that its own text is read as, with no caret in its value. -/
structure Legible (t : Term) : Prop where
  /-- The text of the term is read as the term. -/
  reading : IsReading t.body t
  /-- The value ends in front of the next caret. -/
  caret : .char '^' ∉ t.value

/-- The text of a later term behind its caret. -/
def laterText (t : Term) : Text := ((t.join.map Separator.suffix).getD []) ++ t.body

theorem Legible.isName {t : Term} (h : t.Legible) : IsName t.field := by
  obtain ⟨p, hp, hf, _⟩ := h.reading
  rw [hf]
  exact hp.1.name

theorem Legible.caret_not_mem_body {t : Term} (h : t.Legible) : .char '^' ∉ t.body := by
  intro hmem
  rcases List.mem_append.mp hmem with hmem | hmem
  · rcases List.mem_append.mp hmem with hmem | hmem
    · exact h.isName.not_mem (by decide) hmem
    · exact t.operator.caret_not_mem_token hmem
  · exact h.caret hmem

theorem Legible.tab_not_mem_body {t : Term} (h : t.Legible) (hv : .char '\t' ∉ t.value) :
    .char '\t' ∉ t.body := by
  intro hmem
  rcases List.mem_append.mp hmem with hmem | hmem
  · rcases List.mem_append.mp hmem with hmem | hmem
    · exact h.isName.not_mem (by decide) hmem
    · exact t.operator.tab_not_mem_token hmem
  · exact hv hmem

theorem Legible.caret_not_mem_laterText {t : Term} (h : t.Legible) : .char '^' ∉ t.laterText := by
  intro hmem
  rcases List.mem_append.mp hmem with hmem | hmem
  · cases hj : t.join with
    | none => simp [hj] at hmem
    | some sep =>
        rw [hj] at hmem
        exact sep.caret_not_mem_suffix hmem
  · exact h.caret_not_mem_body hmem

/-- The text of a term begins with no blank. -/
theorem Legible.head_body {t : Term} (h : t.Legible) :
    ∃ c rest, t.body = c :: rest ∧ Text.isBlank c = false := by
  obtain ⟨c, rest, hf, hstart, _⟩ := h.isName
  refine ⟨c, rest ++ t.operator.token ++ t.value, ?_, not_isBlank_of_isNameStart hstart⟩
  rw [body, hf]
  rfl

theorem Legible.dropWhile_isBreak_body {t : Term} (h : t.Legible) :
    t.body.dropWhile isBreak = t.body := by
  obtain ⟨c, rest, hbody, hblank⟩ := h.head_body
  have hbreak : ¬ isBreak c = true := by
    intro hc
    have hgap : Scan.isGap c = true := by
      simp only [isBreak, Scan.isGap, decide_eq_true_eq] at hc ⊢
      rcases hc with hc | hc | hc
      · exact Or.inl hc
      · exact Or.inr (Or.inr (Or.inl hc))
      · exact Or.inr (Or.inr (Or.inr hc))
    rw [isBlank_of_isGap hgap] at hblank
    exact absurd hblank (by decide)
  rw [hbody, List.dropWhile_cons, if_neg hbreak]

/-- The last character of a term's text: of its value, or else of its token. -/
theorem last_body {t : Term} (h : ∀ c ∈ t.value.getLast?, Text.isBlank c = false) :
    ∀ c ∈ t.body.getLast?, Text.isBlank c = false := by
  intro c hc
  rw [body, List.append_assoc, List.getLast?_append, List.getLast?_append] at hc
  cases hv : t.value.getLast? with
  | some d =>
      rw [hv] at hc
      exact h c (by rw [hv]; simpa using hc)
  | none =>
      have htok : ∃ d, t.operator.token.getLast? = some d ∧ Text.isBlank d = false := by
        cases t.operator <;> exact ⟨_, rfl, by decide⟩
      obtain ⟨d, hd, hblank⟩ := htok
      rw [hv, hd] at hc
      rw [← Option.some.inj hc]
      exact hblank

/-! ## §3. Separators that are kept. -/

/-- The bare caret in front of the term is not taken for one of the longer separators. -/
def KeepsSeparator (t : Term) : Prop :=
  t.join = some .and → ¬ ("OR" : Text) <+: t.field ∧ ¬ ("NQ" : Text) <+: t.field

/-- Two characters begin a term's text exactly when they begin its field, unless a token begins
with the second one. -/
theorem pair_prefix_body {t : Term} (h : IsName t.field) {a b : CodePoint}
    (hb : ∀ op : Operator, op.token.head? ≠ some b) :
    [a, b] <+: t.body ↔ [a, b] <+: t.field := by
  obtain ⟨c, rest, hf, _⟩ := h
  rw [body, hf]
  cases rest with
  | nil =>
      -- a field of one character is followed by a token
      have htok := hb t.operator
      cases hop : t.operator.token with
      | nil => exact absurd hop t.operator.token_ne_nil
      | cons d tail =>
          rw [hop] at htok
          simp only [List.cons_append, List.nil_append, List.cons_prefix_cons, List.prefix_nil]
          constructor
          · rintro ⟨_, rfl, _⟩
            exact absurd rfl htok
          · rintro ⟨_, hnil⟩
            exact absurd hnil (by simp)
  | cons d rest => simp only [List.cons_append, List.cons_prefix_cons, List.nil_prefix]

theorem startsWith_iff {s head : Text} : Text.startsWith s head = true ↔ head <+: s :=
  List.isPrefixOf_iff_prefix

/-- A caret is a separator of its own unless one of the two pairs of letters follows it. -/
theorem separatorOf_eq_and_iff {s : Text} :
    separatorOf s = (.and, s) ↔ ¬ ("OR" : Text) <+: s ∧ ¬ ("NQ" : Text) <+: s := by
  rw [← startsWith_iff, ← startsWith_iff, separatorOf]
  by_cases hnq : Text.startsWith s "NQ" = true
  · rw [if_pos hnq]
    exact iff_of_false (fun h => by injection h; contradiction) (fun h => h.2 hnq)
  · rw [if_neg hnq]
    by_cases hor : Text.startsWith s "OR" = true
    · rw [if_pos hor]
      exact iff_of_false (fun h => by injection h; contradiction) (fun h => h.1 hor)
    · rw [if_neg hor]
      exact iff_of_true rfl ⟨hor, hnq⟩

theorem separatorOf_fst_eq_and {s : Text} (h : (separatorOf s).1 = .and) :
    separatorOf s = (.and, s) := by
  unfold separatorOf at h ⊢
  split at h
  · cases h
  · split at h
    · cases h
    next hnq hor => rw [if_neg hnq, if_neg hor]

/-- The letters of a longer separator are taken off again. -/
theorem separatorOf_suffix_append {sep : Separator} (h : sep ≠ .and) (s : Text) :
    separatorOf (sep.suffix ++ s) = (sep, s) := by
  cases sep with
  | and => exact absurd rfl h
  | or => rfl
  | newQuery => rfl

theorem keepsSeparator_iff {t : Term} (h : IsName t.field) (hj : t.join = some .and) :
    t.KeepsSeparator ↔ separatorOf t.body = (.and, t.body) := by
  have hor : ("OR" : Text) <+: t.body ↔ ("OR" : Text) <+: t.field :=
    pair_prefix_body h (by intro op; cases op <;> decide)
  have hnq : ("NQ" : Text) <+: t.body ↔ ("NQ" : Text) <+: t.field :=
    pair_prefix_body h (by intro op; cases op <;> decide)
  rw [separatorOf_eq_and_iff, hor, hnq, KeepsSeparator]
  exact ⟨fun hk => hk hj, fun hk _ => hk⟩

/-- **A later term is read back exactly when its separator is kept.** -/
theorem reads_laterText_iff {t : Term} (h : t.Legible) (hj : t.join ≠ none) :
    Reads (laterPart t.laterText) t ↔ t.KeepsSeparator := by
  have hbody := h.dropWhile_isBreak_body
  obtain ⟨sep, hjoin⟩ := Option.ne_none_iff_exists'.mp hj
  have htext : t.laterText = sep.suffix ++ t.body := by rw [laterText, hjoin]; rfl
  by_cases hsep : sep = .and
  · -- behind a bare caret the term's own text stands first
    subst hsep
    rw [htext, show Separator.and.suffix ++ t.body = t.body from rfl,
        keepsSeparator_iff h.isName hjoin, laterPart]
    constructor
    · rintro ⟨hread, _⟩
      exact separatorOf_fst_eq_and (Option.some.inj (hread.symm.trans hjoin))
    · intro hkeep
      rw [hkeep, hbody]
      exact ⟨hjoin, h.reading⟩
  · -- the letters of a longer separator stand first and are taken off again
    rw [htext, laterPart, separatorOf_suffix_append hsep, hbody]
    refine iff_of_true ⟨hjoin, h.reading⟩ (fun hand => ?_)
    exact absurd (Option.some.inj (hjoin.symm.trans hand)) hsep

/-! ## §4. Rows of terms that can be written. -/

/-- Terms that a query can be written from. -/
structure Writable (ts : List Term) : Prop where
  /-- The first term has no separator. -/
  first : ∀ t ∈ ts.head?, t.join = none
  /-- Every later term has one. -/
  later : ∀ t ∈ ts.tail, t.join ≠ none
  /-- Each term is what its own text is read as. -/
  legible : ∀ t ∈ ts, t.Legible
  /-- No value holds a tab. -/
  tab : ∀ t ∈ ts, .char '\t' ∉ t.value
  /-- The value of the last term does not end in a blank. -/
  last : ∀ t ∈ ts.getLast?, ∀ c ∈ t.value.getLast?, Text.isBlank c = false

theorem compose_nil : compose [] = [] := rfl

theorem compose_cons {t : Term} (h : t.join = none) (later : List Term) :
    compose (t :: later) = t.body ++ compose later := by
  rw [compose, List.flatMap_cons, h]
  rfl

/-- Later terms are pieces with a caret in front of each. -/
theorem compose_later {later : List Term} (h : ∀ t ∈ later, t.join ≠ none) :
    compose later = Text.marked '^' (later.map laterText) := by
  induction later with
  | nil => rfl
  | cons t later ih =>
      obtain ⟨sep, hsep⟩ := Option.ne_none_iff_exists'.mp (h t List.mem_cons_self)
      have htext : ((t.join.map Separator.token).getD []) ++ t.body = .char '^' :: t.laterText := by
        rw [laterText, hsep]
        show sep.token ++ t.body = .char '^' :: (sep.suffix ++ t.body)
        rw [sep.token_eq, List.cons_append]
      rw [List.map_cons, Text.marked_cons,
          ← ih (fun u hu => h u (List.mem_cons_of_mem t hu)), compose, List.flatMap_cons, htext]
      rfl

/-- The text of a writable row in pieces. -/
theorem Writable.compose_eq {t : Term} {later : List Term} (h : Writable (t :: later)) :
    compose (t :: later) = t.body ++ Text.marked '^' (later.map laterText) := by
  have hlater : ∀ u ∈ later, u.join ≠ none := h.later
  rw [compose_cons (h.first t rfl), compose_later hlater]

theorem Writable.tab_not_mem_compose {ts : List Term} (h : Writable ts) :
    .char '\t' ∉ compose ts := by
  intro hmem
  obtain ⟨t, ht, hmem⟩ := List.mem_flatMap.mp hmem
  rcases List.mem_append.mp hmem with hmem | hmem
  · cases hj : t.join with
    | none => simp [hj] at hmem
    | some sep =>
        have htok : .char '\t' ∈ sep.token := by simpa [hj] using hmem
        rw [sep.token_eq] at htok
        rcases List.mem_cons.mp htok with hc | hc
        · exact absurd hc (by decide)
        · exact sep.tab_not_mem_suffix hc
  · exact (h.legible t ht).tab_not_mem_body (h.tab t ht) hmem

theorem getLast?_compose_concat (ts : List Term) {t : Term} (h : t.Legible) :
    (compose (ts ++ [t])).getLast? = t.body.getLast? := by
  obtain ⟨c, rest, hbody, _⟩ := h.head_body
  rw [compose, List.flatMap_append, List.flatMap_cons, List.flatMap_nil, List.append_nil,
      List.getLast?_append, List.getLast?_append, hbody, List.getLast?_cons]
  rfl

/-- Written terms leave no blank at the ends of their query. -/
theorem Writable.trim_compose {ts : List Term} (h : Writable ts) : Text.Trim (compose ts) where
  head := by
    intro c hc
    cases ts with
    | nil => exact absurd hc (by simp [compose_nil])
    | cons t later =>
        obtain ⟨d, rest, hbody, hblank⟩ := (h.legible t List.mem_cons_self).head_body
        rw [h.compose_eq, hbody, List.cons_append, List.head?_cons] at hc
        rw [← Option.some.inj hc]
        exact hblank
  last := by
    intro c hc
    rcases List.eq_nil_or_concat ts with rfl | ⟨front, t, rfl⟩
    · exact absurd hc (by simp [compose_nil])
    · rw [List.concat_eq_append] at h hc
      rw [getLast?_compose_concat front (h.legible t (by simp))] at hc
      exact last_body (h.last t (by simp)) c hc

/-- The segments of a written row are the texts of its terms. -/
theorem Writable.segments_compose {t : Term} {later : List Term} (h : Writable (t :: later)) :
    segments (compose (t :: later))
      = (none, t.body) :: later.map (fun u => laterPart u.laterText) := by
  have hpieces : ∀ p ∈ later.map laterText, .char '^' ∉ p := by
    intro p hp
    obtain ⟨u, hu, rfl⟩ := List.mem_map.mp hp
    exact (h.legible u (List.mem_cons_of_mem t hu)).caret_not_mem_laterText
  have hfirst := (h.legible t List.mem_cons_self).caret_not_mem_body
  rw [h.compose_eq, segments_eq hfirst hpieces, List.map_map]
  rfl

/-- **Written terms are read back exactly when every separator is kept.** -/
theorem parse_compose_iff {ts : List Term} (h : Writable ts) :
    parse (compose ts) = .ok ts ↔ ∀ t ∈ ts, t.KeepsSeparator := by
  cases ts with
  | nil => exact iff_of_true (parse_of_strip_eq_nil rfl) (by simp)
  | cons t later =>
      have hstrip := Text.strip_eq_self h.trim_compose
      have hne : Text.strip (compose (t :: later)) ≠ [] := by
        obtain ⟨c, rest, hbody, _⟩ := (h.legible t List.mem_cons_self).head_body
        rw [hstrip, h.compose_eq, hbody]
        simp
      have hfirst : Reads (none, t.body) t :=
        ⟨h.first t rfl, (h.legible t List.mem_cons_self).reading⟩
      have hkeep : t.KeepsSeparator := fun hj => absurd ((h.first t rfl).symm.trans hj) (by simp)
      -- stripping and expanding leave the text as it is; then term by term
      rw [parse_eq_ok_iff hne, hstrip, expandTabs_of_not_mem 0 h.tab_not_mem_compose,
          h.segments_compose, List.forall₂_cons, List.forall₂_map_left_iff, List.forall₂_same,
          List.forall_mem_cons, and_iff_right hfirst, and_iff_right hkeep]
      refine forall₂_congr (fun u hu => ?_)
      exact reads_laterText_iff (h.legible u (List.mem_cons_of_mem t hu)) (h.later u hu)

/-! ## §5. What a query was read as. -/

/-- A segment with its reading gives a legible term. -/
theorem legible_of_reads {part : Option Separator × Text} {t : Term} (h : Reads part t)
    (hcaret : .char '^' ∉ part.2) : t.Legible := by
  have hbody := h.2.body_eq
  refine ⟨by rw [hbody]; exact h.2, fun hmem => hcaret ?_⟩
  rw [← hbody]
  exact List.mem_append_right _ hmem

section Pairs

variable {α β : Type} {R : α → β → Prop}

theorem exists_left_of_forall₂ {xs : List α} {ys : List β} (h : List.Forall₂ R xs ys) :
    ∀ y ∈ ys, ∃ x ∈ xs, R x y := by
  induction h with
  | nil => intro y hy; simp at hy
  | cons hxy _ ih =>
      intro y hy
      rcases List.mem_cons.mp hy with rfl | hy
      · exact ⟨_, List.mem_cons_self, hxy⟩
      · obtain ⟨x, hx, hR⟩ := ih y hy
        exact ⟨x, List.mem_cons_of_mem _ hx, hR⟩

theorem exists_last_of_forall₂ {xs : List α} {ys : List β} (h : List.Forall₂ R xs ys) :
    ∀ y ∈ ys.getLast?, ∃ x ∈ xs.getLast?, R x y := by
  induction h with
  | nil => intro y hy; simp at hy
  | cons hxy htail ih =>
      intro y hy
      cases htail with
      | nil =>
          obtain rfl : _ = y := by simpa using hy
          exact ⟨_, rfl, hxy⟩
      | cons hxy' htail' =>
          rw [List.getLast?_cons_cons] at hy
          obtain ⟨x, hx, hR⟩ := ih y hy
          exact ⟨x, by rw [List.getLast?_cons_cons]; exact hx, hR⟩

end Pairs

/-- The text of the last segment ends its query. -/
theorem suffix_of_last_segment {t : Text} {part : Option Separator × Text}
    (h : part ∈ (segments t).getLast?) : part.2 <:+ t := by
  obtain ⟨s, pieces, _, rfl, hs, hp⟩ := Text.exists_cut '^' t
  rw [segments_eq hs hp] at h
  rcases List.eq_nil_or_concat pieces with rfl | ⟨front, p, rfl⟩
  · obtain rfl : (none, s) = part := by simpa using h
    simp
  · obtain rfl : laterPart p = part := by
      simpa [List.getLast?_cons] using h
    have hpiece : p <:+ s ++ Text.marked '^' (front.concat p) :=
      ⟨s ++ Text.marked '^' front ++ "^", by simp [Text.marked]⟩
    exact (List.dropWhile_suffix _).trans ((separatorOf_suffix p).trans hpiece)

/-- **What a query is read as can be written.** -/
theorem writable_of_parse {query : Text} {ts : List Term} (h : parse query = .ok ts) :
    Writable ts := by
  by_cases hne : Text.strip query = []
  · have hnil : ts = [] := by
      have hparse := parse_of_strip_eq_nil hne
      rw [h] at hparse
      injection hparse
    subst hnil
    constructor <;> simp
  · have hreads := (parse_eq_ok_iff hne).mp h
    have htab := tab_not_mem_expandTabs (Text.strip query) 0
    have htrim := trim_expandTabs (Text.trim_strip query)
    set text := expandTabs 0 (Text.strip query)
    obtain ⟨s, pieces, _, htext, hs, hp⟩ := Text.exists_cut '^' text
    have hshape := segments_eq hs hp
    rw [← htext] at hshape
    -- each property of a term comes from its segment
    refine ⟨?_, ?_, ?_, ?_, ?_⟩
    · intro t ht
      rw [hshape] at hreads
      cases hreads with
      | cons hfirst _ =>
          rw [← Option.some.inj ht]
          exact hfirst.1
    · intro t ht hnone
      rw [hshape] at hreads
      cases hreads with
      | cons _ hlater =>
          obtain ⟨part, hpart, hread⟩ := exists_left_of_forall₂ hlater t ht
          obtain ⟨p, _, rfl⟩ := List.mem_map.mp hpart
          have hjoin : some (separatorOf p).1 = t.join := hread.1.symm
          exact absurd (hjoin.trans hnone) (by simp)
    · intro t ht
      obtain ⟨part, hpart, hread⟩ := exists_left_of_forall₂ hreads t ht
      exact legible_of_reads hread (clean_of_mem_segments htrim htab hpart).1
    · intro t ht hmem
      obtain ⟨part, hpart, hread⟩ := exists_left_of_forall₂ hreads t ht
      have hpart' : .char '\t' ∈ part.2 := by
        rw [← hread.2.body_eq]
        exact List.mem_append_right _ hmem
      exact htab (mem_of_mem_segments hpart '\t' hpart').1
    · -- the last value ends the text, which is trimmed
      intro t ht c hc
      obtain ⟨part, hpart, hread⟩ := exists_last_of_forall₂ hreads t ht
      have hbody := hread.2.body_eq
      refine htrim.last c ?_
      obtain ⟨front, hfront⟩ := suffix_of_last_segment hpart
      rw [← hfront, ← hbody, body, List.getLast?_append, List.getLast?_append, hc]
      rfl

/-! ## §6. Queries without loose blanks. -/

/-- No blank that the scan would skip follows a separator. -/
def NoLooseBlank (query : Text) : Prop :=
  ∀ sep : Separator, ∀ c, isBreak c = true → ¬ (sep.token ++ [c]) <:+: query

theorem suffix_append_separatorOf (s : Text) :
    (separatorOf s).1.suffix ++ (separatorOf s).2 = s := by
  unfold separatorOf
  split
  next h =>
    obtain ⟨rest, rfl⟩ := startsWith_iff.mp h
    rfl
  next =>
    split
    next h =>
      obtain ⟨rest, rfl⟩ := startsWith_iff.mp h
      rfl
    next => rfl

/-- Without loose blanks nothing is dropped from a later piece. -/
theorem dropWhile_separatorOf {s p : Text} {pieces : List Text}
    (h : NoLooseBlank (s ++ Text.marked '^' pieces)) (hp : p ∈ pieces) :
    (separatorOf p).2.dropWhile isBreak = (separatorOf p).2 := by
  cases hrest : (separatorOf p).2 with
  | nil => rfl
  | cons c rest =>
      have hbreak : ¬ isBreak c = true := by
        intro hc
        refine h (separatorOf p).1 c hc ?_
        have hpiece : .char '^' :: p = (separatorOf p).1.token ++ [c] ++ rest := by
          rw [Separator.token_eq, List.cons_append, List.cons_append, List.append_assoc,
              List.singleton_append, ← hrest, suffix_append_separatorOf]
        have hfront : (separatorOf p).1.token ++ [c] <:+: .char '^' :: p := by
          rw [hpiece]
          exact (List.prefix_append _ rest).isInfix
        exact (hfront.trans (Text.infix_of_mem_marked hp)).trans (List.suffix_append s _).isInfix
      rw [List.dropWhile_cons, if_neg hbreak]

/-- A row of pieces is the row of the texts of its terms. -/
theorem map_laterText_eq {pieces : List Text} {later : List Term}
    (hdrop : ∀ p ∈ pieces, (separatorOf p).2.dropWhile isBreak = (separatorOf p).2)
    (h : List.Forall₂ Reads (pieces.map laterPart) later) :
    later.map laterText = pieces := by
  induction pieces generalizing later with
  | nil =>
      cases h
      rfl
  | cons p pieces ih =>
      cases h with
      | cons hread hlater =>
          obtain ⟨hjoin, hreading⟩ := hread
          have hbody := hreading.body_eq
          rw [laterPart, hdrop p List.mem_cons_self] at hbody
          rw [List.map_cons, ih (fun q hq => hdrop q (List.mem_cons_of_mem p hq)) hlater,
              laterText, hjoin, hbody]
          exact congrArg (· :: pieces) (suffix_append_separatorOf p)

/-- **A query without loose blanks is written as it was.** -/
theorem compose_of_parse {query : Text} {ts : List Term} (h : parse query = .ok ts)
    (hstrip : Text.strip query = query) (htab : .char '\t' ∉ query) (hblank : NoLooseBlank query) :
    compose ts = query := by
  have hw := writable_of_parse h
  by_cases hne : Text.strip query = []
  · rw [parse_of_strip_eq_nil hne] at h
    injection h with h
    rw [← h, ← hstrip, hne, compose_nil]
  · have hreads := (parse_eq_ok_iff hne).mp h
    rw [hstrip, expandTabs_of_not_mem 0 htab] at hreads
    obtain ⟨s, pieces, _, hquery, hs, hp⟩ := Text.exists_cut '^' query
    rw [hquery] at hblank hreads
    rw [segments_eq hs hp] at hreads
    cases hreads with
    | cons hfirst hlater =>
        have hdrop := fun p hmem => dropWhile_separatorOf (p := p) hblank hmem
        rw [hw.compose_eq, hfirst.2.body_eq, map_laterText_eq hdrop hlater]
        exact hquery.symm

end Term

end EncodedQuery

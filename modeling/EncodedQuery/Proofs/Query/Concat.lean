/-
  EncodedQuery.Proofs.Query.Concat
  ────────────────────────────────
  **QUERIES ONE BEHIND THE OTHER.**

  Two queries with a separator between them are cut at the carets of both and at
  the one between, so the segments of the whole are the segments of the two.
  Only the first segment of the second query is read differently: it has the
  separator in front, and behind a bare caret the letters of a longer separator
  would be taken for its end.

  Main result: `parse_append`.
-/
import EncodedQuery.Proofs.Query.RoundTrip

namespace EncodedQuery.Term

/-! ## §1. Terms behind a separator. -/

/-- The terms with another separator in front of the first one. -/
def rejoin (sep : Separator) : List Term → List Term
  | [] => []
  | t :: rest => { t with join := some sep } :: rest

theorem rejoin_ne_nil {sep : Separator} {ts : List Term} (h : ts ≠ []) : rejoin sep ts ≠ [] := by
  cases ts with
  | nil => exact absurd rfl h
  | cons t rest => exact List.cons_ne_nil _ _

theorem join_of_head?_rejoin {sep : Separator} {ts : List Term} :
    ∀ t ∈ (rejoin sep ts).head?, t.join = some sep := by
  cases ts with
  | nil => nofun
  | cons t rest => rintro _ ⟨⟩; rfl

/-- The separator is not mistaken for a longer one in front of the text. -/
def Leads (sep : Separator) (s : Text) : Prop :=
  sep = .and → ¬ ("OR" : Text) <+: s ∧ ¬ ("NQ" : Text) <+: s

/-- In front of a query the separator is as good as in front of its first segment. -/
theorem Leads.of_prefix {sep : Separator} {s t : Text} (h : Leads sep t) (hp : s <+: t) :
    Leads sep s :=
  fun hand => ⟨fun hor => (h hand).1 (hor.trans hp), fun hnq => (h hand).2 (hnq.trans hp)⟩

theorem separatorOf_of_leads {sep : Separator} {s : Text} (h : Leads sep s) :
    separatorOf (sep.suffix ++ s) = (sep, s) := by
  by_cases hand : sep = .and
  · subst hand
    exact separatorOf_eq_and_iff.mpr (h rfl)
  · exact separatorOf_suffix_append hand s

/-! ## §2. Concatenation. -/

/-- A query that is read as it stands: not empty, no blank at its ends, no tab. -/
structure Tidy (q : Text) : Prop where
  /-- It is not empty. -/
  ne_nil : q ≠ []
  /-- It is its own strip. -/
  strip : Text.strip q = q
  /-- It holds no tab. -/
  tab : .char '\t' ∉ q

variable {q₁ q₂ : Text} {ts₁ ts₂ : List Term}

theorem Tidy.trim (h : Tidy q₁) : Text.Trim q₁ := by
  have htrim := Text.trim_strip q₁
  rwa [h.strip] at htrim

/-- What a tidy query is read as. -/
theorem Tidy.parse_eq_ok_iff (h : Tidy q₁) :
    parse q₁ = .ok ts₁ ↔ List.Forall₂ Reads (segments q₁) ts₁ := by
  have hne : Text.strip q₁ ≠ [] := by
    rw [h.strip]
    exact h.ne_nil
  rw [Term.parse_eq_ok_iff hne, h.strip, expandTabs_of_not_mem 0 h.tab]

theorem Tidy.ne_nil_of_parse (h : Tidy q₁) (hp : parse q₁ = .ok ts₁) : ts₁ ≠ [] := by
  obtain ⟨s, pieces, _, rfl, hs, hpieces⟩ := Text.exists_cut '^' q₁
  have hreads := h.parse_eq_ok_iff.mp hp
  rw [segments_eq hs hpieces] at hreads
  cases hreads
  exact List.cons_ne_nil _ _

/-- Tidy queries with a separator between them are a tidy query. -/
theorem Tidy.append (h₁ : Tidy q₁) (h₂ : Tidy q₂) (sep : Separator) :
    Tidy (q₁ ++ (sep.token ++ q₂)) where
  ne_nil := List.append_ne_nil_of_left_ne_nil h₁.ne_nil _
  strip := by
    refine Text.strip_eq_self ⟨fun c hc => ?_, fun c hc => ?_⟩
    · rw [List.head?_append_of_ne_nil _ h₁.ne_nil] at hc
      exact h₁.trim.head c hc
    · rw [List.getLast?_append_of_ne_nil _ (List.append_ne_nil_of_right_ne_nil _ h₂.ne_nil),
        List.getLast?_append_of_ne_nil _ h₂.ne_nil] at hc
      exact h₂.trim.last c hc
  tab := by
    intro hmem
    rcases List.mem_append.mp hmem with hmem | hmem
    · exact h₁.tab hmem
    · rcases List.mem_append.mp hmem with hmem | hmem
      · rw [sep.token_eq] at hmem
        rcases List.mem_cons.mp hmem with hc | hc
        · exact absurd hc (by decide)
        · exact sep.tab_not_mem_suffix hc
      · exact h₂.tab hmem

/-- **TERMS OF QUERIES ONE BEHIND THE OTHER.**  They are the terms of the first query and those of
the second one, the separator in front of these. -/
theorem parse_append (h₁ : Tidy q₁) (h₂ : Tidy q₂) {sep : Separator} (hsep : Leads sep q₂)
    (hp₁ : parse q₁ = .ok ts₁) (hp₂ : parse q₂ = .ok ts₂) :
    parse (q₁ ++ (sep.token ++ q₂)) = .ok (ts₁ ++ rejoin sep ts₂) := by
  rw [(h₁.append h₂ sep).parse_eq_ok_iff]
  rw [h₁.parse_eq_ok_iff] at hp₁
  rw [h₂.parse_eq_ok_iff] at hp₂
  have htrim := h₂.trim
  have htab := h₂.tab
  obtain ⟨s₁, pieces₁, _, rfl, hs₁, hpieces₁⟩ := Text.exists_cut '^' q₁
  obtain ⟨s₂, pieces₂, _, rfl, hs₂, hpieces₂⟩ := Text.exists_cut '^' q₂
  have htext : s₁ ++ Text.marked '^' pieces₁ ++ (sep.token ++ (s₂ ++ Text.marked '^' pieces₂))
      = s₁ ++ Text.marked '^' (pieces₁ ++ (sep.suffix ++ s₂) :: pieces₂) := by
    simp [Text.marked, sep.token_eq]
  -- no separator holds a caret but the one it begins with, so the whole is cut there and nowhere
  -- new
  have hmiddle : ∀ p ∈ pieces₁ ++ (sep.suffix ++ s₂) :: pieces₂, .char '^' ∉ p := by
    refine List.forall_mem_append.mpr ⟨hpieces₁, List.forall_mem_cons.mpr ⟨?_, hpieces₂⟩⟩
    intro hmem
    rcases List.mem_append.mp hmem with hmem | hmem
    · exact sep.caret_not_mem_suffix hmem
    · exact hs₂ hmem
  -- the segment between the two queries is the first one of the second, behind the separator
  have hbreak : s₂.dropWhile isBreak = s₂ := by
    rw [← dropWhile_isGap_eq (fun hmem => htab (List.mem_append_left _ hmem))]
    exact dropWhile_isGap_of_trim htrim
  have hlater : laterPart (sep.suffix ++ s₂) = (some sep, s₂) := by
    rw [laterPart, separatorOf_of_leads (hsep.of_prefix (List.prefix_append _ _)), hbreak]
  rw [segments_eq hs₁ hpieces₁] at hp₁
  rw [segments_eq hs₂ hpieces₂] at hp₂
  rw [htext, segments_eq hs₁ hmiddle, List.map_append, List.map_cons, hlater, ← List.cons_append]
  refine List.rel_append hp₁ ?_
  cases hp₂ with
  | cons hfirst hrest => exact .cons ⟨rfl, hfirst.2⟩ hrest

end EncodedQuery.Term

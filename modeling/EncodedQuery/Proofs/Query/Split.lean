/-
  EncodedQuery.Proofs.Query.Split
  ───────────────────────────────
  **A QUERY IS CUT AT ITS CARETS.**

  The scan of a query goes from left to right: a term, then separators with
  their terms as long as they can be found, then the end of the text.  It never
  goes back, so a separator that is found but has no term behind it ends the
  row, and with it the scan.  Here the scan is compared with a plain cut of the
  text at every caret, in which each segment is read by itself.

  Main results:
    • `scanLater_append` — one step of the scan is one segment,
    • `scanQuery_eq` — the scan of a text is the reading of all its segments,
    • `parse_accepts_iff`, `parse_eq_ok_iff` — which queries are accepted, and
      what they are read as,
    • `parse_grammar` — both together, for every text.
-/
import Mathlib.Data.List.Forall2
import EncodedQuery.Proofs.Query.Segment

namespace EncodedQuery.Term

/-! ## §1. Segments and what stands in front of them. -/

/-- A blank that is skipped in front of a term of a text without tabs. -/
def isBreak (c : CodePoint) : Bool := c = ' ' ∨ c = '\n' ∨ c = '\r'

/-- The separator that the text behind a caret belongs to, and the text behind the separator. -/
def separatorOf (s : Text) : Separator × Text :=
  if Text.startsWith s "NQ" then (.newQuery, s.drop 2)
  else if Text.startsWith s "OR" then (.or, s.drop 2)
  else (.and, s)

/-- A later segment: the rest of the separator and the blanks behind it are taken off. -/
def laterPart (s : Text) : Option Separator × Text :=
  (some (separatorOf s).1, (separatorOf s).2.dropWhile isBreak)

/-- The segments of a text, which is cut at every caret. -/
def segments (t : Text) : List (Option Separator × Text) :=
  match Text.cut '^' t with
  | [] => []
  | first :: later => (none, first) :: later.map laterPart

/-- A term is the reading of its segment. -/
def Reads (segment : Option Separator × Text) (t : Term) : Prop :=
  t.join = segment.1 ∧ IsReading segment.2 t

/-- The text of a segment can be split somewhere. -/
def Splits (segment : Option Separator × Text) : Prop := ∃ p, IsSplit segment.2 p

/-- The term that the scan finds behind a caret. -/
def ofLater? (s : Text) : Option Term :=
  ofSegment? (some (separatorOf s).1) (separatorOf s).2

theorem separatorOf_suffix (s : Text) : (separatorOf s).2 <:+ s := by
  unfold separatorOf
  split
  · exact List.drop_suffix 2 s
  · split
    · exact List.drop_suffix 2 s
    · exact List.suffix_refl s

/-! ## §2. One step of the scan. -/

theorem dropHead?_cons_cons (c : CodePoint) (t head : Text) :
    Text.dropHead? (c :: t) (c :: head) = Text.dropHead? t head := by
  unfold Text.dropHead?
  simp

theorem exactly_caret {α : Type} (tail s : Text) (a : α) :
    Scan.exactly (.char '^' :: tail) a (.char '^' :: s)
      = (Text.dropHead? s tail).map (fun rest => (a, rest)) := by
  show (Text.dropHead? (.char '^' :: s) (.char '^' :: tail)).map _ = _
  rw [dropHead?_cons_cons]

theorem dropHead?_eq_if (s head : Text) :
    Text.dropHead? s head
      = if Text.startsWith s head then some (s.drop head.length) else none := rfl

/-- The separator behind a caret: the tokens with letters are tried first, and what follows the
segment does not count. -/
theorem scanSeparator_append {s r : Text} (hr : Text.StopsAt '^' r) :
    scanSeparator (.char '^' :: (s ++ r)) = some ((separatorOf s).1, (separatorOf s).2 ++ r) := by
  -- each alternative begins with the caret; the last one, the caret alone, never fails
  have hscan : scanSeparator (.char '^' :: (s ++ r))
      = (((Text.dropHead? (s ++ r) "NQ").map (fun rest => (Separator.newQuery, rest))).or
          (((Text.dropHead? (s ++ r) "OR").map (fun rest => (Separator.or, rest))).or
            (some (.and, s ++ r)))) := by
    show List.findSome? (fun p => p (.char '^' :: (s ++ r)))
      [Scan.exactly (.char '^' :: ("NQ" : Text)) Separator.newQuery,
        Scan.exactly (.char '^' :: ("OR" : Text)) Separator.or,
        Scan.exactly ['^'] Separator.and] = _
    simp only [List.findSome?_cons, List.findSome?_nil, exactly_caret]
    cases Text.dropHead? (s ++ r) "NQ" with
    | some rest => rfl
    | none => cases Text.dropHead? (s ++ r) "OR" <;> rfl
  rw [hscan, Text.dropHead?_append hr (by decide), Text.dropHead?_append hr (by decide),
      dropHead?_eq_if, dropHead?_eq_if, separatorOf]
  by_cases hnq : Text.startsWith s "NQ" = true
  · rw [if_pos hnq, if_pos hnq]
    rfl
  · rw [if_neg hnq, if_neg hnq]
    by_cases hor : Text.startsWith s "OR" = true
    · rw [if_pos hor, if_pos hor]
      rfl
    · rw [if_neg hor, if_neg hor]
      rfl

/-- **One step of the scan is one segment.** -/
theorem scanLater_append {s r : Text} (hs : .char '^' ∉ s) (hr : Text.StopsAt '^' r) :
    scanLater (.char '^' :: (s ++ r)) = (ofLater? s).map (fun t => (t, r)) := by
  have hrest : .char '^' ∉ (separatorOf s).2 := fun hmem => hs ((separatorOf_suffix s).subset hmem)
  unfold scanLater Scan.andThen
  rw [scanSeparator_append hr, Option.bind_some]
  show scan (some (separatorOf s).1) ((separatorOf s).2 ++ r) = _
  rw [scan_append _ hrest hr]
  rfl

/-! ## §3. The row of later terms. -/

/-- When every segment has a term, the row takes the whole text. -/
theorem upTo_of_mapM_eq_some :
    ∀ {n : Nat} {pieces : List Text} {ts : List Term}, pieces.length ≤ n →
      (∀ p ∈ pieces, .char '^' ∉ p) → pieces.mapM ofLater? = some ts →
      Scan.upTo scanLater n (Text.marked '^' pieces) = some (ts, [])
  | n, [], ts, _, _, h => by
      injection h with h
      subst h
      cases n <;> rfl
  | 0, s :: pieces, ts, hn, _, _ => absurd hn (by simp)
  | n + 1, s :: pieces, ts, hn, hp, h => by
      rw [List.mapM_cons] at h
      obtain ⟨t, ht, later, hlater, hts⟩ : ∃ t, ofLater? s = some t ∧
          ∃ later, pieces.mapM ofLater? = some later ∧ t :: later = ts := by
        simpa [Option.bind_eq_some_iff] using h
      have hstep := scanLater_append (hp s List.mem_cons_self)
        (Text.stopsAt_marked '^' pieces)
      -- the bound of the row falls by one with each segment
      have hrow := upTo_of_mapM_eq_some (n := n) (by simpa using hn)
        (fun p hmem => hp p (List.mem_cons_of_mem s hmem)) hlater
      rw [ht, Option.map_some] at hstep
      simp only [Text.marked_cons, Scan.upTo, hstep, hrow, Option.map_some, hts]

/-- When some segment has no term, the row stops in front of its caret. -/
theorem upTo_of_mapM_eq_none :
    ∀ {n : Nat} {pieces : List Text}, pieces.length ≤ n → (∀ p ∈ pieces, .char '^' ∉ p) →
      pieces.mapM ofLater? = none →
      ∃ found rest, Scan.upTo scanLater n (Text.marked '^' pieces) = some (found, .char '^' :: rest)
  | n, [], _, _, h => absurd h (by simp)
  | 0, s :: pieces, hn, _, _ => absurd hn (by simp)
  | n + 1, s :: pieces, hn, hp, h => by
      have hstep := scanLater_append (hp s List.mem_cons_self)
        (Text.stopsAt_marked '^' pieces)
      rw [List.mapM_cons] at h
      cases ht : ofLater? s with
      | none =>
          -- the separator is found and no term behind it: the row ends in front of the caret
          rw [ht, Option.map_none] at hstep
          refine ⟨[], s ++ Text.marked '^' pieces, ?_⟩
          simp only [Text.marked_cons, Scan.upTo, hstep]
      | some t =>
          have hlater : pieces.mapM ofLater? = none := by
            cases hl : pieces.mapM ofLater? with
            | none => rfl
            | some later =>
                rw [ht, hl] at h
                exact absurd h (by simp)
          obtain ⟨found, rest, hrow⟩ := upTo_of_mapM_eq_none (n := n) (by simpa using hn)
            (fun p hmem => hp p (List.mem_cons_of_mem s hmem)) hlater
          rw [ht, Option.map_some] at hstep
          refine ⟨t :: found, rest, ?_⟩
          simp only [Text.marked_cons, Scan.upTo, hstep, hrow, Option.map_some]

/-- **The scan of a text is the reading of all its segments.** -/
theorem scanQuery_eq {s : Text} {pieces : List Text} (hs : .char '^' ∉ s)
    (hp : ∀ p ∈ pieces, .char '^' ∉ p) :
    scanQuery (s ++ Text.marked '^' pieces)
      = (ofSegment? none s).bind (fun t =>
          (pieces.mapM ofLater?).map (fun later => (t :: later, []))) := by
  have hlen := Text.length_le_length_marked '^' pieces
  have hfirst := scan_append none hs (Text.stopsAt_marked '^' pieces)
  unfold scanQuery Scan.andThen
  rw [hfirst]
  cases ofSegment? none s with
  | none => rfl
  | some t =>
      rw [Option.map_some, Option.bind_some, Option.bind_some]
      show (Scan.upTo scanLater _ (Text.marked '^' pieces)).bind _ = _
      cases hm : pieces.mapM ofLater? with
      | some later =>
          rw [upTo_of_mapM_eq_some hlen hp hm]
          rfl
      | none =>
          -- a caret is left over where the text should end
          obtain ⟨found, rest, hrow⟩ := upTo_of_mapM_eq_none hlen hp hm
          rw [hrow]
          rfl

/-! ## §4. The text that is scanned. -/

theorem tab_not_mem_expandTabs : ∀ (t : Text) (column : Nat), .char '\t' ∉ expandTabs column t
  | [], _ => by simp [expandTabs]
  | c :: rest, column => by
      by_cases hc : c = '\t'
      · rw [expandTabs, if_pos hc]
        intro hmem
        rcases List.mem_append.mp hmem with h | h
        · exact absurd (List.eq_of_mem_replicate h) (by decide)
        · exact tab_not_mem_expandTabs rest _ h
      · rw [expandTabs, if_neg hc]
        intro hmem
        rcases List.mem_cons.mp hmem with h | h
        · exact hc h.symm
        · exact tab_not_mem_expandTabs rest _ h

theorem expandTabs_of_not_mem : ∀ {t : Text} (column : Nat),
    .char '\t' ∉ t → expandTabs column t = t
  | [], _, _ => rfl
  | c :: rest, column, h => by
      rw [List.mem_cons, not_or] at h
      obtain ⟨hc, hrest⟩ := h
      rw [expandTabs, if_neg (Ne.symm hc), expandTabs_of_not_mem _ hrest]

theorem expandTabs_concat {c : CodePoint} (hc : c ≠ '\t') :
    ∀ (t : Text) (column : Nat), expandTabs column (t ++ [c]) = expandTabs column t ++ [c]
  | [], column => by
      show expandTabs column [c] = [c]
      rw [expandTabs, if_neg hc, expandTabs]
  | d :: rest, column => by
      rw [List.cons_append, expandTabs, expandTabs]
      by_cases hd : d = '\t'
      · simp only [if_pos hd]
        rw [expandTabs_concat hc rest, List.append_assoc]
      · simp only [if_neg hd]
        rw [expandTabs_concat hc rest, List.cons_append]

theorem isBlank_of_isGap {c : CodePoint} (h : Scan.isGap c = true) : Text.isBlank c = true := by
  simp only [Scan.isGap, decide_eq_true_eq] at h
  rcases h with rfl | rfl | rfl | rfl <;> decide

theorem ne_tab_of_not_blank {c : CodePoint} (h : Text.isBlank c = false) : c ≠ '\t' := by
  rintro rfl
  exact absurd h (by decide)

/-- The expansion of tabs leaves the ends of a trimmed text as they are. -/
theorem trim_expandTabs {t : Text} (h : Text.Trim t) : Text.Trim (expandTabs 0 t) where
  head := by
    intro c hc
    cases t with
    | nil => exact absurd hc (by simp [expandTabs])
    | cons d rest =>
        -- a tab is a blank, so none stands at the front
        have hd := h.head d rfl
        rw [expandTabs, if_neg (ne_tab_of_not_blank hd), List.head?_cons] at hc
        rw [← Option.some.inj hc]
        exact hd
  last := by
    intro c hc
    rcases List.eq_nil_or_concat t with rfl | ⟨front, d, rfl⟩
    · exact absurd hc (by simp [expandTabs])
    · have hd := h.last d (by simp)
      rw [List.concat_eq_append, expandTabs_concat (ne_tab_of_not_blank hd),
          List.getLast?_concat] at hc
      rw [← Option.some.inj hc]
      exact hd

/-- In a text without tabs the gaps of the scan are the breaks of the segments. -/
theorem dropWhile_isGap_eq {s : Text} (h : .char '\t' ∉ s) :
    s.dropWhile Scan.isGap = s.dropWhile isBreak := by
  induction s with
  | nil => rfl
  | cons c rest ih =>
      have hc : c ≠ '\t' := fun hc => h (hc ▸ List.mem_cons_self)
      have hgap : Scan.isGap c = isBreak c := by
        simp only [Scan.isGap, isBreak, hc, false_or]
      rw [List.dropWhile_cons, List.dropWhile_cons, hgap,
          ih (fun hmem => h (List.mem_cons_of_mem c hmem))]

/-- A trimmed text has no gap in front of its first segment. -/
theorem dropWhile_isGap_of_trim {s : Text} {pieces : List Text}
    (h : Text.Trim (s ++ Text.marked '^' pieces)) : s.dropWhile Scan.isGap = s := by
  cases s with
  | nil => rfl
  | cons c rest =>
      have hgap : ¬ Scan.isGap c = true := by
        intro hc
        have hblank := h.head c (by simp)
        rw [isBlank_of_isGap hc] at hblank
        exact absurd hblank (by decide)
      rw [List.dropWhile_cons, if_neg hgap]

/-! ## §5. Accepted queries. -/

section Traversal

variable {α β : Type} {f : α → Option β}

theorem mapM_eq_some_iff {R : α → β → Prop} :
    ∀ {xs : List α} {ys : List β}, (∀ x ∈ xs, ∀ y, f x = some y ↔ R x y) →
      (xs.mapM f = some ys ↔ List.Forall₂ R xs ys)
  | [], ys, _ => by
      rw [List.mapM_nil, List.forall₂_nil_left_iff]
      show some [] = some ys ↔ ys = []
      rw [Option.some.injEq, eq_comm]
  | x :: xs, ys, h => by
      have ih : ∀ {zs : List β}, xs.mapM f = some zs ↔ List.Forall₂ R xs zs :=
        mapM_eq_some_iff (fun x' hx' => h x' (List.mem_cons_of_mem x hx'))
      have hx := h x List.mem_cons_self
      rw [List.mapM_cons, List.forall₂_cons_left_iff]
      show (f x).bind (fun y => (xs.mapM f).bind (fun zs => some (y :: zs))) = some ys ↔ _
      simp only [Option.bind_eq_some_iff, hx, ih, Option.some.injEq]
      constructor
      · rintro ⟨y, hy, zs, hzs, rfl⟩
        exact ⟨y, zs, hy, hzs, rfl⟩
      · rintro ⟨y, zs, hy, hzs, rfl⟩
        exact ⟨y, hy, zs, hzs, rfl⟩

theorem isSome_mapM_iff :
    ∀ {xs : List α}, (xs.mapM f).isSome = true ↔ ∀ x ∈ xs, (f x).isSome = true
  | [] => by simp
  | x :: xs => by
      have ih : (xs.mapM f).isSome = true ↔ ∀ x ∈ xs, (f x).isSome = true := isSome_mapM_iff
      rw [List.mapM_cons, List.forall_mem_cons, ← ih]
      cases f x with
      | none => simp
      | some y => cases xs.mapM f <;> simp

theorem mapM_congr {g : α → Option β} :
    ∀ {xs : List α}, (∀ x ∈ xs, f x = g x) → xs.mapM f = xs.mapM g
  | [], _ => rfl
  | x :: xs, h => by
      rw [List.mapM_cons, List.mapM_cons, h x List.mem_cons_self,
          mapM_congr (fun x' hx' => h x' (List.mem_cons_of_mem x hx'))]

end Traversal

/-- The term that the scan finds in a segment of the cut. -/
def ofPart? (segment : Option Separator × Text) : Option Term := ofSegment? segment.1 segment.2

theorem segments_eq {s : Text} {pieces : List Text} (hs : .char '^' ∉ s)
    (hp : ∀ p ∈ pieces, .char '^' ∉ p) :
    segments (s ++ Text.marked '^' pieces)
      = (none, s) :: pieces.map laterPart := by
  rw [segments, Text.cut_append_marked hs hp]

/-- The scan of a text without tabs reads the segments of its cut. -/
theorem scanQuery_eq_mapM {t : Text} (htab : .char '\t' ∉ t) :
    scanQuery t = ((segments t).mapM ofPart?).map (fun ts => (ts, [])) := by
  obtain ⟨s, pieces, _, rfl, hs, hp⟩ := Text.exists_cut '^' t
  -- the scan skips tabs too, but there are none
  have hlater : (pieces.map laterPart).mapM ofPart? = pieces.mapM ofLater? := by
    rw [List.mapM_map]
    refine mapM_congr ?_
    intro p hmem
    have htab' : .char '\t' ∉ (separatorOf p).2 := by
      intro h
      refine htab (List.mem_append_right s ?_)
      exact (Text.infix_of_mem_marked hmem).subset
        (List.mem_cons_of_mem _ ((separatorOf_suffix p).subset h))
    show ofSegment? (some (separatorOf p).1) ((separatorOf p).2.dropWhile isBreak)
        = ofSegment? (some (separatorOf p).1) (separatorOf p).2
    rw [← dropWhile_isGap_eq htab', ofSegment?_dropWhile_isGap]
  rw [scanQuery_eq hs hp, segments_eq hs hp, List.mapM_cons, hlater]
  show _ = ((ofSegment? none s).bind (fun t =>
    (pieces.mapM ofLater?).bind (fun later => some (t :: later)))).map _
  cases ofSegment? none s with
  | none => rfl
  | some t => cases pieces.mapM ofLater? <;> rfl

/-- A segment holds characters of its text, and no caret. -/
theorem mem_of_mem_segments {t : Text} {part : Option Separator × Text} (h : part ∈ segments t) :
    ∀ c ∈ part.2, c ∈ t ∧ c ≠ '^' := by
  obtain ⟨s, pieces, _, rfl, hs, hp⟩ := Text.exists_cut '^' t
  rw [segments_eq hs hp] at h
  intro c hc
  rcases List.mem_cons.mp h with rfl | h
  · exact ⟨List.mem_append_left _ hc, fun hcaret => hs (hcaret ▸ hc)⟩
  · obtain ⟨p, hmem, rfl⟩ := List.mem_map.mp h
    have hcp : c ∈ p := (separatorOf_suffix p).subset ((List.dropWhile_sublist _).subset hc)
    refine ⟨List.mem_append_right s ?_, fun hcaret => hp p hmem (hcaret ▸ hcp)⟩
    exact (Text.infix_of_mem_marked hmem).subset (List.mem_cons_of_mem _ hcp)

/-- The segments of a trimmed text without tabs hold no caret and begin with no gap. -/
theorem clean_of_mem_segments {t : Text} (ht : Text.Trim t) (htab : .char '\t' ∉ t)
    {part : Option Separator × Text} (h : part ∈ segments t) :
    .char '^' ∉ part.2 ∧ part.2.dropWhile Scan.isGap = part.2 := by
  have hchars := mem_of_mem_segments h
  refine ⟨fun hc => (hchars '^' hc).2 rfl, ?_⟩
  obtain ⟨s, pieces, _, rfl, hs, hp⟩ := Text.exists_cut '^' t
  rw [segments_eq hs hp] at h
  rcases List.mem_cons.mp h with rfl | h
  · exact dropWhile_isGap_of_trim ht
  · obtain ⟨p, _, rfl⟩ := List.mem_map.mp h
    rw [dropWhile_isGap_eq (fun hc => htab (hchars '\t' hc).1), laterPart,
        List.dropWhile_idempotent]

theorem parse_of_strip_eq_nil {query : Text} (h : Text.strip query = []) :
    parse query = .ok [] := by
  rw [parse, h]
  rfl

/-- The terms of a query, or the failure when some segment has none. -/
theorem parse_eq {query : Text} (h : Text.strip query ≠ []) :
    parse query = match (segments (expandTabs 0 (Text.strip query))).mapM ofPart? with
      | some terms => .ok terms
      | none => .error (.badQuery "Invalid query syntax") := by
  have hne : (Text.strip query).isEmpty = false := by
    simpa [List.isEmpty_eq_false_iff] using h
  unfold parse
  simp only [hne, Bool.false_eq_true, if_false,
    scanQuery_eq_mapM (tab_not_mem_expandTabs (Text.strip query) 0)]
  cases (segments (expandTabs 0 (Text.strip query))).mapM ofPart? <;> rfl

/-- **What an accepted query is read as**: each of its segments has its reading. -/
theorem parse_eq_ok_iff {query : Text} {terms : List Term} (h : Text.strip query ≠ []) :
    parse query = .ok terms
      ↔ List.Forall₂ Reads (segments (expandTabs 0 (Text.strip query))) terms := by
  have htab := tab_not_mem_expandTabs (Text.strip query) 0
  have htrim := trim_expandTabs (Text.trim_strip query)
  have hread : ∀ part ∈ segments (expandTabs 0 (Text.strip query)), ∀ t,
      ofPart? part = some t ↔ Reads part t := by
    intro part hmem t
    obtain ⟨hcaret, hgap⟩ := clean_of_mem_segments htrim htab hmem
    rw [ofPart?, ofSegment?_eq_some_iff hcaret, hgap]
    rfl
  rw [← mapM_eq_some_iff hread, parse_eq h]
  cases (segments (expandTabs 0 (Text.strip query))).mapM ofPart? <;> simp

/-- **Which queries are accepted**: those whose segments can all be split. -/
theorem parse_accepts_iff {query : Text} (h : Text.strip query ≠ []) :
    (∃ terms, parse query = .ok terms)
      ↔ ∀ part ∈ segments (expandTabs 0 (Text.strip query)), Splits part := by
  have htab := tab_not_mem_expandTabs (Text.strip query) 0
  have htrim := trim_expandTabs (Text.trim_strip query)
  have hsplit : (∀ part ∈ segments (expandTabs 0 (Text.strip query)), Splits part)
      ↔ ((segments (expandTabs 0 (Text.strip query))).mapM ofPart?).isSome = true := by
    rw [isSome_mapM_iff]
    refine forall₂_congr (fun part hmem => ?_)
    obtain ⟨hcaret, hgap⟩ := clean_of_mem_segments htrim htab hmem
    rw [ofPart?, ofSegment?_isSome_iff hcaret, hgap]
    rfl
  rw [hsplit, parse_eq h]
  cases (segments (expandTabs 0 (Text.strip query))).mapM ofPart? <;> simp

/-- A query that is not accepted is malformed. -/
theorem parse_eq_error {query : Text} (h : ¬ ∃ terms, parse query = .ok terms) :
    parse query = .error (.badQuery "Invalid query syntax") := by
  by_cases hne : Text.strip query = []
  · exact absurd ⟨[], parse_of_strip_eq_nil hne⟩ h
  · rw [parse_eq hne] at h ⊢
    cases hm : (segments (expandTabs 0 (Text.strip query))).mapM ofPart? with
    | none => rfl
    | some terms =>
        rw [hm] at h
        exact absurd ⟨terms, rfl⟩ h

/-- **THE GRAMMAR OF QUERIES.**  A blank query has no terms.  Any other one is accepted exactly
when each of its segments can be split, and then every segment is split at the least place by
the longest token there; whatever is not accepted is malformed. -/
theorem parse_grammar (query : Text) :
    (Text.strip query = [] → parse query = .ok [])
      ∧ (Text.strip query ≠ [] →
          ((∃ terms, parse query = .ok terms)
            ↔ ∀ part ∈ segments (expandTabs 0 (Text.strip query)), Splits part)
          ∧ ∀ terms, parse query = .ok terms →
              List.Forall₂ Reads (segments (expandTabs 0 (Text.strip query))) terms)
      ∧ ((¬ ∃ terms, parse query = .ok terms) →
          parse query = .error (.badQuery "Invalid query syntax")) :=
  ⟨parse_of_strip_eq_nil,
    fun h => ⟨parse_accepts_iff h, fun _ hparse => (parse_eq_ok_iff h).mp hparse⟩,
    parse_eq_error⟩

/-- The first place counts, even inside of a word, and the longest token there. -/
example : parse ("ORIGIN=1^NQ bNOT INc" : Text)
    = .ok [⟨none, "ORIG", .inList, "=1"⟩, ⟨some .newQuery, "b", .notInList, "c"⟩] := by rfl

end EncodedQuery.Term

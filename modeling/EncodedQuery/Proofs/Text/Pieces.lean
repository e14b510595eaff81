/-
  EncodedQuery.Proofs.Text.Pieces
  ───────────────────────────────
  **TEXTS IN PIECES.**

  A text is its first piece followed by the later ones, each with the separator
  in front (`marked`).  `Text.cut` finds exactly these pieces, and a text
  without the separator in it begins the whole only if it begins the first
  piece.  The later sections hold what stripping leaves at both ends, what occurs
  in a text, and where a separator with a text behind it occurs among pieces.

  Main results:
    • `exists_cut`, `cut_append_marked` — cutting is the inverse of putting together,
    • `prefix_append_iff` — a separator stops a comparison with the front,
    • `strip_eq_self` — a text with no blank at its ends is its own strip,
    • `mem_of_between`, `occurrences_marked` — what stands behind a separator is a piece,
      or begins one.
-/
import Mathlib.Data.List.DropRight
import EncodedQuery.Text.Blank

namespace EncodedQuery.Text

/-! ## §1. Pieces and their separators. -/

/-- The pieces one behind the other, each with the separator in front. -/
def marked (sep : CodePoint) (pieces : List Text) : Text := pieces.flatMap (fun s => sep :: s)

@[simp] theorem marked_nil (sep : CodePoint) : marked sep [] = [] := rfl

@[simp] theorem marked_cons (sep : CodePoint) (s : Text) (pieces : List Text) :
    marked sep (s :: pieces) = sep :: (s ++ marked sep pieces) := rfl

theorem length_le_length_marked (sep : CodePoint) (pieces : List Text) :
    pieces.length ≤ (marked sep pieces).length := by
  induction pieces with
  | nil => exact Nat.le_refl 0
  | cons s pieces ih =>
      simp only [marked_cons, List.length_cons, List.length_append]
      omega

/-- A piece with its separator is a stretch of the whole. -/
theorem infix_of_mem_marked {sep : CodePoint} {pieces : List Text} {s : Text} (h : s ∈ pieces) :
    (sep :: s) <:+: marked sep pieces := by
  obtain ⟨before, behind, rfl⟩ := List.append_of_mem h
  refine ⟨marked sep before, marked sep behind, ?_⟩
  simp [marked]

theorem cut_eq_splitOn (sep : CodePoint) : ∀ t : Text, cut sep t = t.splitOn sep
  | [] => by rw [cut, List.splitOn_nil]
  | c :: rest => by
      rw [cut, List.splitOn_cons_eq_if_modifyHead, cut_eq_splitOn sep rest]
      by_cases h : c = sep
      · rw [if_pos h, if_pos (by simpa using h)]
      · rw [if_neg h, if_neg (by simpa using h)]
        cases hp : rest.splitOn sep with
        | nil => exact absurd hp (List.splitOn_ne_nil sep rest)
        | cons piece pieces => rfl

/-- **Cutting finds the pieces that were put together.** -/
theorem cut_append_marked {sep : CodePoint} :
    ∀ {s : Text} {pieces : List Text}, sep ∉ s → (∀ p ∈ pieces, sep ∉ p) →
      cut sep (s ++ marked sep pieces) = s :: pieces
  | s, [], hs, _ => by
      rw [marked_nil, List.append_nil, cut_eq_splitOn, List.splitOn_eq_singleton hs]
  | s, p :: pieces, hs, hp => by
      rw [marked_cons, cut_eq_splitOn, List.splitOn_append_cons_self_of_not_mem hs,
          ← cut_eq_splitOn, cut_append_marked (hp p List.mem_cons_self)
            (fun q hq => hp q (List.mem_cons_of_mem p hq))]

/-- **A text is its pieces put together again**, and no piece holds the separator. -/
theorem exists_cut (sep : CodePoint) (t : Text) :
    ∃ s pieces, cut sep t = s :: pieces ∧ t = s ++ marked sep pieces
      ∧ sep ∉ s ∧ ∀ p ∈ pieces, sep ∉ p := by
  induction t with
  | nil => exact ⟨[], [], rfl, rfl, by simp, by simp⟩
  | cons c rest ih =>
      obtain ⟨s, pieces, hcut, hrest, hs, hp⟩ := ih
      by_cases hc : c = sep
      · -- a separator closes an empty first piece
        refine ⟨[], s :: pieces, ?_, ?_, by simp, ?_⟩
        · rw [cut, if_pos hc, hcut]
        · rw [hc, hrest]; rfl
        · intro p hmem
          rcases List.mem_cons.mp hmem with rfl | hmem
          · exact hs
          · exact hp p hmem
      · refine ⟨c :: s, pieces, ?_, ?_, ?_, hp⟩
        · rw [cut, if_neg hc, hcut]
        · rw [hrest]; rfl
        · intro hmem
          rcases List.mem_cons.mp hmem with h | h
          · exact hc h.symm
          · exact hs h

/-- No piece between separators holds one. -/
theorem not_mem_of_mem_cut {sep : CodePoint} {t p : Text} (h : p ∈ cut sep t) : sep ∉ p := by
  obtain ⟨s, pieces, hcut, _, hs, hp⟩ := exists_cut sep t
  rw [hcut] at h
  rcases List.mem_cons.mp h with rfl | h
  · exact hs
  · exact hp p h

/-- Cutting finds the pieces that a separator was put between. -/
theorem cut_join {sep : CodePoint} {pieces : List Text} (hne : pieces ≠ [])
    (h : ∀ p ∈ pieces, sep ∉ p) : cut sep (join [sep] pieces) = pieces := by
  rw [cut_eq_splitOn]
  exact List.splitOn_intercalate sep h hne

/-- What is added behind a text is added to its last piece. -/
theorem exists_cut_append {sep : CodePoint} {s : Text} (hs : sep ∉ s) (t : Text) :
    ∃ pieces last, cut sep t = pieces ++ [last] ∧ cut sep (t ++ s) = pieces ++ [last ++ s] := by
  induction t with
  | nil =>
      refine ⟨[], [], rfl, ?_⟩
      rw [List.nil_append, cut_eq_splitOn, List.splitOn_eq_singleton hs]
      rfl
  | cons c rest ih =>
      obtain ⟨pieces, last, hrest, hall⟩ := ih
      rw [List.cons_append, cut, cut, hrest, hall]
      by_cases hc : c = sep
      · rw [if_pos hc, if_pos hc]
        exact ⟨[] :: pieces, last, rfl, rfl⟩
      · rw [if_neg hc, if_neg hc]
        cases pieces with
        | nil => exact ⟨[], c :: last, rfl, rfl⟩
        | cons piece pieces => exact ⟨(c :: piece) :: pieces, last, rfl, rfl⟩

/-! ## §2. The front of a text. -/

/-- Nothing, or a text that begins with the separator. -/
def StopsAt (sep : CodePoint) (r : Text) : Prop := ∀ c ∈ r.head?, c = sep

theorem stopsAt_marked (sep : CodePoint) (pieces : List Text) :
    StopsAt sep (marked sep pieces) := by
  cases pieces with
  | nil => intro c hc; simp at hc
  | cons s pieces => intro c hc; simpa using hc.symm

/-- **What holds no separator begins the whole only if it begins the first piece.** -/
theorem prefix_append_iff {sep : CodePoint} {r : Text} (hr : StopsAt sep r) :
    ∀ {a s : Text}, sep ∉ a → (a <+: s ++ r ↔ a <+: s)
  | [], s, _ => by simp
  | x :: a, [], ha => by
      constructor
      · -- `r` is empty or begins with the separator, and `x` is no separator
        intro h
        rw [List.nil_append] at h
        cases r with
        | nil => exact h
        | cons c r =>
            have hc : c = sep := hr c rfl
            have hx : x = c := (List.cons_prefix_cons.mp h).1
            exact absurd List.mem_cons_self (by rw [hx, hc] at ha; exact ha)
      · intro h
        exact absurd h (by simp)
  | x :: a, c :: s, ha => by
      rw [List.cons_append, List.cons_prefix_cons, List.cons_prefix_cons,
          prefix_append_iff hr (fun h => ha (List.mem_cons_of_mem x h))]

theorem dropHead?_eq_some_iff {t head rest : Text} :
    dropHead? t head = some rest ↔ t = head ++ rest := by
  unfold dropHead?
  constructor
  · intro h
    split at h
    next hp =>
      injection h with h
      have hp := List.prefix_iff_eq_append.mp (List.isPrefixOf_iff_prefix.mp hp)
      rw [← hp, h]
    next => exact absurd h (by simp)
  · rintro rfl
    rw [if_pos (List.isPrefixOf_iff_prefix.mpr (List.prefix_append head rest)),
        List.drop_left]

theorem dropHead?_eq_none_iff {t head : Text} : dropHead? t head = none ↔ ¬ head <+: t := by
  unfold dropHead?
  rw [← List.isPrefixOf_iff_prefix]
  split <;> simp_all

/-- A head without the separator is dropped from the first piece. -/
theorem dropHead?_append {sep : CodePoint} {s r head : Text} (hr : StopsAt sep r)
    (hh : sep ∉ head) :
    dropHead? (s ++ r) head = (dropHead? s head).map (· ++ r) := by
  cases h : dropHead? s head with
  | none =>
      rw [Option.map_none, dropHead?_eq_none_iff, prefix_append_iff hr hh]
      exact dropHead?_eq_none_iff.mp h
  | some rest =>
      rw [Option.map_some, dropHead?_eq_some_iff, dropHead?_eq_some_iff.mp h, List.append_assoc]

/-! ## §3. The ends of a text. -/

/-- Neither end of the text is blank. -/
structure Trim (t : Text) : Prop where
  /-- The first character is no blank. -/
  head : ∀ c ∈ t.head?, isBlank c = false
  /-- The last character is no blank. -/
  last : ∀ c ∈ t.getLast?, isBlank c = false

theorem stripRight_eq_rdropWhile (t : Text) : stripRight t = t.rdropWhile isBlank := rfl

/-- Stripping leaves nothing of a text of blanks, and of no other text. -/
theorem strip_eq_nil_iff {t : Text} : strip t = [] ↔ ∀ c ∈ t, isBlank c = true := by
  rw [strip, stripRight_eq_rdropWhile, List.rdropWhile_eq_nil_iff]
  constructor
  · intro h c hc
    rw [← List.takeWhile_append_dropWhile (p := isBlank) (l := t)] at hc
    rcases List.mem_append.mp hc with hc | hc
    · exact List.mem_takeWhile_imp hc
    · exact h c hc
  · intro h c hc
    exact h c (List.dropWhile_subset isBlank hc)

/-- A text with no blank at its ends is its own strip. -/
theorem strip_eq_self {t : Text} (h : Trim t) : strip t = t := by
  have hleft : stripLeft t = t := by
    cases t with
    | nil => rfl
    | cons c rest =>
        rw [stripLeft, List.dropWhile_cons, if_neg (by simp [h.head c rfl])]
  rw [strip, hleft, stripRight_eq_rdropWhile, List.rdropWhile_eq_self_iff]
  intro hne
  rw [h.last _ (List.getLast_mem_getLast? hne)]
  exact Bool.false_ne_true

/-- A stripped text has no blank at its ends. -/
theorem trim_strip (t : Text) : Trim (strip t) where
  head := by
    intro c hc
    -- what is left begins like the text that was stripped at the left only
    obtain ⟨behind, hleft⟩ : strip t <+: stripLeft t := List.rdropWhile_prefix _ _
    have hc' : (stripLeft t).head? = some c := by
      rw [← hleft, List.head?_append, Option.mem_def.mp hc]
      rfl
    have hnot := List.head?_dropWhile_not isBlank t
    rw [← stripLeft, hc'] at hnot
    simpa using hnot
  last := by
    intro c hc
    obtain ⟨hne, rfl⟩ := List.mem_getLast?_eq_getLast hc
    exact Bool.eq_false_iff.mpr (List.rdropWhile_last_not isBlank (stripLeft t) hne)

/-- A text is what stripping leaves of it, with blanks around. -/
theorem exists_strip (t : Text) :
    ∃ before behind, t = before ++ (strip t ++ behind) ∧ (∀ c ∈ before, isBlank c = true) ∧
      ∀ c ∈ behind, isBlank c = true := by
  refine ⟨t.takeWhile isBlank, (stripLeft t).rtakeWhile isBlank, ?_, ?_, ?_⟩
  · rw [strip, stripRight_eq_rdropWhile, List.rdropWhile_append_rtakeWhile]
    exact List.takeWhile_append_dropWhile.symm
  · exact fun c hc => List.mem_takeWhile_imp hc
  · exact fun c hc => List.mem_rtakeWhile_imp hc

/-- **Blanks around a text are stripped from it.** -/
theorem strip_append {before s behind : Text} (hs : Trim s)
    (hbefore : ∀ c ∈ before, isBlank c = true) (hbehind : ∀ c ∈ behind, isBlank c = true) :
    strip (before ++ (s ++ behind)) = s := by
  by_cases hempty : s = []
  · rw [hempty, List.nil_append, strip_eq_nil_iff]
    exact List.forall_mem_append.mpr ⟨hbefore, hbehind⟩
  · obtain ⟨c, rest, rfl⟩ := List.exists_cons_of_ne_nil hempty
    have hhead : isBlank c = false := hs.head c rfl
    have hleft : ∀ later, stripLeft (c :: later) = c :: later := by
      intro later
      rw [stripLeft, List.dropWhile_cons, if_neg (by rw [hhead]; exact Bool.false_ne_true)]
    have hright : stripRight (c :: rest) = c :: rest := by
      have hself := strip_eq_self hs
      rwa [strip, hleft] at hself
    calc strip (before ++ (c :: rest ++ behind))
        = stripRight (stripLeft (c :: rest ++ behind)) := by
          rw [strip, stripLeft, List.dropWhile_append_of_pos hbefore]
          rfl
      _ = stripRight (c :: rest ++ behind) := by
          rw [List.cons_append, hleft]
      _ = stripRight (c :: rest) := by
          rw [stripRight, List.reverse_append,
            List.dropWhile_append_of_pos (fun x hx => hbehind x (List.mem_reverse.mp hx))]
          rfl
      _ = c :: rest := hright

/-! ## §4. What occurs in a text. -/

/-- What a text contains is a stretch of it. -/
theorem contains_iff {needle : Text} : ∀ {t : Text}, contains t needle = true ↔ needle <:+: t
  | [] => by rw [contains, List.isEmpty_iff, List.infix_nil]
  | c :: rest => by
      rw [contains, Bool.or_eq_true, List.isPrefixOf_iff_prefix, contains_iff, List.infix_cons_iff]

theorem isOneOf_iff {t : Text} {texts : List Text} : isOneOf t texts = true ↔ t ∈ texts := by
  simp [isOneOf]

/-! ## §5. What stands behind a separator. -/

section
variable {sep : CodePoint} {s w : Text} {pieces : List Text} (hs : sep ∉ s)
  (hp : ∀ p ∈ pieces, sep ∉ p) (hw : sep ∉ w)
include hs hp

/-- A text has one row of pieces. -/
theorem marked_unique {s' : Text} {pieces' : List Text} (hs' : sep ∉ s')
    (hp' : ∀ p ∈ pieces', sep ∉ p) (h : s ++ marked sep pieces = s' ++ marked sep pieces') :
    pieces = pieces' := by
  have hcut : s :: pieces = s' :: pieces' := by
    rw [← cut_append_marked hs hp, h, cut_append_marked hs' hp']
  exact (List.cons.inj hcut).2

include hw

/-- **What stands between two separators is a piece.** -/
theorem mem_of_between (h : sep :: w ++ [sep] <:+: s ++ marked sep pieces) : w ∈ pieces := by
  obtain ⟨before, behind, h⟩ := h
  obtain ⟨a, as, -, rfl, ha, has⟩ := exists_cut sep before
  obtain ⟨b, bs, -, rfl, hb, hbs⟩ := exists_cut sep behind
  -- the pieces before the stretch, the stretch, and the pieces behind it are a row of pieces
  have hrow : ∀ p ∈ as ++ w :: b :: bs, sep ∉ p := by
    rw [List.forall_mem_append, List.forall_mem_cons, List.forall_mem_cons]
    exact ⟨has, hw, hb, hbs⟩
  have heq : s ++ marked sep pieces = a ++ marked sep (as ++ w :: b :: bs) := by
    rw [← h]
    simp [marked]
  rw [marked_unique hs hp ha hrow heq]
  exact List.mem_append_right as List.mem_cons_self

/-- What stands behind the last separator is the last piece. -/
theorem getLast?_of_suffix (h : sep :: w <:+ s ++ marked sep pieces) :
    pieces.getLast? = some w := by
  obtain ⟨before, h⟩ := h
  obtain ⟨a, as, -, rfl, ha, has⟩ := exists_cut sep before
  have hrow : ∀ p ∈ as ++ [w], sep ∉ p := by
    rw [List.forall_mem_append, List.forall_mem_singleton]
    exact ⟨has, hw⟩
  have heq : s ++ marked sep pieces = a ++ marked sep (as ++ [w]) := by
    rw [← h]
    simp [marked]
  rw [marked_unique hs hp ha hrow heq, List.getLast?_concat]

end

/-- A stretch without the separator holds no occurrence, and may hold the end of the last one. -/
theorem occurrences_go_append {sep : CodePoint} {w r : Text} {skip : Nat} :
    ∀ {t : Text}, sep ∉ t → skip ≤ t.length →
      occurrences.go (sep :: w) skip (t ++ r) = occurrences.go (sep :: w) 0 r
  | [], _, hskip => by
      rw [Nat.le_zero.mp hskip]
      rfl
  | c :: t, ht, hskip => by
      obtain ⟨hc, ht⟩ := not_or.mp (mt List.mem_cons.mpr ht)
      cases skip with
      | zero =>
          have hnot : (sep :: w).isPrefixOf (c :: (t ++ r)) = false := by
            rw [List.isPrefixOf_cons_cons, beq_false_of_ne hc, Bool.false_and]
          rw [List.cons_append, occurrences.go, hnot, if_neg Bool.false_ne_true]
          exact occurrences_go_append ht (Nat.zero_le _)
      | succ skip =>
          show occurrences.go (sep :: w) skip (t ++ r) = _
          exact occurrences_go_append ht (Nat.le_of_succ_le_succ hskip)

/-- **A separator and a text behind it occur as often as the text begins a piece.** -/
theorem occurrences_marked {sep : CodePoint} {w : Text} (hw : sep ∉ w) :
    ∀ {s : Text} {pieces : List Text}, sep ∉ s → (∀ p ∈ pieces, sep ∉ p) →
      occurrences (s ++ marked sep pieces) (sep :: w) = pieces.countP (fun p => w.isPrefixOf p)
  | s, [], hs, _ => occurrences_go_append hs (Nat.zero_le _)
  | s, p :: pieces, hs, hp => by
      obtain ⟨hp, hpieces⟩ := List.forall_mem_cons.mp hp
      have ih : occurrences.go (sep :: w) 0 (marked sep pieces)
          = pieces.countP (fun p => w.isPrefixOf p) :=
        occurrences_marked (s := []) hw List.not_mem_nil hpieces
      have hhead : (sep :: w).isPrefixOf (sep :: (p ++ marked sep pieces)) = w.isPrefixOf p := by
        rw [List.isPrefixOf_cons_cons_self, Bool.eq_iff_iff, List.isPrefixOf_iff_prefix,
          List.isPrefixOf_iff_prefix, prefix_append_iff (stopsAt_marked sep pieces) hw]
      rw [occurrences, occurrences_go_append hs (Nat.zero_le _), marked_cons, occurrences.go,
        hhead, List.countP_cons]
      by_cases hbegins : w.isPrefixOf p = true
      · -- the occurrence ends inside of the piece
        have hlength : (sep :: w).length - 1 ≤ p.length :=
          (List.isPrefixOf_iff_prefix.mp hbegins).length_le
        rw [if_pos hbegins, if_pos hbegins, occurrences_go_append hp hlength, ih, Nat.add_comm]
      · rw [if_neg hbegins, if_neg hbegins, occurrences_go_append hp (Nat.zero_le _), ih,
          Nat.add_zero]

end EncodedQuery.Text

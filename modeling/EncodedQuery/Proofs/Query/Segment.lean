/-
  EncodedQuery.Proofs.Query.Segment
  ─────────────────────────────────
  **HOW ONE TERM IS READ.**

  A segment can be split at `p` when its first `p` characters are a field name
  and an operator token begins behind them (`IsSplit`).  Its reading takes the
  least such place and the longest token there; all the rest is the value
  (`IsReading`).  The scan of a term, which takes one character of the name at
  a time and tries the tokens in the order of a table, finds this reading and
  no other, and it looks no further than the next caret.

  Main results:
    • `IsReading.eq` — a segment has one reading,
    • `ofSegment?_eq_some_iff`, `ofSegment?_isSome_iff` — the scan gives the
      reading, and succeeds exactly where a segment can be split,
    • `scan_append` — the scan of a term stops at the end of its segment.
-/
import Mathlib.Order.Bounds.Basic
import EncodedQuery.Proofs.Operator.Token
import EncodedQuery.Proofs.Text.Pieces
import EncodedQuery.Query.Term

namespace EncodedQuery.Term

/-! ## §1. Places where a segment can be split. -/

/-- A field name: a letter or low line, and then letters, digits, low lines and dots. -/
def IsName (s : Text) : Prop :=
  ∃ c rest, s = c :: rest ∧ isNameStart c = true ∧ ∀ d ∈ rest, isNameChar d = true

/-- The token of some operator begins behind the first `p` characters. -/
def TokenAt (s : Text) (p : Nat) : Prop := ∃ op : Operator, op.token <+: s.drop p

/-- The first `p` characters are a field name, and a token begins behind them. -/
structure IsSplit (s : Text) (p : Nat) : Prop where
  /-- The name is not empty. -/
  pos : 1 ≤ p
  /-- The first `p` characters are a name. -/
  name : IsName (s.take p)
  /-- A token begins behind it. -/
  token : TokenAt s p

/-- Of the tokens that begin behind the first `p` characters this operator's is the longest. -/
structure LongestAt (s : Text) (p : Nat) (op : Operator) : Prop where
  /-- The token begins there. -/
  here : op.token <+: s.drop p
  /-- No longer token does. -/
  longest : ∀ other : Operator, other.token <+: s.drop p →
    other.token.length ≤ op.token.length

/-- **The reading of a segment**: it is split at the least place, by the longest token. -/
def IsReading (s : Text) (t : Term) : Prop :=
  ∃ p, IsLeast {q | IsSplit s q} p ∧ t.field = s.take p ∧ LongestAt s p t.operator
    ∧ t.value = s.drop (p + t.operator.token.length)

theorem IsName.ne_nil {s : Text} (h : IsName s) : s ≠ [] := by
  obtain ⟨c, rest, rfl, _⟩ := h
  simp

/-- Two longest tokens at one place are one. -/
theorem LongestAt.unique {s : Text} {p : Nat} {a b : Operator} (ha : LongestAt s p a)
    (hb : LongestAt s p b) : a = b := by
  have hlen : a.token.length = b.token.length :=
    Nat.le_antisymm (hb.longest a ha.here) (ha.longest b hb.here)
  have hpre : a.token <+: b.token :=
    List.prefix_of_prefix_length_le ha.here hb.here (Nat.le_of_eq hlen)
  exact Operator.token_injective (hpre.eq_of_length hlen)

/-- **A segment has one reading.** -/
theorem IsReading.eq {s : Text} {t t' : Term} (h : IsReading s t) (h' : IsReading s t')
    (hj : t.join = t'.join) : t = t' := by
  obtain ⟨p, hp, hf, ho, hv⟩ := h
  obtain ⟨p', hp', hf', ho', hv'⟩ := h'
  obtain rfl : p = p' := hp.unique hp'
  have hop : t.operator = t'.operator := ho.unique ho'
  obtain ⟨join, field, operator, value⟩ := t
  obtain ⟨join', field', operator', value'⟩ := t'
  simp only at hj hf hf' hop hv hv'
  rw [hj, hf, hf', hop, hv, hv', hop]

/-- The reading of a segment loses none of it. -/
theorem IsReading.body_eq {s : Text} {t : Term} (h : IsReading s t) : t.body = s := by
  obtain ⟨p, _, hf, ho, hv⟩ := h
  have htok : t.operator.token ++ s.drop (p + t.operator.token.length) = s.drop p := by
    rw [← List.drop_drop]
    exact List.prefix_iff_eq_append.mp ho.here
  rw [body, hf, hv, List.append_assoc, htok, List.take_append_drop]

/-! ## §2. The operator at the front. -/

theorem operatorAt?_eq_none_iff {s : Text} :
    operatorAt? s = none ↔ ∀ op : Operator, ¬ op.token <+: s := by
  unfold operatorAt?
  rw [List.findSome?_eq_none_iff]
  constructor
  · intro h op
    exact Text.dropHead?_eq_none_iff.mp (Option.map_eq_none_iff.mp (h op op.mem_byLength))
  · intro h op _
    exact Option.map_eq_none_iff.mpr (Text.dropHead?_eq_none_iff.mpr (h op))

/-- The first hit in the table is the longest: what stands before it is no shorter, and what
stands behind it is no longer. -/
theorem operatorAt?_eq_some {s behind : Text} {op : Operator}
    (h : operatorAt? s = some (op, behind)) :
    s = op.token ++ behind ∧ LongestAt s 0 op := by
  unfold operatorAt? at h
  obtain ⟨before, found, after, htable, hfound, hbefore⟩ := List.findSome?_eq_some_iff.mp h
  obtain ⟨rest, hdrop, hpair⟩ := Option.map_eq_some_iff.mp hfound
  injection hpair with hop hrest
  subst hop hrest
  have hs : s = found.token ++ rest := Text.dropHead?_eq_some_iff.mp hdrop
  refine ⟨hs, ⟨by rw [hs]; exact List.prefix_append _ _, ?_⟩⟩
  intro other hother
  have hmem : other ∈ before ++ found :: after := htable ▸ other.mem_byLength
  have hsorted := Operator.byLength_sorted
  rw [htable, List.pairwise_append, List.pairwise_cons] at hsorted
  -- the other token stands before the hit, is the hit, or stands behind it
  rcases List.mem_append.mp hmem with hb | hb
  · have hnone := Option.map_eq_none_iff.mp (hbefore other hb)
    exact absurd hother (Text.dropHead?_eq_none_iff.mp hnone)
  · rcases List.mem_cons.mp hb with rfl | hafter
    · exact Nat.le_refl _
    · exact hsorted.2.1.1 other hafter

theorem operatorAt?_append {s r : Text} (hr : Text.StopsAt '^' r) :
    operatorAt? (s ++ r) = (operatorAt? s).map (fun (op, behind) => (op, behind ++ r)) := by
  unfold operatorAt?
  rw [List.map_findSome?]
  congr 1
  funext op
  rw [Text.dropHead?_append hr op.caret_not_mem_token, Function.comp, Option.map_map,
      Option.map_map]
  rfl

/-! ## §3. The rest of a name. -/

/-- A token in front ends the name; without one the name goes on. -/
theorem nameRest?_cons (c : CodePoint) (rest : Text) :
    nameRest? (c :: rest)
      = match operatorAt? (c :: rest) with
        | some (op, behind) => some ([], op, behind)
        | none =>
            if isNameChar c then (nameRest? rest).map (fun (n, r) => (c :: n, r)) else none :=
  rfl

/-- What the scan of a name finds: name characters up to the first token, and the longest token
there. -/
theorem nameRest?_eq_some {op : Operator} {behind : Text} :
    ∀ {s n : Text}, nameRest? s = some (n, op, behind) →
      s = n ++ op.token ++ behind ∧ (∀ c ∈ n, isNameChar c = true)
        ∧ LongestAt s n.length op ∧ ∀ p < n.length, ¬ TokenAt s p
  | [], n, h => absurd h (by simp [nameRest?])
  | c :: rest, n, h => by
      rw [nameRest?_cons] at h
      cases hop : operatorAt? (c :: rest) with
      | some found =>
          obtain ⟨found, behind'⟩ := found
          simp only [hop, Option.some.injEq, Prod.mk.injEq] at h
          obtain ⟨rfl, rfl, rfl⟩ := h
          -- a token begins here, so the name is empty
          obtain ⟨hs, hlong⟩ := operatorAt?_eq_some hop
          exact ⟨hs, by simp, hlong, by simp⟩
      | none =>
          simp only [hop] at h
          have hchar : isNameChar c = true := by
            by_contra hc
            rw [if_neg hc] at h
            exact absurd h (by simp)
          rw [if_pos hchar] at h
          obtain ⟨⟨n', op', behind'⟩, hrest, hpair⟩ := Option.map_eq_some_iff.mp h
          simp only [Prod.mk.injEq] at hpair
          obtain ⟨rfl, rfl, rfl⟩ := hpair
          -- the name goes on, and every place in the rest moves by one
          obtain ⟨hs, hname, hlong, hleast⟩ := nameRest?_eq_some hrest
          refine ⟨?_, ?_, ⟨hlong.here, hlong.longest⟩, ?_⟩
          · show c :: rest = c :: (n' ++ op'.token ++ behind')
            rw [← hs]
          · intro d hd
            rcases List.mem_cons.mp hd with rfl | hd
            · exact hchar
            · exact hname d hd
          · intro p hp htok
            cases p with
            | zero =>
                obtain ⟨other, hother⟩ := htok
                exact operatorAt?_eq_none_iff.mp hop other hother
            | succ p =>
                exact hleast p (by simpa using hp) htok

/-- A token behind name characters is found, or one before it. -/
theorem nameRest?_isSome {p : Nat} :
    ∀ {s : Text}, (∀ c ∈ s.take p, isNameChar c = true) → TokenAt s p →
      (nameRest? s).isSome = true
  | [], _, htok => by
      obtain ⟨op, hop⟩ := htok
      rw [List.drop_nil, List.prefix_nil] at hop
      exact absurd hop op.token_ne_nil
  | c :: rest, hname, htok => by
      rw [nameRest?_cons]
      cases hop : operatorAt? (c :: rest) with
      | some found => rfl
      | none =>
          cases p with
          | zero =>
              obtain ⟨op, hpre⟩ := htok
              exact absurd hpre (operatorAt?_eq_none_iff.mp hop op)
          | succ p =>
              have hchar : isNameChar c = true := hname c (by simp)
              have hrest : (nameRest? rest).isSome = true :=
                nameRest?_isSome (fun d hd => hname d (by simp [hd])) htok
              simp only [if_pos hchar, Option.isSome_map, hrest]

theorem nameRest?_append {r : Text} (hr : Text.StopsAt '^' r) :
    ∀ s : Text, nameRest? (s ++ r)
      = (nameRest? s).map (fun (n, op, behind) => (n, op, behind ++ r))
  | [] => by
      rw [List.nil_append]
      cases r with
      | nil => rfl
      | cons c r =>
          obtain rfl : c = '^' := hr c rfl
          have hnone : operatorAt? (.char '^' :: r) = none := by
            rw [operatorAt?_eq_none_iff]
            intro op hpre
            have hnil := (Text.prefix_append_iff hr op.caret_not_mem_token).mp
              (show op.token <+: [] ++ .char '^' :: r from hpre)
            exact op.token_ne_nil (List.prefix_nil.mp hnil)
          rw [nameRest?_cons, hnone]
          rfl
  | c :: s => by
      rw [List.cons_append, nameRest?_cons, nameRest?_cons, ← List.cons_append,
          operatorAt?_append hr]
      cases operatorAt? (c :: s) with
      | some found => rfl
      | none =>
          by_cases hc : isNameChar c = true
          · simp only [Option.map_none, if_pos hc, nameRest?_append hr s, Option.map_map]
            rfl
          · simp only [Option.map_none, if_neg hc]

/-! ## §4. The scan of a term. -/

/-- The term that the scan finds in a segment. -/
def ofSegment? (join : Option Separator) (s : Text) : Option Term :=
  (scan join s).map Prod.fst

/-- A value goes up to the end of its segment. -/
theorem takeWhile_dropWhile_append {v r : Text} (hv : .char '^' ∉ v) (hr : Text.StopsAt '^' r) :
    (v ++ r).takeWhile (· ≠ .char '^') = v ∧ (v ++ r).dropWhile (· ≠ .char '^') = r := by
  have hall : ∀ c ∈ v, decide (c ≠ '^') = true := by
    intro c hc
    rw [decide_eq_true_eq]
    rintro rfl
    exact hv hc
  rw [List.takeWhile_append_of_pos hall, List.dropWhile_append_of_pos hall]
  cases r with
  | nil => simp
  | cons c r =>
      obtain rfl : c = '^' := hr c rfl
      simp

/-- The scan at a segment that begins with no gap. -/
theorem scan_cons_append (join : Option Separator) {c : CodePoint} {rest r : Text}
    (hc : Scan.isGap c = false) (hrest : .char '^' ∉ rest) (hr : Text.StopsAt '^' r) :
    scan join (c :: rest ++ r)
      = if isNameStart c then
          (nameRest? rest).map (fun (n, op, v) => (⟨join, c :: n, op, v⟩, r))
        else none := by
  rw [scan, Scan.behindGap, List.cons_append, List.dropWhile_cons, if_neg (by simp [hc])]
  by_cases hstart : isNameStart c = true
  · simp only [if_pos hstart, nameRest?_append hr rest, Option.map_map]
    cases hn : nameRest? rest with
    | none => rfl
    | some found =>
        obtain ⟨n, op, v⟩ := found
        have hv : .char '^' ∉ v := by
          intro hmem
          rw [(nameRest?_eq_some hn).1] at hrest
          exact hrest (List.mem_append_right _ hmem)
        -- the value goes up to the caret, which is where `r` begins
        obtain ⟨htake, hdrop⟩ := takeWhile_dropWhile_append hv hr
        simp only [Option.map_some, Function.comp, htake, hdrop]
  · simp only [if_neg hstart]

/-- There is no term at the end of a segment. -/
theorem scan_of_stopsAt (join : Option Separator) {r : Text} (hr : Text.StopsAt '^' r) :
    scan join r = none := by
  cases r with
  | nil => rfl
  | cons c r =>
      obtain rfl : c = '^' := hr c rfl
      rfl

theorem dropWhile_isGap_append (s : Text) {r : Text} (hr : Text.StopsAt '^' r) :
    (s ++ r).dropWhile Scan.isGap = s.dropWhile Scan.isGap ++ r := by
  rw [List.dropWhile_append]
  split
  next h =>
    rw [List.isEmpty_iff.mp h, List.nil_append]
    cases r with
    | nil => rfl
    | cons c r =>
        obtain rfl : c = '^' := hr c rfl
        rfl
  next => rfl

theorem scan_dropWhile_isGap (join : Option Separator) (s : Text) :
    scan join (s.dropWhile Scan.isGap) = scan join s := by
  rw [scan, Scan.behindGap, Scan.behindGap, List.dropWhile_idempotent]

/-- A segment behind its gap: nothing, or a character that is no gap and more. -/
theorem dropWhile_isGap_cases (s : Text) :
    s.dropWhile Scan.isGap = []
      ∨ ∃ c rest, s.dropWhile Scan.isGap = c :: rest ∧ Scan.isGap c = false := by
  have hnot := List.head?_dropWhile_not Scan.isGap s
  cases h : s.dropWhile Scan.isGap with
  | nil => exact Or.inl rfl
  | cons c rest =>
      rw [h] at hnot
      exact Or.inr ⟨c, rest, rfl, by simpa using hnot⟩

theorem not_mem_dropWhile {p : CodePoint → Bool} {s : Text} {c : CodePoint} (h : c ∉ s) :
    c ∉ s.dropWhile p :=
  fun hmem => h ((List.dropWhile_sublist p).subset hmem)

/-- **The scan of a term stops at the end of its segment.** -/
theorem scan_append (join : Option Separator) {s r : Text} (hs : .char '^' ∉ s)
    (hr : Text.StopsAt '^' r) :
    scan join (s ++ r) = (ofSegment? join s).map (fun t => (t, r)) := by
  have hnil : Text.StopsAt '^' [] := by intro c hc; simp at hc
  rw [← scan_dropWhile_isGap join (s ++ r), dropWhile_isGap_append s hr, ofSegment?,
      ← scan_dropWhile_isGap join s, Option.map_map]
  rcases dropWhile_isGap_cases s with h | ⟨c, rest, h, hc⟩
  · rw [h, List.nil_append, scan_of_stopsAt join hr, scan_of_stopsAt join hnil]
    rfl
  · have hrest : .char '^' ∉ rest := by
      intro hmem
      exact not_mem_dropWhile hs (h ▸ List.mem_cons_of_mem c hmem)
    have hself := scan_cons_append join hc hrest hnil
    rw [List.append_nil] at hself
    rw [h, scan_cons_append join hc hrest hr, hself]
    by_cases hstart : isNameStart c = true
    · simp only [if_pos hstart, Option.map_map]
      rfl
    · simp only [if_neg hstart]
      rfl

/-! ## §5. The scan finds the reading. -/

theorem ofSegment?_dropWhile_isGap (join : Option Separator) (s : Text) :
    ofSegment? join (s.dropWhile Scan.isGap) = ofSegment? join s := by
  rw [ofSegment?, scan_dropWhile_isGap, ofSegment?]

theorem ofSegment?_cons (join : Option Separator) {c : CodePoint} {rest : Text}
    (hc : Scan.isGap c = false) (hrest : .char '^' ∉ rest) :
    ofSegment? join (c :: rest)
      = if isNameStart c then
          (nameRest? rest).map (fun (n, op, v) => ⟨join, c :: n, op, v⟩)
        else none := by
  have hscan := scan_cons_append join hc hrest (r := []) (by intro d hd; simp at hd)
  rw [List.append_nil] at hscan
  rw [ofSegment?, hscan]
  by_cases hstart : isNameStart c = true
  · simp only [if_pos hstart, Option.map_map]
    rfl
  · simp only [if_neg hstart, Option.map_none]

theorem isReading_of_nameRest? {c : CodePoint} {rest n v : Text} {op : Operator}
    (join : Option Separator) (hstart : isNameStart c = true)
    (h : nameRest? rest = some (n, op, v)) :
    IsReading (c :: rest) ⟨join, c :: n, op, v⟩ := by
  obtain ⟨hs, hname, hlong, hleast⟩ := nameRest?_eq_some h
  have htake : (c :: rest).take (n.length + 1) = c :: n := by
    rw [List.take_succ_cons, hs, List.append_assoc, List.take_left]
  refine ⟨n.length + 1, ⟨?_, ?_⟩, htake.symm, ⟨hlong.here, hlong.longest⟩, ?_⟩
  · show IsSplit (c :: rest) (n.length + 1)
    exact ⟨by omega, ⟨c, n, htake, hstart, hname⟩, ⟨op, hlong.here⟩⟩
  · intro q hq
    -- an earlier place would carry a token in front of which the name has stopped
    by_contra hlt
    cases q with
    | zero => exact absurd hq.pos (by omega)
    | succ q => exact hleast q (by omega) hq.token
  · show v = (c :: rest).drop (n.length + 1 + op.token.length)
    rw [show n.length + 1 + op.token.length = (n ++ op.token).length + 1 by
          rw [List.length_append]; omega,
        List.drop_succ_cons, hs, List.drop_left]

theorem nameRest?_isSome_of_isSplit {c : CodePoint} {rest : Text} {p : Nat}
    (h : IsSplit (c :: rest) p) :
    isNameStart c = true ∧ (nameRest? rest).isSome = true := by
  cases p with
  | zero => exact absurd h.pos (by omega)
  | succ p =>
      obtain ⟨d, name, htake, hstart, hname⟩ := h.name
      rw [List.take_succ_cons] at htake
      injection htake with hd hname'
      subst hd hname'
      exact ⟨hstart, nameRest?_isSome hname h.token⟩

theorem ofSegment?_eq_some {join : Option Separator} {s : Text} {t : Term} (hs : .char '^' ∉ s)
    (h : ofSegment? join s = some t) :
    t.join = join ∧ IsReading (s.dropWhile Scan.isGap) t := by
  rw [← ofSegment?_dropWhile_isGap] at h
  rcases dropWhile_isGap_cases s with hnil | ⟨c, rest, hcons, hc⟩
  · rw [hnil] at h
    exact absurd h (by simp [ofSegment?, scan, Scan.behindGap])
  · have hrest : .char '^' ∉ rest := fun hmem =>
      not_mem_dropWhile hs (hcons ▸ List.mem_cons_of_mem c hmem)
    rw [hcons, ofSegment?_cons join hc hrest] at h
    by_cases hstart : isNameStart c = true
    · rw [if_pos hstart] at h
      obtain ⟨⟨n, op, v⟩, hn, rfl⟩ := Option.map_eq_some_iff.mp h
      rw [hcons]
      exact ⟨rfl, isReading_of_nameRest? join hstart hn⟩
    · rw [if_neg hstart] at h
      exact absurd h (by simp)

/-- **The scan succeeds exactly where a segment can be split.** -/
theorem ofSegment?_isSome_iff {join : Option Separator} {s : Text} (hs : .char '^' ∉ s) :
    (ofSegment? join s).isSome = true ↔ ∃ p, IsSplit (s.dropWhile Scan.isGap) p := by
  constructor
  · intro h
    obtain ⟨t, ht⟩ := Option.isSome_iff_exists.mp h
    obtain ⟨p, hp, _⟩ := (ofSegment?_eq_some hs ht).2
    exact ⟨p, hp.1⟩
  · rintro ⟨p, hp⟩
    rw [← ofSegment?_dropWhile_isGap]
    rcases dropWhile_isGap_cases s with hnil | ⟨c, rest, hcons, hc⟩
    · rw [hnil] at hp
      exact absurd (List.take_nil) hp.name.ne_nil
    · have hrest : .char '^' ∉ rest := fun hmem =>
        not_mem_dropWhile hs (hcons ▸ List.mem_cons_of_mem c hmem)
      rw [hcons] at hp ⊢
      obtain ⟨hstart, hsome⟩ := nameRest?_isSome_of_isSplit hp
      rw [ofSegment?_cons join hc hrest, if_pos hstart, Option.isSome_map]
      exact hsome

/-- **The scan gives the reading of its segment.** -/
theorem ofSegment?_eq_some_iff {join : Option Separator} {s : Text} {t : Term}
    (hs : .char '^' ∉ s) :
    ofSegment? join s = some t ↔ t.join = join ∧ IsReading (s.dropWhile Scan.isGap) t := by
  constructor
  · exact ofSegment?_eq_some hs
  · rintro ⟨hj, hread⟩
    obtain ⟨p, hp, _⟩ := id hread
    -- the scan finds some reading, and there is only one
    have hsome : (ofSegment? join s).isSome = true := (ofSegment?_isSome_iff hs).mpr ⟨p, hp.1⟩
    obtain ⟨found, hfound⟩ := Option.isSome_iff_exists.mp hsome
    obtain ⟨hj', hread'⟩ := ofSegment?_eq_some hs hfound
    rw [hfound, hread'.eq hread (hj'.trans hj.symm)]

/-! ## §6. Terms that their own text is read as. -/

theorem drop_body (t : Term) : t.body.drop t.field.length = t.operator.token ++ t.value := by
  rw [body, List.append_assoc, List.drop_left]

/-- The beginning of a name is a name. -/
theorem IsName.take {s : Text} (h : IsName s) {p : Nat} (hp : 1 ≤ p) : IsName (s.take p) := by
  obtain ⟨c, rest, rfl, hstart, hrest⟩ := h
  refine ⟨c, rest.take (p - 1), List.take_cons hp, hstart, ?_⟩
  intro d hd
  exact hrest d (List.mem_of_mem_take hd)

theorem TokenAt.lt_length {s : Text} {p : Nat} (h : TokenAt s p) : p < s.length := by
  obtain ⟨op, hop⟩ := h
  have hlen := hop.length_le
  have hpos := List.length_pos_iff.mpr op.token_ne_nil
  rw [List.length_drop] at hlen
  omega

/-- A token stays where it is when the text goes on. -/
theorem TokenAt.append {s : Text} {p : Nat} (h : TokenAt s p) (r : Text) :
    TokenAt (s ++ r) p := by
  have hlt := h.lt_length
  obtain ⟨op, hop⟩ := h
  refine ⟨op, ?_⟩
  rw [List.drop_append_of_le_length (Nat.le_of_lt hlt)]
  exact hop.trans (List.prefix_append _ r)

/-- **Which terms their own text is read as**: no token begins inside of the name, and behind the
name none is longer than the term's own. -/
theorem isReading_body_iff {t : Term} :
    IsReading t.body t ↔ IsName t.field
      ∧ (∀ p, 1 ≤ p → p < t.field.length → ¬ TokenAt t.body p)
      ∧ LongestAt t.body t.field.length t.operator := by
  have htake : ∀ p, p ≤ t.field.length → t.body.take p = t.field.take p := by
    intro p hp
    rw [body, List.append_assoc, List.take_append_of_le_length hp]
  have hfull : t.body.take t.field.length = t.field := by
    rw [htake _ (Nat.le_refl _), List.take_length]
  constructor
  · rintro ⟨p, ⟨hsplit, hleast⟩, hf, hlongest, _⟩
    -- a token behind the first `p` characters means that there are so many
    have hp : p = t.field.length := by
      have hlt := hsplit.token.lt_length
      have hlen := congrArg List.length hf
      rw [List.length_take] at hlen
      omega
    have hname : IsName t.field := hf ▸ hsplit.name
    refine ⟨hname, ?_, hp ▸ hlongest⟩
    intro q hpos hq htoken
    have hle := hleast ⟨hpos, by rw [htake q (Nat.le_of_lt hq)]; exact hname.take hpos, htoken⟩
    omega
  · rintro ⟨hname, hfree, hlongest⟩
    refine ⟨t.field.length, ⟨?_, ?_⟩, hfull.symm, hlongest, ?_⟩
    · refine ⟨List.length_pos_iff.mpr hname.ne_nil, ?_, ⟨t.operator, hlongest.here⟩⟩
      rw [hfull]
      exact hname
    · intro p hp
      by_contra hlt
      exact hfree p hp.pos (by omega) hp.token
    · rw [← List.drop_drop, drop_body, List.drop_left]

end EncodedQuery.Term

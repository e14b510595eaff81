/-
  EncodedQuery.Proofs.Text.Case
  ─────────────────────────────
  **LOWER CASE, CODE POINT BY CODE POINT.**

  But for the capital sigma, the lower case of a text is put together from the
  lower cases of its code points, and a sigma only has two forms to choose from.
  What stands before the small letters in the code is the lower case of
  nothing else, so such a code point can be looked for, or left out, before the
  letters are made small or after.

  Main results:
    • `mem_lower_iff` — lower case neither adds nor removes such a code point,
    • `exists_lowerAfter` — lower case without a look at what stands around,
    • `lower_filter` — leaving out a code point before or after,
    • `mem_of_sameLetter` — the literal characters of dates in either case.
-/
import EncodedQuery.Text.Case

namespace EncodedQuery.Text

/-! ## §1. Single code points. -/

/-- The runs map to code points, and to none before the small letters. -/
theorem image_of_mem_lowerRuns :
    ∀ r ∈ lowerRuns, 97 ≤ (r.first + r.shift).toNat ∧ (r.last + r.shift).toNat < 0x110000 := by
  decide +kernel

/-- A code point is its own image, or the image is none of those before the small letters. -/
theorem image_lowerRuns (n : Nat) :
    CaseRun.image lowerRuns n = n ∨
      97 ≤ CaseRun.image lowerRuns n ∧ CaseRun.image lowerRuns n < 0x110000 := by
  unfold CaseRun.image
  split
  next r hfind =>
    right
    obtain ⟨hsmall, hvalid⟩ := image_of_mem_lowerRuns r (List.mem_of_find?_eq_some hfind)
    have hin := List.find?_some hfind
    simp only [Bool.and_eq_true, decide_eq_true_eq] at hin
    omega
  · exact .inl rfl

/-- A code point is in lower case, or its lower case is none of those before the small letters. -/
theorem lowerChar_eq_or (c : CodePoint) : lowerChar c = c ∨ 97 ≤ (lowerChar c).toNat := by
  unfold lowerChar
  split
  · split
    next hcapital =>
      have hlow : 65 ≤ c.toNat := hcapital.1
      have hhigh : c.toNat ≤ 90 := hcapital.2
      right
      rw [CodePoint.toNat_ofNat (by omega)]
      omega
    · exact .inl rfl
  · rcases image_lowerRuns c.toNat with hself | ⟨hlarge, hvalid⟩
    · exact .inl (by rw [hself, CodePoint.ofNat_toNat])
    · exact .inr (by rw [CodePoint.toNat_ofNat hvalid]; exact hlarge)

/-- **What stands before the small letters is the lower case of nothing else.** -/
theorem eq_of_mem_lowerOne {x c : CodePoint} (hx : x.toNat < 97) (h : x ∈ lowerOne c) : x = c := by
  unfold lowerOne at h
  split at h
  · -- the dotted capital becomes a small letter and a mark
    have hlarge : (['i', '\u0307'] : Text).all (fun y => 97 ≤ y.toNat) = true := by decide
    exact absurd hx (Nat.not_lt.mpr (of_decide_eq_true (List.all_eq_true.mp hlarge x h)))
  · rw [List.mem_singleton] at h
    rcases lowerChar_eq_or c with hself | hlarge
    · rw [h, hself]
    · rw [← h] at hlarge
      exact absurd hx (Nat.not_lt.mpr hlarge)

variable {x : CodePoint}

/-- Lower case neither adds nor removes a code point before the small letters that is in lower case
itself. -/
theorem mem_lowerAfter_iff (hself : lowerOne x = [x]) (hx : x.toNat < 97) :
    ∀ {before t : Text}, x ∈ lowerAfter before t ↔ x ∈ t
  | _, [] => Iff.rfl
  | before, c :: rest => by
      have hsigma : x ≠ 'Σ' ∧ x ≠ 'σ' ∧ x ≠ 'ς' := by
        refine ⟨?_, ?_, ?_⟩ <;> rintro rfl <;> exact absurd hx (by decide)
      rw [lowerAfter, List.mem_append, List.mem_cons, mem_lowerAfter_iff hself hx]
      -- the two small sigmas are letters, so the look around does not matter
      refine or_congr_left ?_
      by_cases hc : c = 'Σ'
      · rw [if_pos hc, hc, List.mem_singleton]
        refine iff_of_false ?_ hsigma.1
        split
        · exact hsigma.2.2
        · exact hsigma.2.1
      · rw [if_neg hc]
        constructor
        · exact eq_of_mem_lowerOne hx
        · rintro rfl
          rw [hself]
          exact List.mem_singleton_self x

/-- **Lower case neither adds nor removes** a code point before the small letters that is in lower
case itself. -/
theorem mem_lower_iff (hself : lowerOne x = [x]) (hx : x.toNat < 97) {t : Text} :
    x ∈ lower t ↔ x ∈ t := mem_lowerAfter_iff hself hx

/-! ## §2. Whole texts. -/

/-- Without a capital sigma, a text is made small code point by code point. -/
theorem lowerAfter_eq_flatMap :
    ∀ {before t : Text}, .char 'Σ' ∉ t → lowerAfter before t = t.flatMap lowerOne
  | _, [], _ => rfl
  | before, c :: rest, h => by
      rw [List.mem_cons, not_or] at h
      obtain ⟨hc, hrest⟩ := h
      rw [lowerAfter, if_neg (Ne.symm hc), lowerAfter_eq_flatMap hrest, List.flatMap_cons]

/-- The small sigmas are in lower case. -/
theorem lowerOne_sigma : lowerOne 'σ' = [.char 'σ'] ∧ lowerOne 'ς' = [.char 'ς'] := by
  decide +kernel

/-- **Every lower case is one that is made code point by code point**, of the text in which the
small form of every capital sigma is settled. -/
theorem exists_lowerAfter :
    ∀ before t : Text, ∃ s : Text, .char 'Σ' ∉ s ∧ lowerAfter before t = s.flatMap lowerOne
  | _, [] => ⟨[], List.not_mem_nil, rfl⟩
  | before, c :: rest => by
      -- the rest is settled with one more letter before it
      obtain ⟨s, hs, heq⟩ := exists_lowerAfter (c :: before) rest
      rw [lowerAfter, heq]
      by_cases hc : c = 'Σ'
      · rw [if_pos hc]
        split
        · exact ⟨.char 'ς' :: s, List.not_mem_cons_of_ne_of_not_mem (by decide) hs, by
            rw [List.flatMap_cons, lowerOne_sigma.2]⟩
        · exact ⟨.char 'σ' :: s, List.not_mem_cons_of_ne_of_not_mem (by decide) hs, by
            rw [List.flatMap_cons, lowerOne_sigma.1]⟩
      · rw [if_neg hc]
        exact ⟨c :: s, List.not_mem_cons_of_ne_of_not_mem (Ne.symm hc) hs, List.flatMap_cons.symm⟩

/-- A code point before the small letters is left out of a text or of the small letters. -/
theorem filter_flatMap_lowerOne (hself : lowerOne x = [x]) (hx : x.toNat < 97) (t : Text) :
    (t.flatMap lowerOne).filter (· ≠ x) = (t.filter (· ≠ x)).flatMap lowerOne := by
  induction t with
  | nil => rfl
  | cons c rest ih =>
      rw [List.flatMap_cons, List.filter_append, ih]
      -- of all code points only `x` has `x` in its lower case, and nothing else
      by_cases hc : c = x
      · rw [hc, hself, List.filter_cons_of_neg (by simp), List.filter_cons_of_neg (by simp)]
        rfl
      · rw [List.filter_cons_of_pos (by simpa using hc), List.flatMap_cons]
        refine congrArg (· ++ _) (List.filter_eq_self.mpr fun a ha => decide_eq_true ?_)
        rintro rfl
        exact hc (eq_of_mem_lowerOne hx ha).symm

/-- **Leaving out a code point before or after**: it is all the same unless a capital sigma sees the
gap. -/
theorem lower_filter (hself : lowerOne x = [x]) (hx : x.toNat < 97) {t : Text}
    (h : .char 'Σ' ∉ t ∨ x ∉ t) : lower (t.filter (· ≠ x)) = (lower t).filter (· ≠ x) := by
  rcases h with h | h
  · rw [lower, lower, lowerAfter_eq_flatMap h, filter_flatMap_lowerOne hself hx,
      lowerAfter_eq_flatMap (fun hmem => h (List.mem_filter.mp hmem).1)]
  · have hnone : ∀ {s : Text}, x ∉ s → s.filter (· ≠ x) = s := by
      intro s hs
      refine List.filter_eq_self.mpr fun a ha => decide_eq_true ?_
      rintro rfl
      exact hs ha
    rw [hnone h, hnone (fun hmem => h ((mem_lower_iff hself hx).mp hmem))]

/-- A text whose lower case is that of another one with a code point left out. -/
theorem exists_lower_eq_filter (hself : lowerOne x = [x]) (hx : x.toNat < 97) (t : Text) :
    ∃ s, lower s = (lower t).filter (· ≠ x) := by
  obtain ⟨s, hs, heq⟩ := exists_lowerAfter [] t
  refine ⟨s.filter (· ≠ x), ?_⟩
  rw [lower_filter hself hx (.inl hs), lower, lower, heq, lowerAfter_eq_flatMap hs]

/-! ## §3. One letter in either case. -/

/-- A number that is read as a code point other than zero is the number of that code point. -/
theorem eq_toNat_of_ofNat_eq {n : Nat} {c : CodePoint} (h : CodePoint.ofNat n = c)
    (hc : c ≠ '\x00') :
    n = c.toNat := by
  by_cases hvalid : n < 0x110000
  · rw [← h, CodePoint.toNat_ofNat hvalid]
  · exact absurd ((CodePoint.ofNat_of_le (Nat.le_of_not_lt hvalid)).symm.trans h).symm hc

/-- The run does not lead to `c` from beyond ASCII. -/
def CaseRun.Misses (r : CaseRun) (c : CodePoint) : Prop :=
  r.last < 128 ∨ c.toNat < r.first + r.shift ∨ r.last + r.shift < c.toNat

instance (r : CaseRun) (c : CodePoint) : Decidable (r.Misses c) := by
  unfold CaseRun.Misses
  infer_instance

section
variable {m l u c : CodePoint} {runs : List CaseRun}

theorem ofNat_image_ne (h : ∀ r ∈ runs, r.Misses l) (hl : l ≠ '\x00' ∧ l.toNat < 128)
    (hc : 128 ≤ c.toNat) : CodePoint.ofNat (CaseRun.image runs c.toNat) ≠ l := by
  intro heq
  have himage := eq_toNat_of_ofNat_eq heq hl.1
  have hpos : l.toNat ≠ 0 := by
    intro hzero
    apply hl.1
    rw [← CodePoint.ofNat_toNat l, hzero]
    rfl
  unfold CaseRun.image at himage
  split at himage
  next r hfind =>
    have hin := List.find?_some hfind
    simp only [Bool.and_eq_true, decide_eq_true_eq] at hin
    have hmiss := h r (List.mem_of_find?_eq_some hfind)
    unfold CaseRun.Misses at hmiss
    omega
  next => omega

/-- **A character of ASCII is one letter with no character beyond ASCII** when no run leads from
there to its lower or its upper case. -/
theorem sameLetter_eq_false (hl : lowerOne m = [l]) (hu : upperOne m = [u])
    (hlower : ∀ r ∈ lowerRuns, r.Misses l) (hupper : ∀ r ∈ upperRuns, r.Misses u)
    (hlu : (l ≠ '\x00' ∧ l.toNat < 128) ∧ u ≠ '\x00' ∧ u.toNat < 128) (hi : l ≠ 'i')
    (hc : 128 ≤ c.toNat) : sameLetter m c = false := by
  have hbeyond : ¬ c.toNat < 128 := Nat.not_lt.mpr hc
  have hhead : (lowerOne m).head? ≠ (lowerOne c).head? := by
    rw [hl]
    unfold lowerOne
    split
    · simpa using hi
    · rw [lowerChar, if_neg hbeyond]
      intro heq
      exact ofNat_image_ne hlower hlu.1 hc (Option.some.inj heq).symm
  have hone : upperOne m ≠ upperOne c := by
    -- upper cases of several code points are longer
    have hlong : ∀ e ∈ upperExpansions, 2 ≤ e.2.length := by decide +kernel
    rw [hu]
    unfold upperOne
    rw [if_neg hbeyond]
    split
    next e hfind =>
      intro heq
      have hlen := hlong e (List.mem_of_find?_eq_some hfind)
      have hlength := congrArg List.length heq
      rw [List.length_map, List.length_singleton] at hlength
      omega
    next =>
      intro heq
      exact ofNat_image_ne hupper hlu.2 hc (List.singleton_inj.mp heq).symm
  simp [sameLetter, hhead, hone]

end

/-- The letters among the literal characters of dates have a small form. -/
theorem mem_of_sameLetter {m c : CodePoint} (hm : m ∈ ("-/:TZ" : Text))
    (h : sameLetter m c = true) :
    c ∈ ("-/:TtZz" : Text) := by
  rcases Nat.lt_or_ge c.toNat 128 with hlt | hge
  · have hall : ("-/:TZ" : Text).all (fun m => (List.range 128).all (fun n =>
        decide (sameLetter m (CodePoint.ofNat n) = true →
          CodePoint.ofNat n ∈ ("-/:TtZz" : Text)))) := by
      decide +kernel
    have hrow := List.all_eq_true.mp hall m hm
    have hc := of_decide_eq_true (List.all_eq_true.mp hrow c.toNat (List.mem_range.mpr hlt))
    rw [CodePoint.ofNat_toNat] at hc
    exact hc h
  · have hall : ("-/:TZ" : Text).all (fun m => decide (lowerOne m = [lowerChar m] ∧
        upperOne m = [(upperOne m).headD m] ∧ (∀ r ∈ lowerRuns, r.Misses (lowerChar m)) ∧
        (∀ r ∈ upperRuns, r.Misses ((upperOne m).headD m)) ∧
        ((lowerChar m ≠ '\x00' ∧ (lowerChar m).toNat < 128) ∧
          (upperOne m).headD m ≠ '\x00' ∧ ((upperOne m).headD m).toNat < 128) ∧
        lowerChar m ≠ 'i')) := by
      decide +kernel
    obtain ⟨hl, hu, hlower, hupper, hlu, hi⟩ := of_decide_eq_true (List.all_eq_true.mp hall m hm)
    rw [sameLetter_eq_false hl hu hlower hupper hlu hi hge] at h
    cases h

end EncodedQuery.Text

/-
  EncodedQuery.Proofs.Saved.Order
  ───────────────────────────────
  **THE ORDER OF SAVED FILTERS.**

  `precedes` compares two filters by what they are sorted by: whether they are
  favourites, the place of their last use, and the place of their creation.  It
  is a total preorder, so a sorted list is in this order.

  What a person sees is the order of stamps and not of places.  The two agree
  on clock readings in whole seconds after the start of 1970: such a stamp has
  the place of its second, and is placed after a filter that was never used.

  Main results: `SavedFilter.precedes_trans`, `SavedFilter.precedes_total`,
  `SavedFilter.comesBefore_of_precedes`, `SavedFilter.pairwise_comesBefore_mergeSort`.
-/
import EncodedQuery.Proofs.Date.Ordinal
import EncodedQuery.Saved.Filter

namespace EncodedQuery

/-! ## §1. Clock readings. -/

/-- The instant is a whole second after the start of 1970. -/
structure Instant.IsReading (t : Instant) : Prop where
  /-- The second is whole. -/
  micro : t.micro = 0
  /-- It is after the start of 1970. -/
  epochSeconds_pos : 0 < t.epochSeconds

/-- Such an instant is not on the first day of the calendar. -/
theorem Instant.IsReading.isSome_prev? {t : Instant} (h : t.IsReading) :
    t.date.prev?.isSome = true := by
  rw [Option.isSome_iff_ne_none]
  intro hnone
  have hordinal : t.date.ordinal = 1 := (Date.prev?_eq_none_iff _).mp hnone
  have hpos : 0 < t.epochSeconds := h.epochSeconds_pos
  have htime := t.isTime
  unfold Instant.epochSeconds at hpos
  unfold IsTime at htime
  omega

/-- The stamp is such a reading, of a clock of which no offset is known. -/
def Stamp.IsReading (s : Stamp) : Prop := ∃ t : Instant, t.IsReading ∧ s = t

theorem Stamp.IsReading.epochSeconds_pos {s : Stamp} (h : s.IsReading) : 0 < s.epochSeconds := by
  obtain ⟨t, ht, rfl⟩ := h
  rw [epochSeconds_coe]
  exact ht.epochSeconds_pos

namespace SavedFilter

variable {f g : SavedFilter}

theorem place_eq {s : Stamp} (hs : s.IsReading) :
    place s = s.epochSeconds * (Number.twoTo 72 : Nat) := by
  obtain ⟨t, ht, rfl⟩ := hs
  rw [Stamp.epochSeconds_coe]
  exact if_pos ht.micro

theorem twoTo_pos (n : Nat) : 0 < ((Number.twoTo n : Nat) : Int) :=
  Int.natCast_pos.mpr (Nat.pow_pos (by decide))

/-- Readings are placed in their order. -/
theorem place_lt_iff {a b : Stamp} (ha : a.IsReading) (hb : b.IsReading) :
    place a < place b ↔ a.epochSeconds < b.epochSeconds := by
  rw [place_eq ha, place_eq hb]
  exact Int.mul_lt_mul_right (twoTo_pos 72)

theorem place_eq_iff {a b : Stamp} (ha : a.IsReading) (hb : b.IsReading) :
    place a = place b ↔ a.epochSeconds = b.epochSeconds := by
  rw [place_eq ha, place_eq hb]
  exact Int.mul_eq_mul_right_iff (Int.ne_of_gt (twoTo_pos 72))

theorem place_pos {s : Stamp} (hs : s.IsReading) : 0 < place s := by
  rw [place_eq hs]
  exact Int.mul_pos hs.epochSeconds_pos (twoTo_pos 72)

/-! ## §2. A total preorder. -/

theorem precedes_iff :
    precedes f g = true ↔ (f.isFavorite = true ∧ g.isFavorite = false) ∨
      (f.isFavorite = g.isFavorite ∧ (g.usedAt < f.usedAt ∨
        (f.usedAt = g.usedAt ∧ place g.createdAt ≤ place f.createdAt))) := by
  unfold precedes
  by_cases hfav : f.isFavorite = g.isFavorite
  · by_cases hused : f.usedAt = g.usedAt <;> simp [hfav, hused]
  · have hfirst : f.isFavorite = !g.isFavorite := Bool.eq_not_of_ne hfav
    simp [hfirst]

theorem precedes_trans (f g h : SavedFilter) (hfg : precedes f g = true)
    (hgh : precedes g h = true) : precedes f h = true := by
  rw [precedes_iff] at hfg hgh ⊢
  obtain ⟨hf, hg⟩ | ⟨hfav, hfg⟩ := hfg
  · -- `f` is a favourite and `g` is none, so `h` is none either
    obtain ⟨hg', _⟩ | ⟨hfav', _⟩ := hgh
    · rw [hg] at hg'
      cases hg'
    · exact .inl ⟨hf, hfav' ▸ hg⟩
  · obtain ⟨hg, hh⟩ | ⟨hfav', hgh⟩ := hgh
    · exact .inl ⟨hfav.trans hg, hh⟩
    · exact .inr ⟨hfav.trans hfav', by omega⟩

theorem precedes_total (f g : SavedFilter) : (precedes f g || precedes g f) = true := by
  rw [Bool.or_eq_true, precedes_iff, precedes_iff]
  cases f.isFavorite <;> cases g.isFavorite <;> simp <;> omega

/-! ## §3. The order that is seen. -/

/-- The first filter was used later; a use, however early, is later than none. -/
def UsedLater : Option Stamp → Option Stamp → Prop
  | some a, some b => b.epochSeconds < a.epochSeconds
  | some _, none => True
  | none, _ => False

/-- `f` stands before `g`: favourites are first, then the filters that were used last, and those
that were never used are behind those that were; of two that are alike so far the newer one is
first. -/
def ComesBefore (f g : SavedFilter) : Prop :=
  (f.isFavorite = true ∧ g.isFavorite = false) ∨
    (f.isFavorite = g.isFavorite ∧ (UsedLater f.lastUsed g.lastUsed ∨
      (f.lastUsed.map Stamp.epochSeconds = g.lastUsed.map Stamp.epochSeconds ∧
        g.createdAt.epochSeconds < f.createdAt.epochSeconds)))

/-- The filter was created and used at readings of a clock. -/
def IsTimed (f : SavedFilter) : Prop := ∀ s ∈ f.createdAt :: f.lastUsed.toList, s.IsReading

theorem IsTimed.createdAt (hf : f.IsTimed) : f.createdAt.IsReading := hf _ (List.mem_cons_self ..)

theorem IsTimed.lastUsed {s : Stamp} (hf : f.IsTimed) (hs : f.lastUsed = some s) : s.IsReading :=
  hf s (List.mem_cons_of_mem _ (by rw [hs]; exact List.mem_singleton_self s))

theorem IsTimed.hasPlace (hf : f.IsTimed) : f.hasPlace = true := by
  refine List.all_eq_true.mpr fun s hs => ?_
  obtain ⟨t, ht, rfl⟩ := hf s hs
  exact Bool.or_eq_true_iff.mpr (.inr ht.isSome_prev?)

theorem usedAt_none (h : f.lastUsed = none) : f.usedAt = 0 := by
  rw [usedAt, h]
  rfl

theorem usedAt_some {s : Stamp} (h : f.lastUsed = some s) : f.usedAt = place s := by
  rw [usedAt, h]
  rfl

/-- No use takes place before the place of a filter that was never used, or in it. -/
theorem IsTimed.usedAt_le_zero_iff (hf : f.IsTimed) : f.usedAt ≤ 0 ↔ f.lastUsed = none := by
  cases hused : f.lastUsed with
  | none => exact iff_of_true (Int.le_of_eq (usedAt_none hused)) rfl
  | some s =>
      rw [usedAt_some hused]
      exact iff_of_false (Int.not_le.mpr (place_pos (hf.lastUsed hused))) nofun

/-- A later place of the last use is a later use. -/
theorem usedLater_of_usedAt_lt (hf : f.IsTimed) (hg : g.IsTimed) (hlt : g.usedAt < f.usedAt) :
    UsedLater f.lastUsed g.lastUsed := by
  cases hfu : f.lastUsed with
  | none =>
      rw [usedAt_none hfu] at hlt
      have hgu : g.lastUsed = none := hg.usedAt_le_zero_iff.mp (Int.le_of_lt hlt)
      rw [usedAt_none hgu] at hlt
      exact absurd hlt (Int.lt_irrefl 0)
  | some a =>
      cases hgu : g.lastUsed with
      | none => exact trivial
      | some b =>
          rw [usedAt_some hfu, usedAt_some hgu] at hlt
          exact (place_lt_iff (hg.lastUsed hgu) (hf.lastUsed hfu)).mp hlt

/-- The same place of the last use is the same last use, or none of either. -/
theorem lastUsed_of_usedAt_eq (hf : f.IsTimed) (hg : g.IsTimed) (heq : f.usedAt = g.usedAt) :
    f.lastUsed.map Stamp.epochSeconds = g.lastUsed.map Stamp.epochSeconds := by
  have hnone : f.lastUsed = none ↔ g.lastUsed = none := by
    rw [← hf.usedAt_le_zero_iff, ← hg.usedAt_le_zero_iff, heq]
  cases hfu : f.lastUsed with
  | none => rw [hnone.mp hfu]
  | some a =>
      cases hgu : g.lastUsed with
      | none => exact absurd (hnone.mpr hgu) (by rw [hfu]; nofun)
      | some b =>
          rw [usedAt_some hfu, usedAt_some hgu] at heq
          exact congrArg some
            ((place_eq_iff (hf.lastUsed hfu) (hg.lastUsed hgu)).mp heq)

/-- **Filters in their sorted order stand as a person expects them**, when no two were created at
the same time. -/
theorem comesBefore_of_precedes (hf : f.IsTimed) (hg : g.IsTimed)
    (hcreated : f.createdAt.epochSeconds ≠ g.createdAt.epochSeconds)
    (h : precedes f g = true) : ComesBefore f g := by
  obtain hfav | ⟨hfav, hlt | ⟨heq, hle⟩⟩ := precedes_iff.mp h
  · exact .inl hfav
  · exact .inr ⟨hfav, .inl (usedLater_of_usedAt_lt hf hg hlt)⟩
  · have hplace : place g.createdAt ≠ place f.createdAt := fun hsame =>
      hcreated ((place_eq_iff hg.createdAt hf.createdAt).mp hsame).symm
    have hlater : g.createdAt.epochSeconds < f.createdAt.epochSeconds :=
      (place_lt_iff hg.createdAt hf.createdAt).mp (by omega)
    exact .inr ⟨hfav, .inr ⟨lastUsed_of_usedAt_eq hf hg heq, hlater⟩⟩

/-- **A sorted list of filters is in that order.** -/
theorem pairwise_comesBefore_mergeSort {fs : List SavedFilter} (htimed : ∀ f ∈ fs, f.IsTimed)
    (hcreated : (fs.map (fun f => f.createdAt.epochSeconds)).Nodup) :
    (fs.mergeSort precedes).Pairwise ComesBefore := by
  have hperm : (fs.mergeSort precedes).Perm fs := List.mergeSort_perm fs precedes
  have hsorted : (fs.mergeSort precedes).Pairwise (fun f g => precedes f g = true) :=
    List.pairwise_mergeSort precedes_trans precedes_total fs
  have hdistinct : (fs.mergeSort precedes).Pairwise
      (fun f g => f.createdAt.epochSeconds ≠ g.createdAt.epochSeconds) :=
    List.pairwise_map.mp ((hperm.map _).nodup_iff.mpr hcreated)
  refine (hsorted.and hdistinct).imp_of_mem fun hf hg hfg => ?_
  exact comesBefore_of_precedes (htimed _ (hperm.mem_iff.mp hf)) (htimed _ (hperm.mem_iff.mp hg))
    hfg.2 hfg.1

end SavedFilter

end EncodedQuery

/-
  EncodedQuery.Proofs.Condition.Linked
  ────────────────────────────────────
  **HOW THE CONDITIONS OF A CHAIN ARE LINKED.**

  In a linked chain every condition but the last one says how it goes on, and
  the last one does not.  Chains are changed at their end alone, where the last
  condition gets a link before another one follows, and loses it when the one
  behind it is taken away.

  Main results:
    • `linked_append`, `linked_of_pop?` — chains stay linked as they grow and
      shrink,
    • `bare_append`, `bare_of_pop?` — links apart, they change at their end
      alone,
    • `forall_mem_append`, `forall_mem_of_pop?` — what holds of all conditions
      whatever their link holds of them afterwards.
-/
import EncodedQuery.Condition.Chain
import Mathlib.Data.List.Forall2

namespace EncodedQuery.Chain

/-! ## §1. The end of a list of conditions. -/

theorem linkLast_concat (l : Link) (c : Condition) :
    ∀ cs : List Condition, linkLast l (cs ++ [c]) = cs ++ [{ c with link := some l }]
  | [] => rfl
  | [_] => rfl
  | d :: e :: rest => by
      show d :: linkLast l ((e :: rest) ++ [c]) = _
      rw [linkLast_concat l c (e :: rest)]
      rfl

theorem unlinkLast_concat (c : Condition) :
    ∀ cs : List Condition, unlinkLast (cs ++ [c]) = cs ++ [{ c with link := none }]
  | [] => rfl
  | [_] => rfl
  | d :: e :: rest => by
      show d :: unlinkLast ((e :: rest) ++ [c]) = _
      rw [unlinkLast_concat c (e :: rest)]
      rfl

/-- A link that is put on the last condition is taken away again. -/
theorem unlinkLast_linkLast (l : Link) (cs : List Condition) :
    unlinkLast (linkLast l cs) = unlinkLast cs := by
  rcases List.eq_nil_or_concat' cs with rfl | ⟨init, c, rfl⟩
  · rfl
  · rw [linkLast_concat, unlinkLast_concat, unlinkLast_concat]

/-- The last condition has no link to take away. -/
theorem unlinkLast_eq_self {cs : List Condition} (h : ∀ c ∈ cs.getLast?, c.link = none) :
    unlinkLast cs = cs := by
  rcases List.eq_nil_or_concat' cs with rfl | ⟨init, c, rfl⟩
  · rfl
  · have hlink : c.link = none := h c (by simp)
    have hself : { c with link := none } = c := by rw [← hlink]
    rw [unlinkLast_concat, hself]

@[simp] theorem length_linkLast (l : Link) :
    ∀ cs : List Condition, (linkLast l cs).length = cs.length
  | [] => rfl
  | [_] => rfl
  | _ :: d :: rest => congrArg (· + 1) (length_linkLast l (d :: rest))

@[simp] theorem length_unlinkLast :
    ∀ cs : List Condition, (unlinkLast cs).length = cs.length
  | [] => rfl
  | [_] => rfl
  | _ :: d :: rest => congrArg (· + 1) (length_unlinkLast (d :: rest))

@[simp] theorem length_append (s : Chain) (c : Condition) (link : Option Link) :
    (s.append c link).conditions.length = s.conditions.length + 1 := by
  simp [append]

theorem length_le_of_pop? {s rest : Chain} {c : Condition} (h : s.pop? = some (c, rest)) :
    rest.conditions.length ≤ s.conditions.length := by
  unfold pop? at h
  split at h <;> cases h
  simp [ofList]

/-! ## §2. Linked chains. -/

/-- Every condition but the last is linked to its successor. -/
structure Linked (s : Chain) : Prop where
  /-- The earlier conditions have a link. -/
  earlier : ∀ c ∈ s.conditions.dropLast, c.link.isSome
  /-- The last condition has none. -/
  last : ∀ c ∈ s.conditions.getLast?, c.link = none

theorem linked_empty : Linked empty where
  earlier := by simp [empty]
  last := by simp [empty]

theorem linked_append {s : Chain} (h : s.Linked) (c : Condition) (link : Option Link) :
    (s.append c link).Linked := by
  obtain ⟨cs⟩ := s
  rcases List.eq_nil_or_concat' cs with rfl | ⟨init, d, rfl⟩
  · exact ⟨by simp [append, linkLast], by simp [append, linkLast]⟩
  · have hinit : ∀ e ∈ init, e.link.isSome := by simpa using h.earlier
    refine ⟨?_, by simp [append]⟩
    intro e he
    rw [append, linkLast_concat, List.dropLast_concat] at he
    rcases List.mem_append.mp he with he | he
    · exact hinit e he
    · rw [List.mem_singleton.mp he]
      rfl

theorem linked_of_pop? {s rest : Chain} {c : Condition} (h : s.Linked)
    (hp : s.pop? = some (c, rest)) : rest.Linked := by
  obtain ⟨cs⟩ := s
  rcases List.eq_nil_or_concat' cs with rfl | ⟨init, d, rfl⟩
  · cases hp
  · rw [pop?, List.getLast?_concat, List.dropLast_concat] at hp
    cases hp
    have hinit : ∀ e ∈ init, e.link.isSome := by simpa using h.earlier
    rcases List.eq_nil_or_concat' init with rfl | ⟨init', d', rfl⟩
    · exact linked_empty
    · rw [ofList, unlinkLast_concat]
      refine ⟨?_, by simp⟩
      intro e he
      rw [List.dropLast_concat] at he
      exact hinit e (List.mem_append_left _ he)

/-! ## §3. Conditions without their links. -/

/-- The condition without its link. -/
def bareCondition (c : Condition) : Condition := { c with link := none }

/-- The conditions of a chain without their links. -/
def bare (s : Chain) : List Condition := s.conditions.map bareCondition

@[simp] theorem length_bare (s : Chain) : s.bare.length = s.conditions.length :=
  List.length_map _

theorem map_bareCondition_linkLast (l : Link) :
    ∀ cs : List Condition, (linkLast l cs).map bareCondition = cs.map bareCondition
  | [] => rfl
  | [_] => rfl
  | c :: d :: rest => congrArg (bareCondition c :: ·) (map_bareCondition_linkLast l (d :: rest))

theorem map_bareCondition_unlinkLast :
    ∀ cs : List Condition, (unlinkLast cs).map bareCondition = cs.map bareCondition
  | [] => rfl
  | [_] => rfl
  | c :: d :: rest => congrArg (bareCondition c :: ·) (map_bareCondition_unlinkLast (d :: rest))

/-- Links apart, a chain grows by the condition itself, -/
theorem bare_append (s : Chain) (c : Condition) (link : Option Link) :
    (s.append c link).bare = s.bare ++ [bareCondition c] := by
  rw [bare, append, List.map_append, map_bareCondition_linkLast]
  rfl

/-- and shrinks by its last one. -/
theorem bare_of_pop? {s rest : Chain} {c : Condition} (h : s.pop? = some (c, rest)) :
    rest.bare = s.bare.dropLast := by
  unfold pop? at h
  split at h <;> cases h
  rw [bare, ofList, map_bareCondition_unlinkLast, List.map_dropLast]
  rfl

/-! ## §4. What holds of every condition. -/

section
variable {P : Condition → Prop} (hlink : ∀ c link, P c → P { c with link })
include hlink

/-- What does not depend on links can be seen without them. -/
theorem forall_mem_bare_iff (s : Chain) : (∀ c ∈ s.bare, P c) ↔ ∀ c ∈ s.conditions, P c := by
  rw [bare, List.forall_mem_map]
  exact ⟨fun h c hc => hlink (bareCondition c) c.link (h c hc), fun h c hc => hlink c none (h c hc)⟩

theorem forall_mem_append {s : Chain} (h : ∀ c ∈ s.conditions, P c) {c : Condition} (hc : P c)
    (link : Option Link) : ∀ d ∈ (s.append c link).conditions, P d := by
  rw [← forall_mem_bare_iff hlink] at h ⊢
  rw [bare_append, List.forall_mem_append, List.forall_mem_singleton]
  exact ⟨h, hlink c none hc⟩

theorem forall_mem_of_pop? {s rest : Chain} {c : Condition} (h : ∀ c ∈ s.conditions, P c)
    (hp : s.pop? = some (c, rest)) : ∀ d ∈ rest.conditions, P d := by
  rw [← forall_mem_bare_iff hlink] at h ⊢
  rw [bare_of_pop? hp]
  exact fun d hd => h d (List.dropLast_subset _ hd)

end

/-! The same for conditions and what stands beside each of them. -/

section
variable {α : Type} {R : α → Condition → Prop} (hlink : ∀ m c link, R m c → R m { c with link })
include hlink

theorem forall₂_bare_iff (ms : List α) (s : Chain) :
    List.Forall₂ R ms s.bare ↔ List.Forall₂ R ms s.conditions := by
  rw [bare, List.forall₂_map_right_iff]
  exact ⟨.imp fun m c h => hlink m (bareCondition c) c.link h, .imp fun m c h => hlink m c none h⟩

theorem forall₂_append {ms : List α} {s : Chain} (h : List.Forall₂ R ms s.conditions) {m : α}
    {c : Condition} (hc : R m c) (link : Option Link) :
    List.Forall₂ R (ms ++ [m]) (s.append c link).conditions := by
  rw [← forall₂_bare_iff hlink] at h ⊢
  rw [bare_append]
  exact List.rel_append h (.cons (hlink m c none hc) .nil)

theorem forall₂_of_pop? {ms : List α} {s rest : Chain} {c : Condition}
    (h : List.Forall₂ R ms s.conditions) (hp : s.pop? = some (c, rest)) :
    List.Forall₂ R (ms.take rest.conditions.length) rest.conditions := by
  have hlength : rest.conditions.length = s.bare.length - 1 := by
    rw [← length_bare, bare_of_pop? hp, List.length_dropLast]
  rw [← forall₂_bare_iff hlink] at h ⊢
  rw [bare_of_pop? hp, hlength, List.dropLast_eq_take]
  exact List.forall₂_take _ h

end

end EncodedQuery.Chain

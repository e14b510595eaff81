/-
  EncodedQuery.Proofs.Builder.Course
  ──────────────────────────────────
  **ONE CONDITION DOES NOT DEPEND ON THOSE BEFORE IT.**

  The course of a condition is what a builder shows from message to message,
  until a condition is accepted or the builder is left.  Wherever a condition
  starts, the same messages give the same course: nothing is left of what was
  typed, picked or searched for before.

  Main results:
    • `Alike.update` — builders under way stay alike until one of them accepts
      a condition, and they accept the same one,
    • `Fresh.same_course` — two builders in which a condition starts have the same
      course.
-/
import EncodedQuery.Proofs.Builder.Alike

namespace EncodedQuery.Builder

/-! ## §1. Courses. -/

/-- What can be seen of a builder. -/
structure Glimpse where
  /-- The stage. -/
  stage : Stage
  /-- What went wrong last. -/
  error : Text
  /-- What the stage shows. -/
  widget : Widget

/-- What can be seen of a builder now. -/
def glimpse (b : Builder) : Glimpse := { stage := b.stage, error := b.error, widget := b.widget }

/-- How a course ends. -/
inductive Ending where
  /-- The messages end first. -/
  | «open»
  /-- A condition is accepted. -/
  | accepted (c : Condition)
  /-- The builder is left. -/
  | left
  /-- A key fails. -/
  | failed (f : Fault)
  deriving DecidableEq

/-- The condition that a message completes, if the check finds no error in it. -/
def accepts? (b : Builder) : Message → Option Condition
  | .key now k =>
      (b.completed? now k).filter (fun c => !(Check.condition (some b.table) c).any Issue.isError)
  | .answer _ => none

/-- The condition that was accepted between two states: it is committed, or it waits for its
link. -/
def taken? (b b' : Builder) : Option Condition :=
  if b.conditions.conditions.length < b'.conditions.conditions.length then
    b'.conditions.conditions.getLast?
  else b'.pending

/-- What a builder shows from message to message, up to the first accepted condition, and how this
ends.  A condition that is accepted but cannot be described makes its key fail. -/
def course (b : Builder) : List Message → List Glimpse × Ending
  | [] => ([b.glimpse], .open)
  | m :: ms =>
      match b.receive m with
      | .error f => ([b.glimpse], (b.accepts? m).elim (.failed f) .accepted)
      | .ok b' =>
          match b.taken? b' with
          | some c => ([b.glimpse], .accepted c)
          | none =>
              if b.active && !b'.active then ([b.glimpse], .left)
              else (b.glimpse :: (b'.course ms).1, (b'.course ms).2)

namespace Message

/-- The key is one for the committed conditions: it removes the last one or completes the
filter. -/
def IsForFilter : Message → Prop
  | .key _ k => k = .ctrl 'd' ∨ k = .ctrl 'f'
  | .answer _ => False

/-- What a message says: the number of a search and its text do not count. -/
def content : Message → Message
  | .key now k => .key now k
  | .answer r => .answer { r with sequence := 0, text := [] }

end Message

/-! ## §2. Builders under way. -/

/-- The builder takes keys, and it is on the way to a condition. -/
structure Underway (b : Builder) : Prop where
  /-- Keys are taken. -/
  active : b.active = true
  /-- No condition waits for its link. -/
  stage : b.stage ≠ .link
  /-- Stage, chosen parts and open pickers are in accord. -/
  coherent : b.core.Coherent
  /-- The lists are in order. -/
  lists : b.WellListed

section
variable {b b' : Builder} {now : Instant} {k : Key}

/-- What a key completes is rejected unless it is accepted. -/
theorem rejects_of_accepts?_eq_none (hn : b.accepts? (.key now k) = none) {c : Condition}
    (hc : b.completed? now k = some c) : b.core.Rejects c := by
  have hrejected := Option.filter_eq_none_iff.mp hn c hc
  show (Check.condition (some b.table) c).any Issue.isError = true
  revert hrejected
  cases (Check.condition (some b.table) c).any Issue.isError <;> simp

theorem completed?_of_accepts?_eq_some {c : Condition} (hc : b.accepts? (.key now k) = some c) :
    b.completed? now k = some c ∧ ¬ b.core.Rejects c := by
  obtain ⟨hc, hr⟩ := Option.filter_eq_some_iff.mp hc
  refine ⟨hc, fun hrejects => ?_⟩
  replace hrejects : (Check.condition (some b.table) c).any Issue.isError = true := hrejects
  rw [hrejects] at hr
  cases hr

theorem Underway.pending (h : b.Underway) : b.pending = none := by
  have hnot : ¬ b.pending.isSome = true := mt h.coherent.pending.mp h.stage
  simpa using hnot

theorem Underway.step (h : b.Underway) (hu : b.update now k = .ok b') :
    Core.Step b.core k (b.completed? now k) b'.core :=
  step_update h.coherent h.lists.1 h.lists.2.1 h.active hu

/-- **What is accepted is what the next state has**: committed at once, or waiting for its link. -/
theorem Underway.taken?_eq (h : b.Underway) (hu : b.update now k = .ok b') :
    b.taken? b' = b.accepts? (.key now k) := by
  have hs := h.step hu
  cases hc : b.accepts? (.key now k) with
  | none =>
      -- there are no more conditions than before, and none waits
      have hr : ∀ c, b.completed? now k = some c → b.core.Rejects c :=
        fun c => rejects_of_accepts?_eq_none hc
      obtain ⟨_, hpending, hle⟩ := hs.stays_unlinked hr h.stage h.pending
      exact (if_neg (Nat.not_lt.mpr hle)).trans hpending
  | some c =>
      obtain ⟨hcompleted, hr⟩ := completed?_of_accepts?_eq_some hc
      rw [hcompleted] at hs
      -- a commit takes the link away, but there was none
      have hlink : { c with link := none } = c := by
        cases c
        cases hs.link_eq_none
        rfl
      rcases hs.of_not_rejects hr with ⟨_, happend⟩ | ⟨_, hsame, hpending, _⟩
      · replace happend : b'.conditions = b.conditions.append c none := happend
        unfold taken?
        rw [happend, if_pos (by simp)]
        simp [Chain.append, hlink]
      · replace hsame : b'.conditions = b.conditions := hsame
        unfold taken?
        rw [hsame, if_neg (Nat.lt_irrefl _)]
        exact hpending

/-- No answer leads to an accepted condition. -/
theorem Underway.taken?_receive (h : b.Underway) {m : Message} (hm : b.receive m = .ok b') :
    b.taken? b' = b.accepts? m := by
  cases m with
  | key now k => exact h.taken?_eq hm
  | answer r =>
      have hcore := core_receive_answer hm
      have hconditions : b'.conditions = b.conditions := congrArg Core.conditions hcore
      have hpending : b'.pending = b.pending := congrArg Core.pending hcore
      unfold taken?
      rw [hconditions, if_neg (Nat.lt_irrefl _), hpending]
      exact h.pending

/-- A builder that accepts nothing and is not left stays under way. -/
theorem Underway.update (h : b.Underway) (hu : b.update now k = .ok b')
    (hn : b.accepts? (.key now k) = none) (ha : b'.active = true) : b'.Underway where
  active := ha
  stage :=
    ((h.step hu).stays_unlinked (fun _ => rejects_of_accepts?_eq_none hn) h.stage h.pending).1
  coherent := h.coherent.step h.active (h.step hu)
  lists := (keeps_update hu).lists h.lists

theorem Underway.deliver (h : b.Underway) (r : SearchResult) : (b.deliver r).Underway := by
  have hcore := core_deliver b r
  have hstage : (b.deliver r).stage = b.stage := congrArg Core.stage hcore
  have hactive : (b.deliver r).active = b.active := congrArg Core.active hcore
  exact ⟨hactive.trans h.active, hstage ▸ h.stage, hcore ▸ h.coherent,
    (keeps_deliver b r).lists h.lists⟩

theorem Underway.receive (h : b.Underway) {m : Message} (hm : b.receive m = .ok b')
    (hn : b.accepts? m = none) (ha : b'.active = true) : b'.Underway := by
  cases m with
  | key now k => exact h.update hm hn ha
  | answer r =>
      cases hm
      exact h.deliver r

/-- A key of the stage completes what the key completes. -/
theorem Underway.completed?_eq (h : b.Underway) (hg : b.globalKey? now k = none) :
    b.completed? now k = b.stageCondition? now k := by
  simp [completed?, h.active, hg]

/-- **A key with which nothing is accepted** is one that works in every stage, or the key of the
stage as it is, since it commits nothing that would have to be described. -/
theorem Underway.update_eq (h : b.Underway) (hn : b.accepts? (.key now k) = none) :
    b.update now k = (b.globalKey? now k).elim (b.stageKey now k) .ok := by
  unfold Builder.update
  rw [h.active]
  cases hg : b.globalKey? now k with
  | some b' => rfl
  | none =>
      show b.stageKey now k >>= b.described = b.stageKey now k
      cases hu : b.stageKey now k with
      | error f => rfl
      | ok b' =>
          have hr : ∀ c, b.stageCondition? now k = some c → b.core.Rejects c := fun c hc =>
            rejects_of_accepts?_eq_none hn ((h.completed?_eq hg).trans hc)
          have hs := step_stageKey h.coherent h.lists.1 h.lists.2.1 hu
          have hle := (hs.stays_unlinked hr h.stage h.pending).2.2
          exact if_neg fun hlt => Nat.not_lt.mpr hle hlt.1

end

/-! ## §3. Courses of builders under way. -/

section
variable {b : Builder} (h : b.Underway) {m : Message} (ms : List Message)
include h

/-- A course ends with the first accepted condition. -/
theorem Underway.course_of_accepts {c : Condition} (hc : b.accepts? m = some c) :
    b.course (m :: ms) = ([b.glimpse], .accepted c) := by
  rw [course]
  cases hm : b.receive m with
  | error f => simp only [hc, Option.elim]
  | ok b' => simp only [h.taken?_receive hm, hc]

/-- Until then it goes on, unless a key fails or the builder is left. -/
theorem Underway.course_of_not_accepts (hn : b.accepts? m = none) :
    b.course (m :: ms) =
      match b.receive m with
      | .error f => ([b.glimpse], .failed f)
      | .ok b' =>
          if b'.active then (b.glimpse :: (b'.course ms).1, (b'.course ms).2)
          else ([b.glimpse], .left) := by
  rw [course]
  cases hm : b.receive m with
  | error f => simp only [hn, Option.elim]
  | ok b' =>
      simp only [h.taken?_receive hm, hn, h.active]
      cases b'.active <;> rfl

end

/-! ## §4. Builders under way go on alike. -/

section
variable {a b : Builder} (h : a.Alike b)
include h

theorem Alike.glimpse : a.glimpse = b.glimpse := by
  simp only [Builder.glimpse, h.stage, h.error, h.widget]

omit h in
/-- Whether a key works in every stage depends on the key alone. -/
theorem isNone_globalKey? (a b : Builder) (now : Instant) (k : Key) :
    (a.globalKey? now k).isNone = (b.globalKey? now k).isNone := by
  unfold Builder.globalKey?
  split <;> rfl

theorem Alike.completed? (now : Instant) (k : Key) : a.completed? now k = b.completed? now k := by
  unfold Builder.completed?
  rw [h.active, isNone_globalKey? a b, h.stageCondition?]

/-- **Alike builders accept the same conditions.** -/
theorem Alike.accepts? (m : Message) : a.accepts? m = b.accepts? m := by
  cases m with
  | key now k => simp only [Builder.accepts?, h.completed?, h.table]
  | answer r => rfl

/-- **Alike builders stay alike** under a key with which they accept nothing. -/
theorem Alike.update (ha : a.Underway) (hb : b.Underway) {now : Instant} {k : Key}
    (hk : ¬ (Message.key now k).IsForFilter) (hn : a.accepts? (.key now k) = none) :
    Together (a.update now k) (b.update now k) := by
  have hglobal := h.globalKey? ha.coherent now (fun hd => hk (.inl hd))
  rw [ha.update_eq hn, hb.update_eq ((h.accepts? _).symm.trans hn)]
  cases hga : a.globalKey? now k with
  | some a' =>
      rw [hga] at hglobal
      generalize b.globalKey? now k = found at hglobal ⊢
      cases hglobal with
      | some hab => exact .ok hab
  | none =>
      have hgb : b.globalKey? now k = none := by
        rw [← Option.isNone_iff_eq_none, isNone_globalKey? b a, hga]
        rfl
      rw [hgb]
      refine h.stageKey ha.stage (fun hf => hk (.inr hf)) fun c hc => ?_
      exact rejects_of_accepts?_eq_none hn ((ha.completed?_eq hga).trans hc)

/-- **Alike builders stay alike** under messages that say the same, as long as they accept
nothing. -/
theorem Alike.receive (ha : a.Underway) (hb : b.Underway) {m m' : Message}
    (hm : m.content = m'.content) (hk : ¬ m.IsForFilter) (hn : a.accepts? m = none) :
    Together (a.receive m) (b.receive m') := by
  cases m with
  | key now k =>
      cases m' with
      | key now' k' =>
          cases hm
          exact h.update ha hb hk hn
      | answer r' => cases hm
  | answer r =>
      cases m' with
      | key now' k' => cases hm
      | answer r' =>
          obtain ⟨_, table, _, outcome⟩ := r
          cases hm
          exact .ok (h.deliver rfl rfl)

omit h in
theorem accepts?_of_content_eq {m m' : Message} (hm : m.content = m'.content) :
    b.accepts? m = b.accepts? m' := by
  cases m with
  | key now k =>
      cases m' with
      | key now' k' =>
          cases hm
          rfl
      | answer r' => cases hm
  | answer r =>
      cases m' with
      | key now' k' => cases hm
      | answer r' => rfl

end

/-- **Alike builders under way have the same course.** -/
theorem Alike.course_eq {ms : List Message} (hk : ∀ m ∈ ms, ¬ m.IsForFilter) :
    ∀ {a b : Builder} {ms' : List Message}, a.Alike b → a.Underway → b.Underway →
      ms.map Message.content = ms'.map Message.content → a.course ms = b.course ms' := by
  -- induction on the messages; every message finds the builders alike and under way
  induction ms with
  | nil =>
      intro a b ms' h _ _ hms
      obtain rfl : ms' = [] := by simpa using hms.symm
      simp only [course, h.glimpse]
  | cons m rest ih =>
      intro a b ms' h ha hb hms
      cases ms' with
      | nil => cases hms
      | cons m' rest' =>
          obtain ⟨hm, hrest⟩ := List.cons.inj hms
          have haccepts : a.accepts? m = b.accepts? m' :=
            (h.accepts? m).trans (accepts?_of_content_eq hm)
          cases hc : a.accepts? m with
          | some c =>
              rw [ha.course_of_accepts rest hc, hb.course_of_accepts rest' (haccepts.symm.trans hc),
                h.glimpse]
          | none =>
              have hn := haccepts.symm.trans hc
              have hkm : ¬ m.IsForFilter := hk m (.head _)
              have htogether := h.receive ha hb hm hkm hc
              rw [ha.course_of_not_accepts rest hc, hb.course_of_not_accepts rest' hn, h.glimpse]
              cases hra : a.receive m with
              | error f =>
                  rw [hra] at htogether
                  generalize b.receive m' = result at htogether
                  cases htogether
                  rfl
              | ok a' =>
                  rw [hra] at htogether
                  cases hrb : b.receive m' with
                  | error f => rw [hrb] at htogether; cases htogether
                  | ok b' =>
                      rw [hrb] at htogether
                      cases htogether with
                      | ok h' =>
                          dsimp only
                          rw [h'.active]
                          cases hactive : b'.active with
                          | false => rfl
                          | true =>
                              have ha' := ha.receive hra hc (h'.active.trans hactive)
                              have hb' := hb.receive hrb hn hactive
                              rw [ih (fun m hmem => hk m (.tail _ hmem)) h' ha' hb' hrest]

/-! ## §5. Where conditions start. -/

section
variable {table : Table} {settings : Settings} {resolver : Resolver} {b : Builder}

/-- A builder that takes keys is under way where a condition starts. -/
theorem Fresh.underway (h : Fresh table settings resolver b) (ha : b.active = true) :
    b.Underway where
  active := ha
  stage := by simp [(h.blank ha).stage]
  coherent := h.history.coherent.1 ha
  lists := h.history.wellListed

end

/-- **The course of a condition does not depend on what happened before.**  Take two builders for
one table with the same settings and source, each of them new, or just after a commit, after
everything was dropped or after a filter was loaded, whatever happened to them before.  If both
take keys and ask for days in the same way, messages that say the same, none of them about the
committed conditions, show the same in both up to the first accepted condition, which is the same
too. -/
theorem Fresh.same_course {table : Table} {settings : Settings} {source : Option Source}
    {deferred₁ deferred₂ : Bool} {b₁ b₂ : Builder}
    (h₁ : Fresh table settings (resolverOf settings source deferred₁) b₁)
    (h₂ : Fresh table settings (resolverOf settings source deferred₂) b₂)
    (ha₁ : b₁.active = true) (ha₂ : b₂.active = true)
    (hmode : b₁.useAdvancedDate = b₂.useAdvancedDate) {ms₁ ms₂ : List Message}
    (hms : ms₁.map Message.content = ms₂.map Message.content)
    (hk : ∀ m ∈ ms₁, ¬ m.IsForFilter) : b₁.course ms₁ = b₂.course ms₂ := by
  have hframe : b₁.frame = b₂.frame :=
    (h₁.frame_eq ides).trans ((frame_new rfl ides ides).trans (h₂.frame_eq ides).symm)
  have halike : b₁.Alike b₂ :=
    alike_of_blank (h₁.blank ha₁) (h₂.blank ha₂) hframe hmode (ha₁.trans ha₂.symm)
  exact halike.course_eq hk (h₁.underway ha₁) (h₂.underway ha₂) hms

/-- The keys for `state = 2`. -/
def twoKeys : List Message := [.enter, .enter, .char '2', .enter].map (Message.key ides)

/-- The condition `state = 2`. -/
def stateIsTwo : Condition :=
  { field := { name := "state", label := "State" }, operator := "=", value := "2" }

/-- A first condition and a second one have the same course, and the same condition is accepted:
at once for a new builder, and before its link is chosen for one that has a condition. -/
theorem same_course_first_and_second :
    ∃ b₁ b₂, Fresh oneField {} noSearches b₁ ∧ Fresh oneField {} noSearches b₂ ∧
      b₁.conditions.conditions = [] ∧ b₂.conditions.conditions.length = 1 ∧
      b₁.course twoKeys = b₂.course twoKeys ∧
      (b₂.course twoKeys).2 = .accepted stateIsTwo := by
  have hcreate : create oneField {} noSearches ides = .ok (new oneField {} noSearches ides) :=
    if_pos (by decide +kernel)
  obtain ⟨b, hb, hcommits⟩ := exists_reachable oneField {} noSearches ides
    [.enter, .enter, .char '1']
    (fun b => (b.update ides .enter).toOption.any fun b' : Builder =>
      b'.active && b'.useAdvancedDate && decide (b.conditions.conditions = []) &&
        decide (b'.conditions.conditions.length = 1) &&
        decide ((b'.course twoKeys).2 = .accepted stateIsTwo))
    (by decide +kernel)
  cases hu : b.update ides .enter with
  | error f => rw [hu] at hcommits; cases hcommits
  | ok b₂ =>
      rw [hu] at hcommits
      simp only [Except.toOption, Option.any_some, Bool.and_eq_true, decide_eq_true_eq] at hcommits
      obtain ⟨⟨⟨⟨ha, hmode⟩, hnil⟩, hlength⟩, hend⟩ := hcommits
      have hgrown : b.conditions.conditions.length < b₂.conditions.conditions.length := by
        rw [hnil, hlength]
        decide
      have h₁ : Fresh oneField {} noSearches (new oneField {} noSearches ides) := .created hcreate
      have h₂ : Fresh oneField {} noSearches b₂ := .committed hb.history hu hgrown
      refine ⟨_, b₂, h₁, h₂, rfl, hlength, ?_, hend⟩
      refine Fresh.same_course h₁ h₂ rfl ha hmode.symm rfl fun m hm => ?_
      simp only [twoKeys, List.map_cons, List.map_nil, List.mem_cons, List.not_mem_nil,
        or_false] at hm
      rcases hm with rfl | rfl | rfl | rfl <;> rintro (hk | hk) <;> cases hk

/-- A builder that was left takes no keys, and a filter that is loaded into it does not change
this: Enter, which chooses a field in a new builder, does nothing there. -/
theorem course_differs_after_finish :
    ∃ b₁ b₂, Fresh oneField {} noSearches b₁ ∧ Fresh oneField {} noSearches b₂ ∧
      b₁.useAdvancedDate = b₂.useAdvancedDate ∧
      (b₁.course [.key ides .enter]).1.map Glimpse.stage = [.field, .operator] ∧
      (b₂.course [.key ides .enter]).1.map Glimpse.stage = [.field, .field] := by
  have hcreate : create oneField {} noSearches ides = .ok (new oneField {} noSearches ides) :=
    if_pos (by decide +kernel)
  obtain ⟨b, hb, hleft⟩ := exists_reachable oneField {} noSearches ides
    [.enter, .enter, .char 'x', .enter, .ctrl 'f']
    (fun b => (b.setConditions .empty).useAdvancedDate && decide
      (((b.setConditions .empty).course [.key ides .enter]).1.map Glimpse.stage = [.field, .field]))
    (by decide +kernel)
  simp only [Bool.and_eq_true, decide_eq_true_eq] at hleft
  exact ⟨_, b.setConditions .empty, .created hcreate, .loaded hb.history .empty, hleft.1.symm,
    by decide +kernel, hleft.2⟩

end EncodedQuery.Builder

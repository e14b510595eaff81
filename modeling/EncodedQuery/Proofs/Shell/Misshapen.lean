/-
  EncodedQuery.Proofs.Shell.Misshapen
  ───────────────────────────────────
  **DOCUMENTS OF THE WRONG SHAPE.**

  Where a document says something that cannot be, its reading complains of the value, and
  a command answers the complaint.  Where it has the wrong shape, a list in the place of a
  name for instance, the reading fails for a cause that no command answers.  `Reads x p`
  says that the one happens instead of the other exactly when `p` holds.

  Conditions are read one after the other and each from its field to its link, and the
  first failure is the one that counts.  A wrong shape therefore matters only where nothing
  in front of it is complained of, which is what `Condition.Misshapen` and
  `Chain.Misshapen` say.

  Main results: `Field.reads_ofMembers`, `Condition.reads_ofJson`, `Chain.reads_ofJson`.
-/
import EncodedQuery.Proofs.Fault
import EncodedQuery.Shell.Program

namespace EncodedQuery

variable {α β : Type}

/-! ## §1. Reading. -/

/-- The reading comes to a result or complains of a value, except for a misfit: then it fails for
a cause that is no complaint. -/
structure Reads (x : Except Fault α) (misfit : Prop) : Prop where
  /-- A misfit is no complaint. -/
  escapes : misfit → ∃ f, x = .error f ∧ Program.isComplaint f = false
  /-- Without a misfit there is nothing to complain of but values. -/
  complains : ¬ misfit → ∀ f, x = .error f → ∃ message, f = .badValue message

variable {x : Except Fault α} {g : α → Except Fault β} {p q : Prop}

theorem reads_ok (a : α) : Reads (.ok a) False := ⟨nofun, nofun⟩

theorem reads_badValue (message : Text) :
    Reads (.error (.badValue message) : Except Fault α) False :=
  ⟨nofun, fun _ _ h => ⟨message, (Except.error.inj h).symm⟩⟩

theorem reads_misfit {f : Fault} (h : Program.isComplaint f = false) :
    Reads (.error f : Except Fault α) True :=
  ⟨fun _ => ⟨f, rfl, h⟩, fun hno => absurd trivial hno⟩

theorem Reads.of_iff (h : Reads x p) (hiff : q ↔ p) : Reads x q :=
  ⟨fun hq => h.escapes (hiff.mp hq), fun hq => h.complains (fun hp => hq (hiff.mpr hp))⟩

theorem Reads.fails (h : Reads x p) (hp : p) : Fails x := by
  obtain ⟨f, heq, -⟩ := h.escapes hp
  exact ⟨f, heq⟩

/-- A misfit in what follows matters when there is something that it follows. -/
theorem Reads.bind (hx : Reads x p) (hg : ∀ a, Reads (g a) q) :
    Reads (x >>= g) (p ∨ ¬ Fails x ∧ q) := by
  cases x with
  | error f =>
      refine Reads.of_iff (p := p) ⟨fun hp => ?_, fun hp => ?_⟩ (by simp)
      · obtain ⟨_, ⟨⟩, hf⟩ := hx.escapes hp
        exact ⟨f, rfl, hf⟩
      · rintro _ ⟨⟩
        exact hx.complains hp f rfl
  | ok a =>
      have hp : ¬ p := fun hp => not_fails_ok a (hx.fails hp)
      exact (hg a).of_iff (by simp [hp])

/-- What is made of a result in the end does not matter. -/
theorem Reads.map (hx : Reads x p) (f : α → β) : Reads (x >>= fun a => pure (f a)) p :=
  (hx.bind fun a => reads_ok (f a)).of_iff (by simp)

/-- **Of several items the first one that is not read matters.** -/
theorem reads_mapM {misfit : α → Prop} (hg : ∀ a, Reads (g a) (misfit a)) : ∀ xs : List α,
    Reads (xs.mapM g) (∃ before a after, xs = before ++ a :: after ∧
      (∀ b ∈ before, ¬ Fails (g b)) ∧ misfit a)
  | [] => (reads_ok []).of_iff (by simp)
  | a :: xs => by
      rw [List.mapM_cons]
      refine ((hg a).bind fun b => (reads_mapM hg xs).map _).of_iff ⟨?_, ?_⟩
      · rintro ⟨before, b, after, heq, hbefore, hb⟩
        cases before with
        | nil =>
            cases heq
            exact .inl hb
        | cons c before =>
            cases heq
            obtain ⟨ha, hbefore⟩ := List.forall_mem_cons.mp hbefore
            exact .inr ⟨ha, before, b, after, rfl, hbefore, hb⟩
      · rintro (ha | ⟨ha, before, b, after, rfl, hbefore, hb⟩)
        · exact ⟨[], a, xs, rfl, nofun, ha⟩
        · exact ⟨a :: before, b, after, rfl, List.forall_mem_cons.mpr ⟨ha, hbefore⟩, hb⟩

/-! ## §2. Values. -/

namespace Json

/-- The value is an object. -/
def isObject : Json → Bool
  | object _ => true
  | _ => false

/-- The value is a list of objects. -/
def isObjectList : Json → Bool
  | list items => items.all isObject
  | _ => false

/-- The value is of a kind that no whole number is taken from, or it is infinite. -/
def isUncountable : Json → Bool
  | null | list _ | object _ => true
  | real x => !x.isNaN && x.isInf
  | _ => false

theorem reads_members (v : Json) : Reads v.members (v.isObject = false) := by
  cases v with
  | object ms => exact (reads_ok ms).of_iff (by simp [isObject])
  | _ => exact (reads_misfit rfl).of_iff (by simp [isObject])

theorem reads_toText (v : Json) : Reads v.toText (v.isString = false) := by
  cases v with
  | text t => exact (reads_ok t).of_iff (by simp [isString])
  | _ => exact (reads_misfit rfl).of_iff (by simp [isString])

theorem reads_toInt (v : Json) : Reads v.toInt (v.isUncountable = true) := by
  cases v with
  | null | list _ | object _ => exact (reads_misfit rfl).of_iff (by simp [isUncountable])
  | bool _ | int _ => exact (reads_ok _).of_iff (by simp [isUncountable])
  | real x =>
      rw [toInt, isUncountable]
      cases x.isNaN with
      | true => exact (reads_badValue _).of_iff (by simp)
      | false =>
          cases x.isInf with
          | true => exact (reads_misfit rfl).of_iff (by simp)
          | false => exact (reads_ok _).of_iff (by simp)
  | text t =>
      refine Reads.of_iff (p := False) ?_ (by simp [isUncountable])
      rw [toInt]
      rcases Number.readInt t with (_ | n) | n
      · exact reads_badValue _
      · exact reads_badValue _
      · exact reads_ok n

/-- A value that is not empty is a list of objects as far as what is met in it are objects: no name
and no character is one. -/
theorem walked_cases {v : Json} (hv : v.isEmptyValue = false) :
    (∃ kind, v.walked = .error (.notIterable kind) ∧ v.isObjectList = false) ∨
      ∃ items, v.walked = .ok items ∧ v.isObjectList = items.all isObject := by
  cases v with
  | list items => exact .inr ⟨items, rfl, rfl⟩
  | text t =>
      refine .inr ⟨_, rfl, ?_⟩
      cases t with
      | nil => cases hv
      | cons c t => rfl
  | object ms =>
      refine .inr ⟨_, rfl, ?_⟩
      cases ms with
      | nil => cases hv
      | cons m ms => rfl
  | _ => exact .inl ⟨_, rfl, rfl⟩

theorem isEmptyValue_of_nonempty? {o : Option Json} {v : Json} (h : nonempty? o = some v) :
    v.isEmptyValue = false := by
  cases o with
  | none => cases h
  | some w =>
      rw [nonempty?] at h
      split at h
      · cases h
      · cases h
        exact eq_false_of_ne_true ‹_›

end Json

/-! ## §3. Fields. -/

namespace Field

/-- The description of a field has choices that are no list of objects, or a greatest length that
is no number. -/
def Misshapen (ms : List (Text × Json)) : Prop :=
  (∃ v, Json.nonempty? (Json.lookup? "choices" ms) = some v ∧ v.isObjectList = false) ∨
    ∃ v, Json.nonempty? (Json.lookup? "max_length" ms) = some v ∧ v.isUncountable = true

theorem reads_choiceOfJson (v : Json) : Reads (choiceOfJson v) (v.isObject = false) :=
  v.reads_members.map _

theorem fails_choiceOfJson_iff (v : Json) : Fails (choiceOfJson v) ↔ v.isObject = false := by
  rw [choiceOfJson, fails_bind_pure_iff]
  cases v <;> simp [Json.members, Json.isObject]

/-- Choices fail only for their shape. -/
theorem fails_choices_iff (items : List Json) :
    Fails (items.mapM choiceOfJson) ↔ items.all Json.isObject = false := by
  rw [fails_mapM_iff]
  simp [fails_choiceOfJson_iff]

theorem reads_choices (items : List Json) :
    Reads (items.mapM choiceOfJson) (items.all Json.isObject = false) := by
  refine (reads_mapM reads_choiceOfJson items).of_iff ⟨fun hall => ?_, ?_⟩
  · -- the first item that is no object decides
    obtain ⟨v, hv⟩ : ∃ v, items.find? (fun v => !v.isObject) = some v := by
      rw [← Option.isSome_iff_exists, List.find?_isSome]
      simpa using hall
    obtain ⟨hmisfit, before, after, heq, hbefore⟩ := List.find?_eq_some_iff_append.mp hv
    refine ⟨before, v, after, heq, fun w hw => ?_, by simpa using hmisfit⟩
    rw [fails_choiceOfJson_iff]
    simpa using hbefore w hw
  · rintro ⟨before, v, after, rfl, -, hmisfit⟩
    simp [hmisfit]

/-- The choices of a description, where it has any. -/
theorem reads_walked_choices {v : Json} (hv : v.isEmptyValue = false) :
    Reads (v.walked >>= fun items => items.mapM choiceOfJson) (v.isObjectList = false) ∧
      (Fails (v.walked >>= fun items => items.mapM choiceOfJson) ↔ v.isObjectList = false) := by
  obtain ⟨kind, hwalked, hshape⟩ | ⟨items, hwalked, hshape⟩ := Json.walked_cases hv
  · rw [hwalked, hshape]
    exact ⟨(reads_misfit rfl).of_iff (by simp), iff_of_true (fails_error _) rfl⟩
  · rw [hwalked, hshape]
    exact ⟨reads_choices items, fails_choices_iff items⟩

/-- **A field is read as its description has the right shape.** -/
theorem reads_ofMembers (ms : List (Text × Json)) : Reads (ofMembers ms) (Misshapen ms) := by
  have hlength : Reads ((Json.nonempty? (Json.lookup? "max_length" ms)).getD (.int 0)).toInt
      (∃ v, Json.nonempty? (Json.lookup? "max_length" ms) = some v ∧ v.isUncountable = true) := by
    refine (Json.reads_toInt _).of_iff ?_
    cases Json.nonempty? (Json.lookup? "max_length" ms) with
    | none => simp [Json.isUncountable]
    | some v => simp
  rw [ofMembers]
  cases hchoices : Json.nonempty? (Json.lookup? "choices" ms) with
  | none =>
      refine (hlength.map _).of_iff ?_
      rw [Misshapen, hchoices]
      simp
  | some v =>
      obtain ⟨hreads, hfails⟩ := reads_walked_choices (Json.isEmptyValue_of_nonempty? hchoices)
      show Reads (v.walked >>= fun items => items.mapM choiceOfJson >>= _) _
      rw [← bind_assoc]
      refine (hreads.bind fun choices => hlength.map _).of_iff ?_
      rw [hfails, Misshapen, hchoices]
      simp [or_and_left]

end Field

/-! ## §4. Conditions. -/

theorem Reading.reads_instant (r : Reading) : Reads r.instant False := by
  rw [instant]
  cases Date.of? r.year r.month r.day with
  | none => exact reads_badValue _
  | some d =>
      dsimp only
      cases Instant.of? d r.hour r.minute r.second 0 with
      | none => exact reads_badValue _
      | some t => exact reads_ok t

theorem Pattern.reads_read (p : Pattern) (t : Text) : Reads (p.read t) False := by
  rw [read]
  rcases p.scan? {} t with _ | ⟨r, _ | ⟨c, rest⟩⟩
  · exact reads_badValue _
  · exact r.reads_instant
  · exact reads_badValue _

theorem Link.reads_ofName (t : Text) : Reads (ofName t) False := by
  rw [ofName]
  split
  · exact reads_ok _
  · split
    · exact reads_ok _
    · exact reads_badValue _

namespace Condition

theorem reads_fieldOfJson (o : Option Json) :
    Reads (fieldOfJson o) (∃ ms, o = some (.object ms) ∧ Field.Misshapen ms) := by
  unfold fieldOfJson
  split
  · exact (Field.reads_ofMembers _).of_iff (by simp)
  · rename_i hother
    refine (reads_ok _).of_iff (iff_false_intro ?_)
    rintro ⟨ms, heq, -⟩
    exact hother ms heq

theorem reads_instantOfJson (o : Option Json) :
    Reads (instantOfJson o) (∃ v, Json.nonempty? o = some v ∧ v.isString = false) := by
  rw [instantOfJson]
  cases Json.nonempty? o with
  | none => exact (reads_ok none).of_iff (by simp)
  | some v =>
      exact (v.reads_toText.bind fun t => (Pattern.backend.reads_read t).map some).of_iff (by simp)

theorem reads_linkOfJson (o : Option Json) : Reads (linkOfJson o) False := by
  rw [linkOfJson]
  cases Json.nonempty? o with
  | none => exact reads_ok none
  | some v => exact (Link.reads_ofName _).map some

/-- The description of a condition has the wrong shape at the first place that is not read: it is
no object, its field is described in a wrong shape, or an end of its range is no text. -/
inductive Misshapen : Json → Prop
  /-- It is no object. -/
  | noObject {v : Json} (h : v.isObject = false) : Misshapen v
  /-- It describes its field in a wrong shape. -/
  | field {ms description : List (Text × Json)}
      (hfield : Json.lookup? "field" ms = some (.object description))
      (h : Field.Misshapen description) : Misshapen (.object ms)
  /-- Its range starts with something else than a text. -/
  | start {ms : List (Text × Json)} {v : Json}
      (hfield : ¬ Fails (fieldOfJson (Json.lookup? "field" ms)))
      (hstart : Json.nonempty? (Json.lookup? "start" ms) = some v) (h : v.isString = false) :
      Misshapen (.object ms)
  /-- Its range ends with something else than a text. -/
  | stop {ms : List (Text × Json)} {v : Json}
      (hfield : ¬ Fails (fieldOfJson (Json.lookup? "field" ms)))
      (hstart : ¬ Fails (instantOfJson (Json.lookup? "start" ms)))
      (hstop : Json.nonempty? (Json.lookup? "end" ms) = some v) (h : v.isString = false) :
      Misshapen (.object ms)

/-- **A condition is read as its description has the right shape.** -/
theorem reads_ofJson (v : Json) : Reads (ofJson v) (Misshapen v) := by
  cases v with
  | object ms =>
      refine ((reads_fieldOfJson (Json.lookup? "field" ms)).bind fun field =>
        (reads_instantOfJson (Json.lookup? "start" ms)).bind fun start =>
          (reads_instantOfJson (Json.lookup? "end" ms)).bind fun stop =>
            (reads_linkOfJson (Json.lookup? "logical_op" ms)).map _).of_iff ⟨fun h => ?_, ?_⟩
      · cases h with
        | noObject h => cases h
        | field hfield h => exact .inl ⟨_, hfield, h⟩
        | start hfield hstart h => exact .inr ⟨hfield, .inl ⟨_, hstart, h⟩⟩
        | stop hfield hstart hstop h =>
            exact .inr ⟨hfield, .inr ⟨hstart, .inl ⟨_, hstop, h⟩⟩⟩
      · rintro (⟨description, hfield, h⟩ | ⟨hfield, ⟨v, hstart, h⟩ | ⟨hstart, ⟨v, hstop, h⟩ | h⟩⟩)
        · exact .field hfield h
        · exact .start hfield hstart h
        · exact .stop hfield hstart hstop h
        · exact absurd h.2 not_false
  | _ => exact (reads_misfit rfl).of_iff (iff_true_intro (.noObject rfl))

end Condition

/-! ## §5. Lists of conditions. -/

namespace Chain

/-- The descriptions of conditions have the wrong shape: there is no list of them, or the first one
that is not read has the wrong shape. -/
inductive Misshapen : Json → Prop
  /-- There is something else than a list, and something to be met in it. -/
  | noList {v : Json} (h : ∀ items, v ≠ .list items) (htext : v ≠ .text [])
      (hobject : v ≠ .object []) : Misshapen v
  /-- A description has the wrong shape, and all in front of it are read. -/
  | item {before after : List Json} {v : Json}
      (hbefore : ∀ w ∈ before, ¬ Fails (Condition.ofJson w)) (h : Condition.Misshapen v) :
      Misshapen (.list (before ++ v :: after))

theorem reads_ofItems (items : List Json) :
    Reads (ofItems items) (∃ before v after, items = before ++ v :: after ∧
      (∀ w ∈ before, ¬ Fails (Condition.ofJson w)) ∧ Condition.Misshapen v) :=
  (reads_mapM Condition.reads_ofJson items).map ofList

/-- A name or a character describes no condition. -/
theorem reads_ofItems_of_text (t : Text) (items : List Json) :
    Reads (ofItems (.text t :: items)) True :=
  (reads_ofItems _).of_iff
    (iff_of_true trivial ⟨[], .text t, items, rfl, nofun, .noObject rfl⟩)

/-- **A list of conditions is read as it has the right shape.** -/
theorem reads_ofJson (v : Json) : Reads (ofJson v) (Misshapen v) := by
  cases v with
  | list items =>
      refine (reads_ofItems items).of_iff ⟨fun h => ?_, ?_⟩
      · cases h with
        | noList h => exact absurd rfl (h items)
        | item hbefore h => exact ⟨_, _, _, rfl, hbefore, h⟩
      · rintro ⟨before, v, after, rfl, hbefore, h⟩
        exact .item hbefore h
  | text t =>
      cases t with
      | nil => exact (reads_ok _).of_iff (iff_false_intro fun | .noList _ h _ => h rfl)
      | cons c t =>
          exact (reads_ofItems_of_text [c] (t.map fun c => .text [c])).of_iff
            (iff_true_intro (.noList nofun nofun nofun))
  | object ms =>
      cases ms with
      | nil => exact (reads_ok _).of_iff (iff_false_intro fun | .noList _ _ h => h rfl)
      | cons m ms =>
          exact (reads_ofItems_of_text m.1 (ms.map fun m => .text m.1)).of_iff
            (iff_true_intro (.noList nofun nofun nofun))
  | _ => exact (reads_misfit rfl).of_iff (iff_true_intro (.noList nofun nofun nofun))

end Chain

end EncodedQuery

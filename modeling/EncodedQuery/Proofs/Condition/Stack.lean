/-
  EncodedQuery.Proofs.Condition.Stack
  ───────────────────────────────────
  **A CHAIN IS A STACK.**

  Whatever list a chain was made from and whatever was called on it since, its
  last condition has no link; the earlier ones may have one or not.  So a
  condition that is appended changes one link, from none to the one that it
  is joined by, and the pop behind it puts that link back.  In the query of the
  chain the new condition stands behind the old query, with the separator
  of its link in between.

  Main results:
    • `Ended.call`, `ended_of_run` — a chain stays without a last link, call by
      call and over a whole run,
    • `Ended.pop?_append` — a pop undoes the append before it,
    • `encode_append` — the query of the longer chain,
    • `stack_of_run` — all of it together.
-/
import EncodedQuery.Proofs.Condition.Linked
import EncodedQuery.Proofs.Fault

namespace EncodedQuery.Chain

/-! ## §1. Calls. -/

/-- A call on a chain. -/
inductive Call where
  /-- One more condition at the end, linked to by `link` or else by "and". -/
  | append (c : Condition) (link : Option Link)
  /-- The last condition is taken away, if there is one. -/
  | pop
  /-- All conditions are taken away. -/
  | clear
  /-- The chain of the same conditions. -/
  | copy
  /-- The chain of these descriptions instead. -/
  | load (items : List Json)

/-- The chain after a call; only descriptions that cannot be read make it fail. -/
def call (s : Chain) : Call → Except Fault Chain
  | .append c link => .ok (s.append c link)
  | .pop => .ok ((s.pop?.map (·.2)).getD s)
  | .clear => .ok empty
  | .copy => .ok (ofList s.conditions)
  | .load items => ofItems items

/-- The chain after calls one behind the other. -/
def run (s : Chain) (calls : List Call) : Except Fault Chain := calls.foldlM call s

/-! ## §2. The last condition. -/

/-- The last condition has no link. -/
def Ended (s : Chain) : Prop := ∀ c ∈ s.conditions.getLast?, c.link = none

/-- A chain that is made from a list has no last link, whatever links the list has. -/
theorem ended_ofList (cs : List Condition) : (ofList cs).Ended := by
  unfold Ended ofList
  rcases List.eq_nil_or_concat' cs with rfl | ⟨init, c, rfl⟩
  · intro c hc
    cases hc
  · rw [unlinkLast_concat]
    simp

theorem ended_append (s : Chain) (c : Condition) (link : Option Link) :
    (s.append c link).Ended := by
  simp [Ended, append]

theorem ended_of_ofItems {items : List Json} {s : Chain} (h : ofItems items = .ok s) :
    s.Ended := by
  obtain ⟨cs, _, hs⟩ := exists_of_bind_eq_ok h
  cases hs
  exact ended_ofList cs

theorem Ended.pop {s : Chain} (h : s.Ended) : ((s.pop?.map (·.2)).getD s).Ended := by
  unfold pop?
  cases s.conditions.getLast? with
  | none => exact h
  | some c => exact ended_ofList s.conditions.dropLast

/-- **No call leaves a last link.** -/
theorem Ended.call {s s' : Chain} (h : s.Ended) {call : Call} (hcall : s.call call = .ok s') :
    s'.Ended := by
  cases call with
  | append c link =>
      cases hcall
      exact ended_append s c link
  | pop =>
      cases hcall
      exact h.pop
  | clear =>
      cases hcall
      intro c hc
      cases hc
  | copy =>
      cases hcall
      exact ended_ofList s.conditions
  | load items => exact ended_of_ofItems hcall

/-- **Nor does a run of calls.** -/
theorem ended_of_run {cs : List Condition} {calls : List Call} {s : Chain}
    (h : (ofList cs).run calls = .ok s) : s.Ended :=
  of_foldlM (fun hs hcall => hs.call hcall) (ended_ofList cs) h

/-! ## §3. Append and pop. -/

/-- **A pop undoes the append before it.** -/
theorem Ended.pop?_append {s : Chain} (h : s.Ended) (c : Condition) (link : Option Link) :
    (s.append c link).pop? = some ({ c with link := none }, s) := by
  unfold pop? append
  rw [List.getLast?_concat, List.dropLast_concat]
  show some (_, Chain.mk (unlinkLast (linkLast _ s.conditions))) = _
  -- the link that the append put on the last condition is the one that the pop takes away
  rw [unlinkLast_linkLast, unlinkLast_eq_self h]

/-! ## §4. The query. -/

/-- Of the last condition's link the separator is made, and nothing else of what is written. -/
theorem encodeList_linkLast_concat (l : Link) (c : Condition) :
    ∀ cs : List Condition, cs ≠ [] →
      encodeList (linkLast l cs ++ [c]) = encodeList cs ++ l.separator.token ++ c.encode
  | [], h => absurd rfl h
  | [_], _ => rfl
  | d :: e :: rest, _ => by
      have ih := encodeList_linkLast_concat l c (e :: rest) (List.cons_ne_nil e rest)
      have hstep : encodeList (linkLast l (d :: e :: rest) ++ [c])
          = d.encode ++ d.separator.token ++ encodeList (linkLast l (e :: rest) ++ [c]) := by
        cases rest <;> rfl
      have hwhole : encodeList (d :: e :: rest)
          = d.encode ++ d.separator.token ++ encodeList (e :: rest) := rfl
      rw [hstep, ih, hwhole]
      simp only [List.append_assoc]

/-- What stands between a query and a condition that is appended to it. -/
theorem token_separator (link : Option Link) :
    (link.getD .and).separator.token
      = if link = some .or then ("^OR" : Text) else ("^" : Text) := by
  cases link with
  | none => rfl
  | some l => cases l <;> rfl

/-- **The query of the longer chain** is the old query, the separator and the new condition. -/
theorem encode_append {s : Chain} (h : s.conditions ≠ []) (c : Condition) (link : Option Link) :
    (s.append c link).encode
      = s.encode ++ (if link = some .or then ("^OR" : Text) else ("^" : Text)) ++ c.encode := by
  rw [← token_separator]
  exact encodeList_linkLast_concat _ { c with link := none } s.conditions h

/-! ## §5. After a run. -/

/-- **A chain is a stack with links.**  After any calls on a chain of any conditions the last
condition has no link; what is appended is popped again, without its link, and leaves the chain
as it was; and the query of a chain that is not empty is prolonged by the separator and the
condition. -/
theorem stack_of_run {cs : List Condition} {calls : List Call} {s : Chain}
    (h : (ofList cs).run calls = .ok s) :
    (∀ c ∈ s.conditions.getLast?, c.link = none) ∧
    (∀ c link, (s.append c link).pop? = some ({ c with link := none }, s)) ∧
    (s.conditions ≠ [] → ∀ c link, (s.append c link).encode
      = s.encode ++ (if link = some .or then ("^OR" : Text) else ("^" : Text)) ++ c.encode) := by
  have hended := ended_of_run h
  refine ⟨hended, ?_, ?_⟩
  · intro c link
    exact hended.pop?_append c link
  · intro hne c link
    exact encode_append hne c link

/-- A run with every kind of call, of which the conditions after the last load remain. -/
theorem stack_of_run_priority_or_state :
    let priority : Condition := { field := { name := "priority" }, operator := "=", value := "1" }
    let active : Condition :=
      { field := { name := "active" }, operator := "=", value := "true", link := some .or }
    let state : Condition :=
      { field := { name := "state" }, operator := "=", value := "2", link := some .and }
    let described : Json := .object
      [("field", .text "priority"), ("operator", .text "="), ("value", .text "1"),
        ("logical_op", .text "and")]
    let calls : List Call :=
      [.clear, .load [described], .append active none, .pop, .append state (some .or), .copy]
    let s : Chain := ⟨[{ priority with link := some .or }, { state with link := none }]⟩
    (ofList [priority, active]).run calls = .ok s ∧
    (s.append active none).pop? = some ({ active with link := none }, s) ∧
    (s.append active none).encode = ("priority=1^ORstate=2^active=true" : Text) := by
  intro priority active state described calls s
  have hrun : (ofList [priority, active]).run calls = .ok s := rfl
  obtain ⟨_, hpop, hencode⟩ := stack_of_run hrun
  exact ⟨hrun, hpop active none, hencode (List.cons_ne_nil _ _) active none⟩

end EncodedQuery.Chain

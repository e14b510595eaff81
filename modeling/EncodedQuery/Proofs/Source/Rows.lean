/-
  EncodedQuery.Proofs.Source.Rows
  ───────────────────────────────
  **THE SEARCH FOR THE ROWS OF A DICTIONARY.**

  The requests for the rows of a table are made one after the other.  An answer
  without rows is barren, and so is a failure of the source that is no refusal;
  the search goes on behind it.  The first answer that is not barren ends the
  search: with its rows, or with its failure.

  When all answers are barren, there are no rows.  If a request failed, one more
  request decides what is said: the last failure, or that of this request.

  Main results: `outcome_rows_of_ends`, `outcome_rows_of_fails`,
  `outcome_rows_of_none`, `outcome_rows_of_barren`, `ends_or_barren`.
-/
import EncodedQuery.Proofs.Source.Calls
import EncodedQuery.Source.Dictionary

namespace EncodedQuery

open Calling

/-- The failure is one of a source, but no refusal. -/
def Fault.isPassing : Fault → Bool
  | source .denied _ _ => false
  | source _ _ _ => true
  | _ => false

namespace Dictionary

/-! ## §1. Answers. -/

/-- What a request is answered with. -/
abbrev Answer := Except Fault (List Record)

/-- The answer gives no rows, and the search goes on behind it. -/
def IsBarren (a : Answer) : Prop := a = .ok [] ∨ ∃ f : Fault, a = .error f ∧ f.isPassing = true

/-- The answers to requests, of which the first one has the number `n`. -/
def answers (s : Source) : Nat → List Request → List Answer
  | _, [] => []
  | n, r :: rest => s.answer n r :: answers s (n + 1) rest

theorem answers_concat (s : Source) (n : Nat) (rs : List Request) (r : Request) :
    answers s n (rs ++ [r]) = answers s n rs ++ [s.answer (n + rs.length) r] := by
  induction rs generalizing n with
  | nil => rfl
  | cons q rs ih =>
      show s.answer n q :: answers s (n + 1) (rs ++ [r]) = _
      rw [ih, List.length_cons, Nat.add_right_comm, Nat.add_assoc]
      rfl

theorem answers_congr {s s' : Source} {n : Nat} {rs : List Request}
    (h : ∀ m < n + rs.length, ∀ r, s'.answer m r = s.answer m r) :
    answers s' n rs = answers s n rs := by
  induction rs generalizing n with
  | nil => rfl
  | cons r rs ih =>
      rw [List.length_cons, Nat.add_comm rs.length 1, ← Nat.add_assoc] at h
      rw [answers, answers, h n (by omega), ih h]

/-- Why an answer failed, if it did. -/
def failure? {α : Type} : Except Fault α → Option Fault
  | .ok _ => none
  | .error f => some f

theorem failure?_eq_some {α : Type} {a : Except Fault α} {f : Fault} :
    failure? a = some f ↔ a = .error f := by
  cases a <;> simp [failure?]

/-- The last failure among answers. -/
def lastFailure (as : List Answer) : Option Fault := (as.filterMap failure?).getLast?

theorem lastFailure_cons (a : Answer) (as : List Answer) :
    lastFailure (a :: as) = (lastFailure as).or (failure? a) := by
  unfold lastFailure
  cases a with
  | ok records =>
      show (as.filterMap failure?).getLast? = ((as.filterMap failure?).getLast?).or none
      rw [Option.or_none]
  | error f =>
      show (f :: as.filterMap failure?).getLast? = ((as.filterMap failure?).getLast?).or (some f)
      rw [List.getLast?_cons]
      cases (as.filterMap failure?).getLast? <;> rfl

/-! ## §2. Requests in turn. -/

variable {s : Source} {table : Text} {made made' : List Request}

/-- One request of the search. -/
theorem outcome_firstAnswer_cons (r : Request) (rest : List Request) (failure : Option Fault) :
    outcome (firstAnswer s (r :: rest) failure) made
      = match s.answer made.length r with
        | .ok [] => outcome (firstAnswer s rest failure) (made ++ [r])
        | .ok records => (.ok (records, failure), made ++ [r])
        | .error f =>
            if f.isPassing then outcome (firstAnswer s rest (some f)) (made ++ [r])
            else (.error f, made ++ [r]) := by
  rw [firstAnswer, outcome_bind, outcome_tryCatch, outcome_bind, Source.outcome_list]
  rcases s.answer made.length r with f | records
  · cases f with
    | source cause t reason => cases cause <;> rfl
    | _ => rfl
  · cases records <;> rfl

/-- **Barren answers only lead on**; what is kept of them is the last failure. -/
theorem outcome_firstAnswer_append {earlier : List Request} (rest : List Request)
    (failure : Option Fault) (h : ∀ a ∈ answers s made.length earlier, IsBarren a) :
    outcome (firstAnswer s (earlier ++ rest) failure) made
      = outcome (firstAnswer s rest ((lastFailure (answers s made.length earlier)).or failure))
          (made ++ earlier) := by
  induction earlier generalizing made failure with
  | nil =>
      rw [List.append_nil]
      rfl
  | cons r earlier ih =>
      obtain ⟨hr, hearlier⟩ := List.forall_mem_cons.mp h
      have hlength : (made ++ [r]).length = made.length + 1 := List.length_append
      rw [← hlength] at hearlier
      have ih := fun failure => ih failure hearlier
      rw [hlength, List.append_assoc, List.singleton_append] at ih
      rw [List.cons_append, outcome_firstAnswer_cons, answers, lastFailure_cons]
      obtain hanswer | ⟨f, hanswer, hf⟩ := hr
      · rw [hanswer]
        show outcome (firstAnswer s (earlier ++ rest) failure) (made ++ [r]) = _
        rw [ih, failure?, Option.or_none]
      · rw [hanswer]
        show (if f.isPassing = true then _ else _) = _
        rw [if_pos hf, ih, failure?, Option.or_assoc, Option.some_or]

/-! ## §3. The end of the search. -/

/-- The requests `asked` were made for the rows of a table, the first with the number `n`, and the
answer to the last of them is the first that is not barren. -/
def EndsWith (s : Source) (table : Text) (n : Nat) (asked : List Request) (a : Answer) : Prop :=
  ∃ earlier r later, requests table = earlier ++ r :: later ∧ asked = earlier ++ [r] ∧
    (∀ b ∈ answers s n earlier, IsBarren b) ∧ s.answer (n + earlier.length) r = a ∧ ¬ IsBarren a

/-- Every request for the rows of a table is answered, and no answer ends the search. -/
def AllBarren (s : Source) (table : Text) (n : Nat) : Prop :=
  ∀ a ∈ answers s n (requests table), IsBarren a

/-- The search ends with an answer, or no answer ends it. -/
theorem ends_or_barren (s : Source) (table : Text) (n : Nat) :
    (∃ asked a, EndsWith s table n asked a) ∨ AllBarren s table n := by
  have hsearch : ∀ (rs earlier : List Request), requests table = earlier ++ rs →
      (∀ b ∈ answers s n earlier, IsBarren b) →
      (∃ asked a, EndsWith s table n asked a) ∨
        ∀ a ∈ answers s (n + earlier.length) rs, IsBarren a := by
    intro rs
    induction rs with
    | nil => exact fun _ _ _ => .inr nofun
    | cons r rest ih =>
        intro earlier hrequests hearlier
        by_cases hr : IsBarren (s.answer (n + earlier.length) r)
        · have hnext : ∀ b ∈ answers s n (earlier ++ [r]), IsBarren b := by
            rw [answers_concat, List.forall_mem_append, List.forall_mem_singleton]
            exact ⟨hearlier, hr⟩
          have hrest := ih (earlier ++ [r]) (by rw [hrequests, List.append_assoc]; rfl) hnext
          refine hrest.imp_right fun hrest => ?_
          rw [List.length_append, List.length_singleton, ← Nat.add_assoc] at hrest
          exact List.forall_mem_cons.mpr ⟨hr, hrest⟩
        · exact .inl ⟨_, _, earlier, r, rest, hrequests, rfl, hearlier, rfl, hr⟩
  exact hsearch (requests table) [] rfl nofun

section
variable {asked : List Request} {a : Answer}

/-- Only the answers to the requests that were made count. -/
theorem EndsWith.congr {s' : Source} {n : Nat} (h : EndsWith s table n asked a)
    (hsame : ∀ m < n + asked.length, ∀ r, s'.answer m r = s.answer m r) :
    EndsWith s' table n asked a := by
  obtain ⟨earlier, r, later, hrequests, rfl, hearlier, hanswer, ha⟩ := h
  rw [List.length_append, List.length_singleton, ← Nat.add_assoc] at hsame
  refine ⟨earlier, r, later, hrequests, rfl, ?_, ?_, ha⟩
  · rwa [answers_congr fun m hm => hsame m (Nat.lt_succ_of_lt hm)]
  · rw [hsame _ (Nat.lt_succ_self _), hanswer]

/-- The search ends with the answer to the last request. -/
theorem outcome_firstAnswer_of_ends (h : EndsWith s table made.length asked a) :
    ∃ failure, outcome (firstAnswer s (requests table) none) made
      = (a.map (fun records => (records, failure)), made ++ asked) := by
  obtain ⟨earlier, r, later, hrequests, rfl, hearlier, hanswer, ha⟩ := h
  refine ⟨(lastFailure (answers s made.length earlier)).or none, ?_⟩
  rw [hrequests, outcome_firstAnswer_append _ _ hearlier, outcome_firstAnswer_cons,
    List.length_append, hanswer, ← List.append_assoc]
  cases a with
  | error f =>
      have hf : f.isPassing ≠ true := fun hf => ha (.inr ⟨f, rfl, hf⟩)
      exact if_neg hf
  | ok records =>
      cases records with
      | nil => exact absurd (.inl rfl) ha
      | cons record rest => rfl

/-- **An answer with rows ends the search with them.** -/
theorem outcome_rows_of_ends {records : List Record}
    (h : EndsWith s table made.length asked (.ok records)) :
    outcome (rows s table) made = (.ok records, made ++ asked) := by
  obtain ⟨failure, hfirst⟩ := outcome_firstAnswer_of_ends h
  obtain ⟨-, -, -, -, -, -, -, hrecords⟩ := h
  rw [rows, outcome_bind_ok hfirst]
  cases records with
  | nil => exact absurd (.inl rfl) hrecords
  | cons record rest => rfl

/-- **A refusal ends it at once**, and so does a failure that is not one of a source. -/
theorem outcome_rows_of_fails {f : Fault} (h : EndsWith s table made.length asked (.error f)) :
    outcome (rows s table) made = (.error f, made ++ asked) := by
  obtain ⟨failure, hfirst⟩ := outcome_firstAnswer_of_ends h
  rw [rows, outcome_bind_error hfirst]

end

theorem outcome_firstAnswer_of_barren (h : AllBarren s table made.length) :
    outcome (firstAnswer s (requests table) none) made
      = (.ok ([], lastFailure (answers s made.length (requests table))),
          made ++ requests table) := by
  have hall := outcome_firstAnswer_append [] none h
  rw [List.append_nil, Option.or_none] at hall
  exact hall

/-- Without a failure there are no rows. -/
theorem outcome_rows_of_none (h : AllBarren s table made.length)
    (hnone : lastFailure (answers s made.length (requests table)) = none) :
    outcome (rows s table) made = (.ok [], made ++ requests table) := by
  have hfirst := outcome_firstAnswer_of_barren h
  rw [hnone] at hfirst
  rw [rows, outcome_bind_ok hfirst]
  rfl

/-- What is said of a table when no request gave rows: the last failure, unless one more request
fails as well; and that the dictionary may not be read when it is not even there. -/
def blame (table : Text) (last : Fault) : Answer → Fault
  | .ok _ => last
  | .error (.source .notFound _ reason) =>
      .source .denied table ("sys_dictionary is not accessible: " ++ reason)
  | .error f => f

/-- **After a failure one more request decides what is said.** -/
theorem outcome_rows_of_barren {last : Fault} (h : AllBarren s table made.length)
    (hlast : lastFailure (answers s made.length (requests table)) = some last) :
    outcome (rows s table) made
      = (.error (blame table last (s.answer (made ++ requests table).length probe)),
          made ++ requests table ++ [probe]) := by
  have hfirst := outcome_firstAnswer_of_barren h
  rw [hlast] at hfirst
  rw [rows, outcome_bind_ok hfirst]
  show outcome (tryCatch _ _ >>= _) (made ++ requests table) = _
  rw [outcome_bind, outcome_tryCatch, outcome_bind, Source.outcome_list]
  rcases s.answer (made ++ requests table).length probe with f | records
  · cases f with
    | source cause t reason => cases cause <;> rfl
    | _ => rfl
  · rfl

end Dictionary

end EncodedQuery

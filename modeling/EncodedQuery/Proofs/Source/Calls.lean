/-
  EncodedQuery.Proofs.Source.Calls
  ────────────────────────────────
  **COMPUTATIONS THAT MAKE REQUESTS, STEP BY STEP.**

  A computation with requests gives a result or a failure, and the list of all
  requests made so far (`outcome`).  Each way of putting computations together has
  one equation here.  The number of a request is the length of the list before it,
  and the answer depends on it.
-/
import EncodedQuery.Source.Basic

namespace EncodedQuery

namespace Calling

variable {α β : Type}

/-- What a computation gives, and the requests made in the end, when `made` were made before. -/
def outcome (x : Calling α) (made : List Request) : Except Fault α × List Request :=
  x.run.run made

@[simp] theorem outcome_pure (a : α) (made : List Request) :
    outcome (pure a) made = (.ok a, made) := rfl

@[simp] theorem outcome_throw (f : Fault) (made : List Request) :
    outcome (throw f : Calling α) made = (.error f, made) := rfl

@[simp] theorem outcome_ofExcept (e : Except Fault α) (made : List Request) :
    outcome (ExceptT.mk (pure e)) made = (e, made) := rfl

/-- What follows a result starts with the requests made so far. -/
theorem outcome_bind (x : Calling α) (g : α → Calling β) (made : List Request) :
    outcome (x >>= g) made
      = match outcome x made with
        | (.ok a, made') => outcome (g a) made'
        | (.error f, made') => (.error f, made') := by
  unfold outcome
  rw [ExceptT.run_bind, StateT.run_bind]
  rcases x.run.run made with ⟨_ | a, made'⟩ <;> rfl

/-- So does what is done about a failure. -/
theorem outcome_tryCatch (x : Calling α) (g : Fault → Calling α) (made : List Request) :
    outcome (tryCatch x g) made
      = match outcome x made with
        | (.ok a, made') => (.ok a, made')
        | (.error f, made') => outcome (g f) made' := by
  unfold outcome
  simp only [tryCatch, tryCatchThe, MonadExceptOf.tryCatch, ExceptT.tryCatch, ExceptT.run_mk,
    StateT.run_bind]
  rcases hx : StateT.run (ExceptT.run x) made with ⟨_ | a, made'⟩ <;>
    rw [show StateT.run x made = _ from hx] <;> rfl

variable {x : Calling α} {g : α → Calling β} {made made' : List Request}

theorem outcome_bind_ok {a : α} (h : outcome x made = (.ok a, made')) :
    outcome (x >>= g) made = outcome (g a) made' := by
  rw [outcome_bind, h]

theorem outcome_bind_error {f : Fault} (h : outcome x made = (.error f, made')) :
    outcome (x >>= g) made = (.error f, made') := by
  rw [outcome_bind, h]

end Calling

namespace Source

open Calling

/-- A request is answered, and was made. -/
@[simp] theorem outcome_listRows (s : Source) (r : Request) (made : List Request) :
    outcome (s.listRows r) made = (s.rows made.length r, made ++ [r]) := by
  have hget : outcome (get : Calling (List Request)) made = (.ok made, made) := rfl
  have hset : outcome (set (made ++ [r]) : Calling PUnit) made = (.ok ⟨⟩, made ++ [r]) := rfl
  rw [listRows, outcome_bind_ok hget, outcome_bind_ok hset]
  cases s.rows made.length r <;> rfl

@[simp] theorem outcome_list (s : Source) (r : Request) (made : List Request) :
    outcome (s.list r) made = (s.answer made.length r, made ++ [r]) := by
  unfold list answer
  rw [outcome_bind, outcome_listRows]
  cases s.rows made.length r <;> rfl

end Source

end EncodedQuery

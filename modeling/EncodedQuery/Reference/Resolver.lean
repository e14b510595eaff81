/-
  EncodedQuery.Reference.Resolver
  ───────────────────────────────
  **SEARCHING WHILE THE TEXT IS TYPED.**

  Every change of the text starts a search, and a search takes its time, so
  answers can arrive late and out of order.  Searches are numbered; starting or
  cancelling one makes all earlier ones stale.  A stale job makes no request, and
  a stale answer is dropped when the answers are collected.

  A job runs in three steps that other steps may come between: `starts` checks
  that it is not stale, `ask` makes its request, `post` leaves the answer in
  the inbox.  `run` does them in a row.
-/
import EncodedQuery.Reference.Candidate

namespace EncodedQuery

/-! ## §1. Searches and answers. -/

/-- The answer to a search. -/
structure SearchResult where
  /-- The number of the search. -/
  sequence : Nat
  /-- The table that was searched. -/
  table : Text
  /-- The text that was searched for. -/
  text : Text
  /-- The records found, or why there are none. -/
  outcome : Except Fault (List Candidate)

namespace SearchResult

/-- The search succeeded. -/
def ok (r : SearchResult) : Bool := r.outcome.toBool

/-- The records found. -/
def candidates (r : SearchResult) : List Candidate :=
  match r.outcome with
  | .ok cs => cs
  | .error _ => []

/-- Why there are no records. -/
def error? (r : SearchResult) : Option Text :=
  match r.outcome with
  | .ok _ => none
  | .error f => some f.message

end SearchResult

/-- A search that waits to be run. -/
structure SearchJob where
  /-- The number of the search. -/
  sequence : Nat
  /-- The table to search. -/
  table : Text
  /-- The text to search for. -/
  text : Text
  deriving DecidableEq, Repr

/-- The searches of one owner. -/
structure Resolver where
  /-- Where the records come from. -/
  source : Option Source
  /-- The shortest text that is searched for. -/
  minLength : Nat := 2
  /-- The most records asked for. -/
  limit : Int := 20
  /-- Jobs wait until they are run one by one, instead of running when they are submitted. -/
  deferred : Bool := false
  /-- The number of the last search or cancellation. -/
  sequence : Nat := 0
  /-- All jobs submitted so far, oldest first. -/
  jobs : List SearchJob := []
  /-- The answers that wait to be collected, oldest first. -/
  inbox : List SearchResult := []
  /-- The requests made so far, oldest first. -/
  requests : List Request := []

namespace Resolver

/-! ## §2. The owner's side. -/

/-- Makes all earlier searches stale. -/
def cancel (r : Resolver) : Resolver := { r with sequence := r.sequence + 1 }

/-- Collects the answers: only those to the last search, unless that was cancelled. -/
def poll (r : Resolver) : List SearchResult × Resolver :=
  (r.inbox.filter (fun a => a.sequence = r.sequence), { r with inbox := [] })

/-! ## §3. Jobs. -/

/-- The job is not stale. -/
def starts (r : Resolver) (job : SearchJob) : Bool := job.sequence = r.sequence

/-- The failure as the owner sees it: whatever went wrong, the source failed. -/
def asSourceFault (table : Text) (f : Fault) : Fault :=
  if f.isSource then f else .source .network table f.message

/-- Makes the request of a job. -/
def ask (r : Resolver) (source : Source) (job : SearchJob) : SearchResult × Resolver :=
  let request := Candidate.searchRequest job.table job.text r.limit
  let outcome :=
    match source.answer r.requests.length request with
    | .ok records =>
        .ok ((firstItems r.limit records).map (Candidate.ofRecord job.table))
    | .error f => .error (asSourceFault job.table f)
  ({ sequence := job.sequence, table := job.table, text := job.text, outcome },
   { r with requests := r.requests ++ [request] })

/-- Leaves an answer in the inbox. -/
def post (r : Resolver) (a : SearchResult) : Resolver := { r with inbox := r.inbox ++ [a] }

/-- Runs a job, unless it is stale. -/
def run (r : Resolver) (job : SearchJob) : Resolver :=
  match r.source with
  | none => r
  | some source =>
      if r.starts job then
        let (answer, r') := r.ask source job
        r'.post answer
      else r

/-- Runs the job that was submitted as number `i`, counted from zero. -/
def runAt (r : Resolver) (i : Nat) : Except Fault Resolver :=
  match r.jobs[i]? with
  | some job => .ok (r.run job)
  | none => .error .noSuchPosition

/-- Hands a job over. -/
def submit (r : Resolver) (job : SearchJob) : Resolver :=
  let r := { r with jobs := r.jobs ++ [job] }
  if r.deferred then r else r.run job

/-- Starts a search, and gives its number.  Without a source, and for a text that is too
short, none is started, but earlier ones become stale all the same. -/
def search (r : Resolver) (table text : Text) : Option Nat × Resolver :=
  let r := r.cancel
  let needle := Text.strip text
  if r.source.isNone || decide (needle.length < r.minLength) then (none, r)
  else (some r.sequence, r.submit ⟨r.sequence, table, needle⟩)

end Resolver

end EncodedQuery

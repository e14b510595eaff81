/-
  EncodedQuery.Instant.Stamp
  ──────────────────────────
  **TIME STAMPS.**

  What is stored of an instant: what a clock showed, and how far that clock was
  ahead of UTC, where this is known.  Clocks of which it is not known are taken
  to show UTC.  The text in which a stamp is stored is `iso`.
-/
import EncodedQuery.Instant.Basic

namespace EncodedQuery

/-! ## §1. Offsets. -/

/-- A clock may be so many microseconds ahead of UTC, or behind it: less than a day, and at least a
second unless it shows UTC. -/
def IsOffset (n : Int) : Prop := n.natAbs < 86400000000 ∧ (n = 0 ∨ 1000000 ≤ n.natAbs)

instance (n : Int) : Decidable (IsOffset n) := by unfold IsOffset; infer_instance

/-- How far a clock is ahead of UTC. -/
structure Offset where
  /-- The microseconds. -/
  micros : Int
  /-- A clock may be so far ahead. -/
  isOffset : IsOffset micros
  deriving DecidableEq, Repr

/-- The text of an offset: the seconds and their fraction are left out where they are nothing. -/
def Offset.iso (o : Offset) : Text :=
  let n := o.micros.natAbs
  let seconds := n / 1000000
  let sign : Text := if o.micros < 0 then "-" else "+"
  let rest : Text :=
    if n % 60000000 = 0 then []
    else ":" ++ Text.twoDigits (seconds % 60) ++ Instant.fractionOf (n % 1000000)
  sign ++ Text.twoDigits (seconds / 3600) ++ ":" ++ Text.twoDigits (seconds / 60 % 60) ++ rest

/-! ## §2. Stamps. -/

/-- A stored instant. -/
structure Stamp where
  /-- What the clock showed. -/
  clock : Instant
  /-- How far it was ahead of UTC, if that is known. -/
  offset : Option Offset := none
  deriving DecidableEq, Repr

namespace Stamp

instance : Coe Instant Stamp := ⟨fun t => { clock := t }⟩

/-- The text in which a stamp is stored. -/
def iso (s : Stamp) : Text := s.clock.iso ++ (s.offset.map Offset.iso).getD []

/-- Microseconds since the start of 1970 in UTC. -/
def epochMicros (s : Stamp) : Int := s.clock.epochMicros - (s.offset.map Offset.micros).getD 0

/-- Whole seconds since the start of 1970 in UTC. -/
def epochSeconds (s : Stamp) : Int := s.epochMicros / 1000000

@[simp] theorem epochSeconds_coe (t : Instant) : (t : Stamp).epochSeconds = t.epochSeconds := by
  have hmicro : t.micro < 1000000 := t.isTime.2.2.2
  show (t.epochSeconds * 1000000 + (t.micro : Int) - 0) / 1000000 = t.epochSeconds
  omega

end Stamp

end EncodedQuery

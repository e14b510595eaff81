/-
  EncodedQuery.Instant.Range
  ──────────────────────────
  **RANGE LITERALS.**

  A range of instants travels through an encoded query as a call with two
  quoted arguments.  `rangeLiteral` writes the call, `readRange` takes it
  apart again: a text that is no such call gives `none`, a call whose
  arguments are no instants fails.
-/
import EncodedQuery.Instant.Pattern

namespace EncodedQuery.Instant

/-- The function that the literal calls. -/
def rangeFunction : Text := "javascript:gs.dateGenerate"

/-- The call with both ends as arguments. -/
def rangeLiteral (start stop : Instant) : Text :=
  rangeFunction ++ "('" ++ start.shown ++ "','" ++ stop.shown ++ "')"

/-- The text before the first single quote, and the text behind it. -/
def untilQuote? : Text → Option (Text × Text)
  | [] => none
  | c :: rest =>
      if c = '\'' then some ([], rest)
      else (untilQuote? rest).map (fun (a, b) => (c :: a, b))

/-- The two arguments of a range call that is the whole text. -/
def rangeArguments? (t : Text) : Option (Text × Text) := do
  let rest ← Text.dropHead? t (rangeFunction ++ "('")
  let (start, rest) ← untilQuote? rest
  let rest ← Text.dropHead? rest ",'"
  let (stop, rest) ← untilQuote? rest
  if rest = ")" then some (start, stop) else none

/-- The two instants of a range literal. -/
def readRange (t : Text) : Except Fault (Option (Instant × Instant)) :=
  match rangeArguments? (Text.strip t) with
  | none => .ok none
  | some (a, b) => do
      let start ← read [Pattern.backend] a
      let stop ← read [Pattern.backend] b
      return some (start, stop)

/-- The text begins like a range literal. -/
def looksLikeRange (t : Text) : Bool := Text.startsWith (Text.strip t) (rangeFunction ++ "(")

end EncodedQuery.Instant

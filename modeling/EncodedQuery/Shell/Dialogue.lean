/-
  EncodedQuery.Shell.Dialogue
  ───────────────────────────
  **BUILDING A FILTER LINE BY LINE.**

  The builder is shown, a line is read, its keys are applied, and so on until
  the builder is left or there are no more lines.  `line` is one turn, and `run`
  takes the lines from a list.
-/
import EncodedQuery.Builder.View

namespace EncodedQuery

/-- A builder that takes lines. -/
structure Dialogue where
  /-- The builder. -/
  builder : Builder
  /-- Answers to searches are waited for. -/
  waits : Bool

namespace Dialogue

/-- A builder that waits for answers as long as the settings allow: not at all when that is no
time. -/
def new (b : Builder) (settings : Settings) : Dialogue :=
  { builder := b, waits := decide (0.0 < settings.searchDebounce + settings.searchTimeout) }

/-- The answers to a search that is under way. -/
def awaitSearch (d : Dialogue) : Dialogue :=
  if d.waits && d.builder.reference.searching then { d with builder := d.builder.poll.2 } else d

/-- One line: blanks around it do not count. -/
def line (d : Dialogue) (now : Instant) (t : Text) : Except Fault Dialogue := do
  return awaitSearch { d with builder := ← d.builder.typeKeys now (Key.ofLine (Text.strip t)) }

/-- The views that are shown in turn, and the builder in the end. -/
def run (d : Dialogue) (now : Instant) (lines : List Text) : List View × Except Fault Builder :=
  if !d.builder.active then ([], .ok d.builder)
  else match d.builder.view now with
    | .error f => ([], .error f)
    | .ok v =>
        match lines with
        | [] => ([v], .ok d.builder)
        | t :: rest =>
            match d.line now t with
            | .error f => ([v], .error f)
            | .ok d' =>
                let (views, result) := d'.run now rest
                (v :: views, result)

end Dialogue

end EncodedQuery

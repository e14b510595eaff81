/-
  EncodedQuery.Shell.Options
  ──────────────────────────
  **OPTIONS ON THE COMMAND LINE.**

  An option is written `--name` or as one letter behind a hyphen.  Its value is
  the next argument, or stands behind an equals sign, or behind the letter;
  letters of options without a value can share a hyphen.  Behind a lone `--`
  nothing is an option.

  `Arguments.read` separates options from the rest; a command either allows
  options anywhere, or only in front of the first argument that is none.
-/
import EncodedQuery.Text.Basic

namespace EncodedQuery

/-- An option that a command knows. -/
structure OptionSpec where
  /-- What it is known by. -/
  key : Text
  /-- How it can be written. -/
  spellings : List Text
  /-- A value belongs to it. -/
  takesValue : Bool := true
  /-- The value is the path of a file. -/
  isPath : Bool := false
  deriving DecidableEq, Repr

/-- The arguments of a command, taken apart. -/
structure Arguments where
  /-- The options given, by their keys; an option without a value has the empty one. -/
  options : List (Text × Text) := []
  /-- All other arguments, in order. -/
  rest : List Text := []
  deriving DecidableEq, Repr

namespace Arguments

/-! ## §1. Looking up. -/

/-- The value of an option; of several the last one counts. -/
def value? (a : Arguments) (key : Text) : Option Text :=
  (a.options.reverse.find? (fun o => o.1 = key)).map (·.2)

/-- The option is given. -/
def has (a : Arguments) (key : Text) : Bool := (a.value? key).isSome

/-- The text can be the path of a file: no path holds the zero character. -/
def isPathText (t : Text) : Bool := t.all (fun c => c.toNat ≠ 0)

/-- Every option whose value is a path has a value that can be one; values that do not count are
not looked at. -/
def hasPaths (specs : List OptionSpec) (a : Arguments) : Bool :=
  specs.all (fun s => !s.isPath || (a.value? s.key).all isPathText)

/-! ## §2. One argument with options. -/

/-- What one argument gives: its options, and the arguments behind them. -/
abbrev Step := List (Text × Text) × List Text

/-- The value of an option from the next argument. -/
def nextValue (key : Text) : List Text → Option Step
  | [] => none
  | v :: rest => some ([(key, v)], rest)

/-- Letters behind a hyphen. -/
def letters (specs : List OptionSpec) : Text → List Text → Option Step
  | [], rest => some ([], rest)
  | c :: more, rest =>
      match specs.find? (fun s => Text.isOneOf ['-', c] s.spellings) with
      | none => none
      | some s =>
          if !s.takesValue then
            (letters specs more rest).map (fun (os, rest) => ((s.key, []) :: os, rest))
          else if more.isEmpty then nextValue s.key rest
          else some ([(s.key, more)], rest)

/-- An argument that begins with a hyphen; `none` when it is no option of the command, when
its value is missing, or when it has one that it does not take. -/
def step (specs : List OptionSpec) (arg : Text) (rest : List Text) : Option Step :=
  let name := arg.takeWhile (· ≠ .char '=')
  let attached := if .char '=' ∈ arg then some (arg.drop (name.length + 1)) else none
  match specs.find? (fun s => Text.startsWith name "--" && Text.isOneOf name s.spellings) with
  | some s =>
      match s.takesValue, attached with
      | true, some v => some ([(s.key, v)], rest)
      | true, none => nextValue s.key rest
      | false, some _ => none
      | false, none => some ([(s.key, [])], rest)
  | none => if Text.startsWith arg "--" then none else letters specs (arg.drop 1) rest

theorem nextValue_length {key : Text} {rest : List Text} {s : Step}
    (h : nextValue key rest = some s) : s.2.length ≤ rest.length := by
  cases rest with
  | nil => simp [nextValue] at h
  | cons v rest =>
    simp only [nextValue, Option.some.injEq] at h
    subst h
    simp

theorem letters_length {specs : List OptionSpec} {t : Text} {rest : List Text} {s : Step}
    (h : letters specs t rest = some s) : s.2.length ≤ rest.length := by
  induction t generalizing s with
  | nil =>
    simp only [letters, Option.some.injEq] at h
    subst h
    simp
  | cons c more ih =>
    rw [letters] at h
    split at h
    · simp at h
    · split at h
      · obtain ⟨⟨os, left⟩, hs', rfl⟩ := Option.map_eq_some_iff.1 h
        exact (ih hs' : left.length ≤ rest.length)
      · split at h
        · exact nextValue_length h
        · simp only [Option.some.injEq] at h
          subst h
          simp

/-- An argument uses up no less than itself. -/
theorem step_length {specs : List OptionSpec} {arg : Text} {rest : List Text} {s : Step}
    (h : step specs arg rest = some s) : s.2.length ≤ rest.length := by
  simp only [step] at h
  split at h
  · split at h
    · simp only [Option.some.injEq] at h
      subst h
      simp
    · exact nextValue_length h
    · simp at h
    · simp only [Option.some.injEq] at h
      subst h
      simp
  · split at h
    · simp at h
    · exact letters_length h

/-! ## §3. All arguments. -/

/-- The argument gives options: a hyphen with something behind it. -/
def isOption (arg : Text) : Bool := Text.startsWith arg "-" && decide (1 < arg.length)

/-- The arguments of a command with these options.  With `anywhere` options may follow other
arguments; without it the first argument that is none ends them. -/
def read (specs : List OptionSpec) (anywhere : Bool) (args : List Text) : Option Arguments :=
  match args with
  | [] => some {}
  | arg :: rest =>
      if arg = "--" then some { rest }
      else if isOption arg then
        match _h : step specs arg rest with
        | none => none
        | some (options, rest') =>
            (read specs anywhere rest').map (fun a => { a with options := options ++ a.options })
      else if anywhere then
        (read specs anywhere rest).map (fun a => { a with rest := arg :: a.rest })
      else some { rest := arg :: rest }
termination_by args.length
decreasing_by
  · have := step_length _h
    simp only [List.length_cons] at this ⊢
    omega
  · simp

end Arguments

end EncodedQuery

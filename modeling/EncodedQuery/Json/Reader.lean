/-
  EncodedQuery.Json.Reader
  ────────────────────────
  **READING JSON.**

  A text is cut into tokens, and the tokens drive a stack of open containers;
  both passes walk their input once.  Beyond the standard the names NaN,
  Infinity and -Infinity are numbers.  Of several members with one name the
  last gives the value and the first the place.

  Reading stops at the first thing that is wrong: a text that is malformed, a
  whole number with too many digits, or containers nested too deeply.
-/
import EncodedQuery.Json.Basic
import EncodedQuery.Number.Numeral

namespace EncodedQuery.Json

/-! ## §1. Tokens. -/

/-- The words of the language. -/
inductive Token where
  /-- An opening brace. -/
  | openObject
  /-- A closing brace. -/
  | closeObject
  /-- An opening bracket. -/
  | openList
  /-- A closing bracket. -/
  | closeList
  /-- A colon. -/
  | colon
  /-- A comma. -/
  | comma
  /-- A string or another scalar. -/
  | scalar (v : Json)
  /-- A whole number with too many digits to be read. -/
  | tooLong (digits : Nat)
  /-- No word of the language. -/
  | junk

/-- The value of four hexadecimal digits in front, and the rest. -/
def hexUnit? : Text → Option (Nat × Text)
  | a :: b :: c :: d :: rest => do
      let digit (x : CodePoint) : Option Nat :=
        if Text.isAsciiDigit x then some (x.toNat - 48)
        else if 'a' ≤ x ∧ x ≤ 'f' then some (x.toNat - 87)
        else if 'A' ≤ x ∧ x ≤ 'F' then some (x.toNat - 55)
        else none
      return ((((← digit a) * 16 + (← digit b)) * 16 + (← digit c)) * 16 + (← digit d), rest)
  | _ => none

/-- The character that an escape of one letter stands for. -/
def escapeLetter? : CodePoint → Option CodePoint
  | '"' => some '"'
  | '\\' => some '\\'
  | '/' => some '/'
  | 'b' => some '\x08'
  | 'f' => some '\x0c'
  | 'n' => some '\n'
  | 'r' => some '\r'
  | 't' => some '\t'
  | _ => none

/-- The code point of a numbered escape behind its letter, and the rest: two escapes that form a
surrogate pair give one character, half a pair stays what it is. -/
def escapeCode? (t : Text) : Option (CodePoint × Text) := do
  let (high, rest) ← hexUnit? t
  if 0xD800 ≤ high ∧ high < 0xDC00 then
    match rest with
    | '\\' :: 'u' :: more =>
        match hexUnit? more with
        | some (low, rest') =>
            if 0xDC00 ≤ low ∧ low < 0xE000 then
              some (CodePoint.ofNat (0x10000 + (high - 0xD800) * 0x400 + (low - 0xDC00)), rest')
            else some (CodePoint.ofNat high, rest)
        | none => some (CodePoint.ofNat high, rest)
    | _ => some (CodePoint.ofNat high, rest)
  else some (CodePoint.ofNat high, rest)

/-- The body of a string up to its closing mark, and the rest behind the mark; every step uses
up at least one character, so `fuel` is the length of the text. -/
def stringBody? : Nat → Text → Option (Text × Text)
  | 0, _ => none
  | fuel + 1, t =>
    match t with
    | [] => none
    | '"' :: rest => some ([], rest)
    | '\\' :: 'u' :: rest => do
        let (c, rest) ← escapeCode? rest
        let (body, rest) ← stringBody? fuel rest
        return (c :: body, rest)
    | '\\' :: e :: rest => do
        let c ← escapeLetter? e
        let (body, rest) ← stringBody? fuel rest
        return (c :: body, rest)
    | c :: rest =>
        if c.toNat < 32 ∨ c = '\\' then none
        else do
          let (body, rest) ← stringBody? fuel rest
          return (c :: body, rest)

/-- The run of digits `0` to `9` in front, and the rest. -/
def digitsOf (t : Text) : Text × Text :=
  (t.takeWhile Text.isAsciiDigit, t.dropWhile Text.isAsciiDigit)

/-- A number in front, and the rest: a point or an exponent makes it real. -/
def number? (t : Text) : Option (Token × Text) :=
  let (negative, body) := match t with
    | '-' :: rest => (true, rest)
    | _ => (false, t)
  let (whole, rest) := match body with
    | '0' :: rest => ((['0'] : Text), rest)
    | _ => digitsOf body
  if whole.isEmpty then none
  else
    let (fraction, rest) := match rest with
      | '.' :: more => if (digitsOf more).1.isEmpty then ([], rest) else digitsOf more
      | _ => ([], rest)
    let (exponent, rest) : Option Int × Text := match rest with
      | e :: more =>
          if e = 'e' ∨ e = 'E' then
            let (down, more) := Number.signed more
            if (digitsOf more).1.isEmpty then (none, rest)
            else
              let n : Int := Text.digitsValue (digitsOf more).1
              (some (if down then -n else n), (digitsOf more).2)
          else (none, rest)
      | [] => (none, rest)
    if fraction.isEmpty && exponent.isNone then
      if Number.longestWhole < whole.length then some (.tooLong whole.length, rest)
      else
        let n : Int := Text.digitsValue whole
        some (.scalar (int (if negative then -n else n)), rest)
    else
      let x := Number.toFloat (Text.digitsValue (whole ++ fraction))
        (exponent.getD 0 - fraction.length)
      some (.scalar (real (if negative then -x else x)), rest)

/-- The named values. -/
def namedValues : List (Text × Json) :=
  [("null", null), ("true", bool true), ("false", bool false), ("NaN", real (0.0 / 0.0)),
   ("Infinity", real (1.0 / 0.0)), ("-Infinity", real (-1.0 / 0.0))]

/-- A named value in front, and the rest. -/
def named? (t : Text) : Option (Token × Text) :=
  namedValues.findSome? (fun (name, v) =>
    (Text.dropHead? t name).map (fun rest => (.scalar v, rest)))

/-- The first token, and the rest. -/
def token? : Text → Option (Token × Text)
  | '\x7b' :: rest => some (.openObject, rest)
  | '\x7d' :: rest => some (.closeObject, rest)
  | '[' :: rest => some (.openList, rest)
  | ']' :: rest => some (.closeList, rest)
  | ':' :: rest => some (.colon, rest)
  | ',' :: rest => some (.comma, rest)
  | '"' :: rest =>
      (stringBody? (rest.length + 1) rest).map (fun (body, rest) => (.scalar (text body), rest))
  | t => (named? t).orElse (fun _ => number? t)

/-- The tokens, blanks between them skipped, up to the first junk; every step uses up at least
one character, so the length of the text bounds their number. -/
def tokens : Nat → Text → List Token
  | 0, t => if t.isEmpty then [] else [.junk]
  | fuel + 1, t =>
    match t with
    | [] => []
    | c :: rest =>
        if c = ' ' ∨ c = '\t' ∨ c = '\n' ∨ c = '\r' then tokens fuel rest
        else match token? (c :: rest) with
          | none => [.junk]
          | some (first, rest) => first :: tokens fuel rest

/-! ## §2. The stack of open containers. -/

/-- A container that is still open. -/
inductive Frame where
  /-- An array with the items so far, backwards. -/
  | list (items : List Json)
  /-- An object with the members so far and the name that waits for its value. -/
  | object (members : List (Text × Json)) (name : Text)

/-- What the next token has to be. -/
inductive Expected where
  /-- A value. -/
  | value
  /-- A value or the end of the array just opened. -/
  | firstItem
  /-- A member's name or the end of the object just opened. -/
  | firstName (members : List (Text × Json))
  /-- A member's name. -/
  | name (members : List (Text × Json))
  /-- The colon behind a name. -/
  | colon
  /-- A comma or the end of the innermost container, whose last value is `v`. -/
  | afterValue (v : Json)

/-- Why a text is not read. -/
inductive ReadFault where
  /-- It is no value. -/
  | malformed
  /-- A whole number in it has too many digits. -/
  | tooLong (digits : Nat)
  /-- Too many containers are open at one place. -/
  | tooDeep
  deriving DecidableEq, Repr

/-- The value that a whole token list writes, with at most `deepest` containers open at one
place. -/
def build (deepest : Nat) : List Token → List Frame → Expected → Except ReadFault Json
  | [], [], .afterValue v => .ok v
  | .scalar v :: rest, stack, .value => build deepest rest stack (.afterValue v)
  | .tooLong n :: _, _, .value => .error (.tooLong n)
  | .openList :: rest, stack, .value =>
      if stack.length < deepest then build deepest rest (.list [] :: stack) .firstItem
      else .error .tooDeep
  | .openObject :: rest, stack, .value =>
      if stack.length < deepest then build deepest rest stack (.firstName [])
      else .error .tooDeep
  | .closeList :: rest, .list _ :: stack, .firstItem =>
      build deepest rest stack (.afterValue (list []))
  | .scalar v :: rest, stack, .firstItem => build deepest rest stack (.afterValue v)
  | .tooLong n :: _, _, .firstItem => .error (.tooLong n)
  | .openList :: rest, stack, .firstItem =>
      if stack.length < deepest then build deepest rest (.list [] :: stack) .firstItem
      else .error .tooDeep
  | .openObject :: rest, stack, .firstItem =>
      if stack.length < deepest then build deepest rest stack (.firstName [])
      else .error .tooDeep
  | .closeObject :: rest, stack, .firstName members =>
      build deepest rest stack (.afterValue (object members))
  | .scalar (text t) :: rest, stack, .firstName members =>
      build deepest rest (.object members t :: stack) .colon
  | .scalar (text t) :: rest, stack, .name members =>
      build deepest rest (.object members t :: stack) .colon
  | .colon :: rest, stack, .colon => build deepest rest stack .value
  | .comma :: rest, .list items :: stack, .afterValue v =>
      build deepest rest (.list (v :: items) :: stack) .value
  | .closeList :: rest, .list items :: stack, .afterValue v =>
      build deepest rest stack (.afterValue (list (v :: items).reverse))
  | .comma :: rest, .object members t :: stack, .afterValue v =>
      build deepest rest stack (.name (put t v members))
  | .closeObject :: rest, .object members t :: stack, .afterValue v =>
      build deepest rest stack (.afterValue (object (put t v members)))
  | _, _, _ => .error .malformed

/-- The value that a text writes with at most `deepest` containers open at one place, or why it
writes none. -/
def read (t : Text) (deepest : Nat) : Except ReadFault Json :=
  build deepest (tokens (t.length + 1) t) [] .value

end EncodedQuery.Json

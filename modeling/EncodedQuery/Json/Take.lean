/-
  EncodedQuery.Json.Take
  ──────────────────────
  **TAKING DOMAIN VALUES OUT OF JSON.**

  Documents are read leniently: a number, text or truth value is accepted
  where it can be taken as what is needed, and the remaining cases fail with a
  cause of their own.
-/
import EncodedQuery.Fault
import EncodedQuery.Json.Reader
import EncodedQuery.Json.Shown

namespace EncodedQuery.Json

/-- The value that a document writes, with at most `deepest` containers open at one place. -/
def ofDocument (t : Text) (deepest : Nat) : Except Fault Json :=
  match read t deepest with
  | .ok v => .ok v
  | .error .malformed => .error .malformedJson
  | .error (.tooLong n) => .error (.badValue (Number.tooLongMessage n))
  | .error .tooDeep => .error .tooDeep

/-- What messages call the kind of a value. -/
def kind : Json → Text
  | null => "NoneType"
  | bool _ => "bool"
  | int _ => "int"
  | real _ => "float"
  | text _ => "str"
  | list _ => "list"
  | object _ => "dict"

/-- The members of an object; nothing else has any. -/
def members : Json → Except Fault (List (Text × Json))
  | object ms => .ok ms
  | v => .error (.noMember v.kind "get")

/-- The items met when walking through a value: those of an array, the names of an object,
the characters of a string. -/
def walked : Json → Except Fault (List Json)
  | list items => .ok items
  | object ms => .ok (ms.map (fun m => text m.1))
  | text t => .ok (t.map (fun c => text [c]))
  | v => .error (.notIterable v.kind)

/-- What is said of a text that is no whole number: it is quoted, and of a long quotation only the
beginning is shown. -/
def notWholeMessage (t : Text) : Text :=
  "invalid literal for int() with base 10: " ++ (Text.quoted t).take 200

/-- A value as a whole number: reals lose their fraction, texts are read. -/
def toInt : Json → Except Fault Int
  | bool b => .ok (if b then 1 else 0)
  | int n => .ok n
  | real x =>
      if x.isNaN then .error (.badValue "cannot convert float NaN to integer")
      else if x.isInf then .error .overflow
      else .ok (Number.truncated x)
  | text t =>
      match Number.readInt t with
      | .ok n => .ok n
      | .error .malformed => .error (.badValue (notWholeMessage t))
      | .error (.tooLong n) => .error (.badValue (Number.tooLongMessage n))
  | _ => .error .wrongKind

/-- A text as a real number. -/
def textToReal (t : Text) : Except Fault Float :=
  match Number.readReal? t with
  | some x => .ok x
  | none => .error (.badValue ("could not convert string to float: " ++ Text.quoted t))

/-- A value as a real number. -/
def toReal : Json → Except Fault Float
  | bool b => .ok (if b then 1.0 else 0.0)
  | int n => let x := Float.ofInt n; if x.isInf then .error .overflow else .ok x
  | real x => .ok x
  | text t => textToReal t
  | _ => .error .wrongKind

/-- A value that has to be a string. -/
def toText : Json → Except Fault Text
  | text t => .ok t
  | _ => .error .wrongKind

/-- The shown form of a member, or nothing where it is missing. -/
def shownMember (name : Text) (ms : List (Text × Json)) : Text :=
  ((lookup? name ms).map shown).getD []

/-- The shown form of a member, or nothing where it is missing or empty. -/
def shownUnlessEmpty (name : Text) (ms : List (Text × Json)) : Text :=
  ((nonempty? (lookup? name ms)).map shown).getD []

/-- A member is present and not empty. -/
def flag (name : Text) (ms : List (Text × Json)) : Bool :=
  (nonempty? (lookup? name ms)).isSome

end EncodedQuery.Json

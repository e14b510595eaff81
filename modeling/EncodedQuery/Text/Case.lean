/-
  EncodedQuery.Text.Case
  ──────────────────────
  **LETTER CASE.**

  `lower` and `upper` are the full Unicode mappings: some letters map to
  several code points, and a capital sigma that ends a word becomes the
  final form of the letter.
-/
import EncodedQuery.Text.CaseTable

namespace EncodedQuery.Text

/-! ## §1. Single code points. -/

/-- The lower case of a code point that maps to one code point. -/
def lowerChar (c : CodePoint) : CodePoint :=
  if c.toNat < 128 then (if 'A' ≤ c ∧ c ≤ 'Z' then CodePoint.ofNat (c.toNat + 32) else c)
  else CodePoint.ofNat (CaseRun.image lowerRuns c.toNat)

/-- The lower case of one code point outside any word. -/
def lowerOne (c : CodePoint) : Text :=
  if c = '\u0130' then ['i', '\u0307'] else [lowerChar c]

/-- The upper case of one code point. -/
def upperOne (c : CodePoint) : Text :=
  if c.toNat < 128 then [if 'a' ≤ c ∧ c ≤ 'z' then CodePoint.ofNat (c.toNat - 32) else c]
  else match upperExpansions.find? (fun e => e.1 == c.toNat) with
    | some e => e.2.map CodePoint.ofNat
    | none => [CodePoint.ofNat (CaseRun.image upperRuns c.toNat)]

/-- Two characters that are one letter in either case. -/
def sameLetter (a b : CodePoint) : Bool :=
  (lowerOne a).head? = (lowerOne b).head? || upperOne a = upperOne b

/-! ## §2. The sigma at the end of a word. -/

/-- A letter with case that is no mark. -/
def isCased (c : CodePoint) : Bool := inIntervals casedIntervals c.toNat

/-- A mark that a word's case looks through. -/
def isCaseIgnorable (c : CodePoint) : Bool := inIntervals caseIgnorableIntervals c.toNat

/-- The nearest code point that is no mark has case. -/
def meetsCased (t : Text) : Bool :=
  match t.dropWhile isCaseIgnorable with
  | [] => false
  | c :: _ => isCased c

/-! ## §3. Whole text. -/

/-- Lower case of the rest of a text whose earlier part, backwards, is `before`. -/
def lowerAfter : Text → Text → Text
  | _, [] => []
  | before, c :: rest =>
      (if c = 'Σ' then [if meetsCased before && !meetsCased rest then .char 'ς' else .char 'σ']
        else lowerOne c)
        ++ lowerAfter (c :: before) rest

/-- Lower case. -/
def lower (t : Text) : Text := lowerAfter [] t

/-- Upper case. -/
def upper (t : Text) : Text := t.flatMap upperOne

end EncodedQuery.Text

/-
  EncodedQuery.Fault
  ──────────────────
  **WHY AN OPERATION FAILS.**

  Every operation that can fail returns one of these causes; the wording of
  each is `Fault.message`.
-/
import EncodedQuery.Issue
import EncodedQuery.Text.Quoted

namespace EncodedQuery

/-- Why a record source gave no records. -/
inductive SourceFault where
  /-- The call failed on its way. -/
  | network
  /-- The table does not exist or shows no fields. -/
  | notFound
  /-- The table exists but may not be read. -/
  | denied
  deriving DecidableEq, Repr

/-- Why a file or directory cannot be used. -/
inductive FileFault where
  /-- Nothing is there. -/
  | missing
  /-- A directory is where a file is needed. -/
  | isDirectory
  /-- A file is where a directory is needed. -/
  | notDirectory
  /-- Something is there already. -/
  | taken
  /-- A name is too long. -/
  | nameTooLong
  /-- A path cannot hold this character. -/
  | badCharacter
  /-- A path holds half of a surrogate pair that stands for no byte. -/
  | unencodable
  /-- The system refuses for a reason of its own. -/
  | refused
  deriving DecidableEq, Repr

/-- Why an operation failed. -/
inductive Fault where
  /-- A text matches no accepted form of the literal `expected`. -/
  | badLiteral (text expected : Text)
  /-- An encoded query is malformed. -/
  | badQuery (message : Text)
  /-- A strict check found errors. -/
  | rejected (message : Text) (issues : List Issue)
  /-- A record source failed on a table. -/
  | source (cause : SourceFault) (table reason : Text)
  /-- A value of the right kind is out of its domain. -/
  | badValue (message : Text)
  /-- A value of the wrong kind. -/
  | wrongKind
  /-- A walk through a value of a kind that has no items. -/
  | notIterable (kind : Text)
  /-- A member was asked of a value of a kind that has no such member. -/
  | noMember (kind name : Text)
  /-- A required member is missing. -/
  | missingMember
  /-- A position outside a list. -/
  | noSuchPosition
  /-- A number or date left its range. -/
  | overflow
  /-- A record source broke down. -/
  | breakdown (message : Text)
  /-- A value that cannot stand in a table. -/
  | notShowable
  /-- A text is no JSON document. -/
  | malformedJson
  /-- A document is nested too deeply, or too many directories are missing above one. -/
  | tooDeep
  /-- A text is no settings document. -/
  | malformedSettings
  /-- The marks in a text for a screen do not fit together. -/
  | badMarks
  /-- Half of a surrogate pair cannot be encoded. -/
  | unencodable
  /-- A file or directory cannot be used. -/
  | file (cause : FileFault)
  deriving DecidableEq, Repr

namespace Fault

/-- The wording of a failure; the causes that carry no text of their own have none. -/
def message : Fault → Text
  | badLiteral text expected => "Invalid " ++ expected ++ ": " ++ Text.quoted text
  | badQuery m => m
  | rejected m _ => m
  | source _ table reason => table ++ ": " ++ reason
  | badValue m => m
  | breakdown m => m
  | notIterable kind => "'" ++ kind ++ "' object is not iterable"
  | noMember kind name => "'" ++ kind ++ "' object has no attribute " ++ Text.quoted name
  | _ => []

/-- The failure of a record source on a table, of whatever cause. -/
def isSource : Fault → Bool
  | source .. => true
  | _ => false

end Fault

end EncodedQuery

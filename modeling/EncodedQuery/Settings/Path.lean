/-
  EncodedQuery.Settings.Path
  ──────────────────────────
  **PATHS OF FILES.**

  Paths are compared as text, so they are first brought to one form: single
  slashes between their parts, no part that is a lone point, and a home
  directory for a tilde in front.
-/
import EncodedQuery.Fault

namespace EncodedQuery.Settings

/-- The slashes that an absolute path begins with: one, or exactly two. -/
def pathRoot (t : Text) : Text :=
  match t with
  | '/' :: '/' :: '/' :: _ => "/"
  | '/' :: '/' :: _ => "//"
  | '/' :: _ => "/"
  | _ => []

/-- The parts of a path. -/
def pathParts (t : Text) : List Text :=
  (Text.cut '/' t).filter (fun p => !p.isEmpty && p ≠ ".")

/-- The path with these parts behind a root. -/
def pathOf (root : Text) (parts : List Text) : Text :=
  if root.isEmpty && parts.isEmpty then "." else root ++ Text.join "/" parts

/-- The one form of a path. -/
def normalPath (t : Text) : Text := pathOf (pathRoot t) (pathParts t)

/-- The home directory of an account that every system has. -/
def accountHome? (account : Text) : Option Text := if account = "root" then some "/root" else none

/-- The path of these parts below a directory. -/
def below (directory : Text) (parts : List Text) : Text := Text.join "/" (directory :: parts)

/-- The one form of a path, with a home directory for a tilde in front: the user's own, or that of
the account whose name stands behind the tilde. -/
def expandPath (home t : Text) : Except Fault Text :=
  match pathRoot t, pathParts t with
  | [], ['~'] :: rest => .ok (below home rest)
  | [], ('~' :: account) :: rest =>
      match accountHome? account with
      | some directory => .ok (below directory rest)
      | none => .error (.breakdown "Could not determine home directory.")
  | root, parts => .ok (pathOf root parts)

end EncodedQuery.Settings

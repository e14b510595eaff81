/-
  EncodedQuery.Proofs.Shell.Disk
  ──────────────────────────────
  **WHAT A CHANGE OF A DISK LEAVES ALONE.**

  Nothing on a disk points elsewhere, so the place where a path leads, if it leads
  anywhere, depends on the path alone (`placeOf`).  A file that is written changes what
  is at that place, a directory that is made changes no file, and a path with something
  added to its last name leads to another place.

  Main results: `fileAt_of_write`, `fileAt_of_makeDirectory`, `placeOf_append_ne`.
-/
import EncodedQuery.Proofs.Fault
import EncodedQuery.Proofs.Text.Pieces
import EncodedQuery.Shell.Disk

namespace EncodedQuery

/-! ## §1. Trees. -/

namespace Node

variable {n m new : Node} {p q : Place}

/-- What is in a file. -/
def content? : Node → Option Text
  | file t => some t
  | directory _ => none

theorem at?_append (n : Node) (p q : Place) : n.at? (p ++ q) = (n.at? p).bind (·.at? q) := by
  induction p generalizing n with
  | nil => rfl
  | cons name rest ih =>
      rw [List.cons_append, at?, at?]
      cases child? name n.entries with
      | none => rfl
      | some m => exact ih m

/-- Below what has no entries there is nothing. -/
theorem at?_of_no_entries (h : n.entries = []) (hq : q ≠ []) : n.at? q = none := by
  cases q with
  | nil => exact absurd rfl hq
  | cons name rest =>
      rw [at?, h]
      rfl

/-- On the way to what was put there are directories. -/
theorem exists_at?_put (n : Node) (new : Node) {p q : Place} (h : q <+: p) (hne : q ≠ p) :
    ∃ es, (n.put p new).at? q = some (directory es) := by
  induction q generalizing n p with
  | nil =>
      cases p with
      | nil => exact absurd rfl hne
      | cons name rest => exact ⟨_, rfl⟩
  | cons name q ih =>
      obtain ⟨rest, rfl⟩ := h
      rw [List.cons_append, put, at?, entries_directory, child?_setChild]
      refine ih _ (List.prefix_append q rest) fun heq => hne ?_
      rw [List.cons_append, ← heq]

/-- **What was put is the only thing that changes**, when there was nothing below its place and
nothing but directories on the way. -/
theorem content?_at?_put (hway : ∀ q, q <+: p → q ≠ p → ∃ es, n.at? q = some (directory es))
    (hhere : ∀ m, n.at? p = some m → m.entries = []) (hnew : new.entries = []) (q : Place) :
    ((n.put p new).at? q).bind content?
      = if q = p then new.content? else (n.at? q).bind content? := by
  by_cases hq : q = p
  · rw [hq, at?_put, if_pos rfl]
    rfl
  rw [if_neg hq]
  by_cases habove : q <+: p
  · obtain ⟨es, hput⟩ := exists_at?_put n new habove hq
    obtain ⟨es', hold⟩ := hway q habove hq
    rw [hput, hold]
    rfl
  by_cases hbelow : p <+: q
  · obtain ⟨rest, rfl⟩ := hbelow
    have hrest : rest ≠ [] := fun h => hq (by rw [h, List.append_nil])
    rw [at?_append, at?_append, at?_put, Option.bind_some, at?_of_no_entries hnew hrest]
    cases hold : n.at? p with
    | none => rfl
    | some m => rw [Option.bind_some, at?_of_no_entries (hhere m hold) hrest]
  · rw [at?_put_of_apart n new habove hbelow]

end Node

/-! ## §2. The form of a path. -/

namespace Settings

theorem pathParts_cons_slash (t : Text) : pathParts (.char '/' :: t) = pathParts t := by
  rw [pathParts, Text.cut, if_pos rfl]
  rfl

/-- A part of a path is a name: it is not empty, it is no lone point, and it holds no slash. -/
theorem of_mem_pathParts {t part : Text} (h : part ∈ pathParts t) :
    (!part.isEmpty && decide (part ≠ ".")) = true ∧ .char '/' ∉ part := by
  obtain ⟨hmem, hname⟩ := List.mem_filter.mp h
  exact ⟨hname, Text.not_mem_of_mem_cut hmem⟩

/-- **The one form of a path has the same parts.** -/
theorem pathParts_normalPath (t : Text) : pathParts (normalPath t) = pathParts t := by
  have hroot : ∀ s, pathParts (pathRoot t ++ s) = pathParts s := by
    intro s
    unfold pathRoot
    split
    · exact pathParts_cons_slash s
    · exact (pathParts_cons_slash _).trans (pathParts_cons_slash s)
    · exact pathParts_cons_slash s
    · rfl
  unfold normalPath pathOf
  split
  next h =>
    rw [List.isEmpty_iff.mp (Bool.and_eq_true_iff.mp h).2]
    rfl
  · rw [hroot]
    by_cases hnone : pathParts t = []
    · rw [hnone]
      rfl
    · have hcut : Text.cut '/' (Text.join "/" (pathParts t)) = pathParts t :=
        Text.cut_join hnone fun p hp => (of_mem_pathParts hp).2
      rw [pathParts, hcut]
      exact List.filter_eq_self.mpr fun p hp => (of_mem_pathParts hp).1

end Settings

/-! ## §3. Where a path leads. -/

namespace Disk

/-- One name further. -/
def step (p : Place) (name : Text) : Place := if name = parentName then p.dropLast else p ++ [name]

/-- The place that a path leads to, if it leads anywhere. -/
def placeOf (path : Text) : Place := (Settings.pathParts path).foldl step []

/-- The names of the steps down. -/
def placeBelow (above : List (Text × Node)) : Place := (above.map (·.1)).reverse

/-- A way down from a root: the directories that were passed, and what is in the end. -/
inductive Way (root : Node) : List (Text × Node) → Option Node → Prop
  | start : Way root [] (some root)
  | down {above es : List (Text × Node)} {name : Text} {here : Option Node} :
      Way root above (some (.directory es)) → Node.child? name es = here →
      Way root ((name, .directory es) :: above) here

theorem placeBelow_cons (name : Text) (n : Node) (above : List (Text × Node)) :
    placeBelow ((name, n) :: above) = placeBelow above ++ [name] := by
  simp [placeBelow]

/-- A way down leads to its place, through directories. -/
theorem Way.at? {root : Node} {above : List (Text × Node)} {here : Option Node}
    (h : Way root above here) :
    root.at? (placeBelow above) = here ∧
      ∀ q, q <+: placeBelow above → q ≠ placeBelow above →
        ∃ es, root.at? q = some (.directory es) := by
  induction h with
  | start => exact ⟨rfl, fun q hq hne => absurd (List.prefix_nil.mp hq) hne⟩
  | @down above es name here _ hchild ih =>
      obtain ⟨hes, hway⟩ := ih
      rw [placeBelow_cons]
      constructor
      · rw [Node.at?_append, hes, Option.bind_some, Node.at?, Node.entries_directory, hchild]
        cases here <;> rfl
      · intro q hq hne
        have hq := (List.prefix_concat_iff.mp hq).resolve_left hne
        by_cases hlast : q = placeBelow above
        · exact ⟨es, by rw [hlast, hes]⟩
        · exact hway q hq hlast

/-- Names are followed down and up. -/
theorem way_of_walk {root : Node} {names : List Text} {p : Place} {n : Option Node} :
    ∀ {above : List (Text × Node)} {here : Option Node}, Way root above here →
      walk above here names = .ok (p, n) →
      ∃ above', Way root above' n ∧ p = placeBelow above' ∧
        p = names.foldl step (placeBelow above) := by
  induction names with
  | nil =>
      intro above here hway hwalk
      rw [walk] at hwalk
      cases hwalk
      exact ⟨above, hway, rfl, rfl⟩
  | cons name rest ih =>
      intro above here hway hwalk
      rw [List.foldl_cons, step]
      obtain _ | _ | es := here
      · cases hwalk
      · cases hwalk
      unfold walk at hwalk
      split at hwalk
      next hup =>
        rw [if_pos hup]
        -- two points lead up, and at the root nowhere
        cases hway with
        | start => exact ih .start hwalk
        | @down above es' name' here hway hchild =>
            have hnext := ih hway hwalk
            rwa [placeBelow_cons, List.dropLast_concat]
      next hdown =>
        rw [if_neg hdown]
        split at hwalk
        · cases hwalk
        · have hnext := ih (hway.down rfl) hwalk
          rwa [placeBelow_cons] at hnext

variable {d d' : Disk} {path : Text} {p : Place} {n : Option Node}

/-- **Where a path leads.** -/
theorem way_of_locate (h : d.locate path = .ok (p, n)) :
    p = placeOf path ∧ d.root.at? p = n ∧
      ∀ q, q <+: p → q ≠ p → ∃ es, d.root.at? q = some (.directory es) := by
  unfold locate at h
  split at h
  · cases h
  split at h
  · cases h
  split at h
  · cases h
  obtain ⟨above, hway, hbelow, hplace⟩ := way_of_walk .start h
  rw [hbelow] at hplace ⊢
  exact ⟨hplace, hway.at?⟩

/-- The one form of a path leads to the same place. -/
theorem placeOf_normalPath (path : Text) : placeOf (Settings.normalPath path) = placeOf path := by
  unfold placeOf
  rw [Settings.pathParts_normalPath]

/-- **A path with a text added to its last name leads to another place.** -/
theorem placeOf_append_ne {added : Text} (hslash : .char '/' ∉ added) (hlength : 2 < added.length)
    (path : Text) : placeOf (path ++ added) ≠ placeOf path := by
  obtain ⟨pieces, last, hpath, hadded⟩ := Text.exists_cut_append hslash path
  have hlong : ∀ name : Text, name.length ≤ 2 → last ++ added ≠ name := by
    rintro name hname rfl
    rw [List.length_append] at hname
    omega
  unfold placeOf Settings.pathParts
  generalize hkeeps : (fun p : Text => !p.isEmpty && decide (p ≠ ".")) = keeps
  -- the new last name is no point and no two points, so it is a step down
  have hkept : keeps (last ++ added) = true := by
    rw [← hkeeps, Bool.and_eq_true, Bool.not_eq_true', List.isEmpty_eq_false_iff,
      decide_eq_true_eq]
    exact ⟨hlong [] (Nat.zero_le 2), hlong "." (Nat.le_succ 1)⟩
  rw [hpath, hadded, List.filter_append, List.filter_append, List.foldl_append, List.foldl_append,
    List.filter_cons_of_pos hkept, List.filter_nil, List.foldl_cons, List.foldl_nil]
  generalize (pieces.filter keeps).foldl step [] = above
  rw [step, if_neg (hlong parentName (Nat.le_refl 2))]
  by_cases hlast : keeps last = true
  · rw [List.filter_cons_of_pos hlast, List.filter_nil, List.foldl_cons, List.foldl_nil, step]
    split
    · intro h
      have h := congrArg List.length h
      rw [List.length_append, List.length_singleton, List.length_dropLast] at h
      omega
    · intro h
      have h := congrArg List.length (List.cons.inj (List.append_cancel_left h)).1
      rw [List.length_append] at h
      omega
  · rw [List.filter_cons_of_neg hlast, List.filter_nil, List.foldl_nil]
    intro h
    have h := congrArg List.length h
    rw [List.length_append, List.length_singleton] at h
    omega

/-! ## §4. Files. -/

/-- The content of the file at a place. -/
def fileAt (d : Disk) (p : Place) : Option Text := (d.root.at? p).bind Node.content?

/-- A path that can be followed on some disk: a system can name it, and it and its names are not
too long. -/
def Fits (path : Text) : Prop :=
  (∀ c ∈ path, c.isNameable = true ∧ c.toNat ≠ 0) ∧ byteLength path ≤ longestPath ∧
    ∀ name ∈ Settings.pathParts path, byteLength name ≤ longestName

theorem walk_file_iff {names : List Text} (hnames : parentName ∉ names) {t : Text} :
    ∀ {above : List (Text × Node)} {here : Option Node},
      (∃ p, walk above here names = .ok (p, some (.file t))) ↔
        (∀ name ∈ names, byteLength name ≤ longestName) ∧
          here.bind (·.at? names) = some (.file t) := by
  induction names with
  | nil =>
      intro above here
      cases here <;> simp [walk, Node.at?]
  | cons name rest ih =>
      intro above here
      rw [List.mem_cons, not_or] at hnames
      obtain _ | content | es := here
      · simp [walk]
      · simp [walk, Node.at?, Node.entries, Node.child?]
      rw [Option.bind_some, Node.at?, Node.entries_directory, List.forall_mem_cons]
      unfold walk
      rw [if_neg (Ne.symm hnames.1)]
      by_cases hlong : longestName < byteLength name
      · rw [if_pos hlong]
        refine iff_of_false ?_ fun h => Nat.not_le.mpr hlong h.1.1
        rintro ⟨_, ⟨⟩⟩
      · rw [if_neg hlong, ih hnames.2, and_iff_right (Nat.not_lt.mp hlong)]

/-- A path without steps up leads to its names. -/
theorem placeOf_eq_pathParts (h : parentName ∉ Settings.pathParts path) :
    placeOf path = Settings.pathParts path := by
  have hdown : ∀ (names : List Text) (p : Place), parentName ∉ names →
      names.foldl step p = p ++ names := by
    intro names
    induction names with
    | nil => exact fun p _ => (List.append_nil p).symm
    | cons name rest ih =>
        intro p hnames
        rw [List.mem_cons, not_or] at hnames
        rw [List.foldl_cons, step, if_neg (Ne.symm hnames.1), ih _ hnames.2, List.append_assoc]
        rfl
  exact hdown _ [] h

/-- **What is read at a path without steps up** is the file at its place. -/
theorem read_eq_ok_iff (h : parentName ∉ Settings.pathParts path) {t : Text} :
    d.read path = .ok t ↔ Fits path ∧ d.fileAt (placeOf path) = some t := by
  have hread : d.read path = .ok t ↔ ∃ p, d.locate path = .ok (p, some (.file t)) := by
    unfold read
    rcases d.locate path with f | ⟨p, _ | content | es⟩
    · exact iff_of_false nofun nofun
    · exact iff_of_false nofun nofun
    · constructor
      · rintro ⟨⟩
        exact ⟨p, rfl⟩
      · rintro ⟨_, ⟨⟩⟩
        rfl
    · exact iff_of_false nofun nofun
  have hfile : d.fileAt (placeOf path) = some t ↔
      (some d.root).bind (·.at? (Settings.pathParts path)) = some (.file t) := by
    rw [placeOf_eq_pathParts h, fileAt, Option.bind_some]
    rcases d.root.at? (Settings.pathParts path) with _ | content | es <;> simp [Node.content?]
  rw [hread, hfile]
  unfold locate Fits
  by_cases hname : path.all CodePoint.isNameable = true
  case neg =>
    rw [if_pos (by simpa using hname)]
    exact iff_of_false nofun fun hfits =>
      hname (List.all_eq_true.mpr fun c hc => (hfits.1.1 c hc).1)
  rw [if_neg (by simpa using hname)]
  by_cases hnul : path.any (fun c => decide (c.toNat = 0)) = true
  · rw [if_pos hnul]
    obtain ⟨c, hc, hzero⟩ := List.any_eq_true.mp hnul
    exact iff_of_false nofun fun hfits => (hfits.1.1 c hc).2 (decide_eq_true_eq.mp hzero)
  rw [if_neg hnul]
  by_cases hlong : longestPath < byteLength path
  · rw [if_pos hlong]
    exact iff_of_false nofun fun hfits => Nat.not_le.mpr hlong hfits.1.2.1
  have hchars : ∀ c ∈ path, c.isNameable = true ∧ c.toNat ≠ 0 := fun c hc =>
    ⟨List.all_eq_true.mp hname c hc, fun hzero =>
      hnul (List.any_eq_true.mpr ⟨c, hc, decide_eq_true_eq.mpr hzero⟩)⟩
  rw [if_neg hlong, walk_file_iff h, and_assoc, and_assoc, and_iff_right hchars,
    and_iff_right (Nat.not_lt.mp hlong)]

/-- **Writing a file changes that file only.** -/
theorem fileAt_of_write {t : Text} (h : d.apply (.write path t) = .ok d') (q : Place) :
    d'.fileAt q = if q = placeOf path then some t else d.fileAt q := by
  obtain ⟨⟨p, n⟩, hlocate, h⟩ := exists_of_bind_eq_ok h
  obtain ⟨rfl, hn, hway⟩ := way_of_locate hlocate
  have hput : d' = ⟨d.root.put (placeOf path) (.file t)⟩ ∧ ∀ m, n = some m → m.entries = [] := by
    match n, h with
    | none, rfl => exact ⟨rfl, nofun⟩
    | some (.file _), rfl => exact ⟨rfl, fun m hm => by cases hm; rfl⟩
  obtain ⟨rfl, hentries⟩ := hput
  rw [← hn] at hentries
  exact Node.content?_at?_put hway hentries rfl q

/-- **Making a directory changes no file.** -/
theorem fileAt_of_makeDirectory (h : d.apply (.makeDirectory path) = .ok d') (q : Place) :
    d'.fileAt q = d.fileAt q := by
  obtain ⟨⟨p, n⟩, hlocate, h⟩ := exists_of_bind_eq_ok h
  obtain ⟨rfl, hn, hway⟩ := way_of_locate hlocate
  match n, h with
  | none, rfl =>
      have hput := Node.content?_at?_put hway (fun m hm => by rw [hn] at hm; cases hm)
        (Node.entries_directory []) q
      refine hput.trans ?_
      split
      next hq => rw [hq, fileAt, hn]; rfl
      next => rfl

/-- **What is moved is what was at the first path**, and then it is at the second. -/
theorem fileAt_of_move {source target : Text} (h : d.apply (.move source target) = .ok d') :
    d'.fileAt (placeOf target) = d.fileAt (placeOf source) := by
  obtain ⟨content, hread, h⟩ := exists_of_bind_eq_ok h
  obtain ⟨⟨p, n⟩, hsource, h⟩ := exists_of_bind_eq_ok h
  obtain ⟨⟨q, there⟩, htarget, h⟩ := exists_of_bind_eq_ok h
  have hcontent : d.fileAt (placeOf source) = some content := by
    obtain ⟨⟨p', n'⟩, hlocate, hnode⟩ := exists_of_bind_eq_ok hread
    obtain ⟨rfl, hat, -⟩ := way_of_locate hlocate
    match n', hnode with
    | some (.file t), rfl => rw [fileAt, hat]; rfl
  have hmoved : d' = ⟨(d.root.drop p).put (placeOf target) (.file content)⟩ := by
    obtain ⟨rfl, -, -⟩ := way_of_locate htarget
    dsimp only at h
    split at h
    · cases h
    · match there, h with
      | none, rfl | some (.file _), rfl => rfl
  rw [hcontent, hmoved, fileAt, Node.at?_put]
  rfl

end Disk

end EncodedQuery

/-
  EncodedQuery.Proofs.Shell.Store
  ───────────────────────────────
  **WHAT A CALL LEAVES OF THE STORE.**

  A call on the saved filters reads their file, and only when all of it has been read
  and something is found to change does it write: first beside the file.  The move to
  the place of the file is the last thing that it does.  So a question changes
  nothing, nor does a call that finds nothing to do, and a call that fails leaves the
  file alone, wherever it fails.  One that comes to its end has written all of the file.

  Main results: `Store.whole_of_write`, `StoreCall.leaves_file`.
-/
import EncodedQuery.Proofs.Json.Pieces
import EncodedQuery.Proofs.Shell.Disk
import EncodedQuery.Proofs.Shell.Run
import EncodedQuery.Screen.Lines
import EncodedQuery.Shell.Store

namespace EncodedQuery

open EncodedQuery.Action EncodedQuery.Disk

/-! ## §1. Steps. -/

namespace Action

/-- Writing a file elsewhere leaves a file alone. -/
theorem keeps_write {q : Place} {path : Text} (t : Text) (hq : q ≠ placeOf path) :
    Keeps (fun d => d.fileAt q) (change (.write path t)) :=
  keeps_changeDisk (fun _ _ hwrite => (fileAt_of_write hwrite q).trans (if_neg hq)) keeps_ofDisk

/-- Making a directory leaves every file alone. -/
theorem keeps_makeDirectory {q : Place} {fallback : Action Unit} (path : Text)
    (h : Keeps (fun d => d.fileAt q) fallback) :
    Keeps (fun d => d.fileAt q) (makeDirectory path fallback) := by
  refine keeps_changeDisk (fun _ _ hmake => fileAt_of_makeDirectory hmake q) fun r => ?_
  split
  · exact keeps_done ()
  · exact h
  · refine keeps_bind (keeps_atPath path) fun found => ?_
    split
    · exact keeps_done ()
    · exact keeps_fail _

theorem keeps_makeDirectories {q : Place} (root : Text) :
    ∀ (most : Nat) (names : List Text),
      Keeps (fun d => d.fileAt q) (makeDirectories root most names)
  | 0, _ => keeps_fail _
  | _ + 1, [] => keeps_makeDirectory _ (keeps_fail _)
  | most + 1, _ :: above =>
      keeps_makeDirectory _ (keeps_bind (keeps_makeDirectories root most above) fun _ =>
        keeps_makeDirectory _ (keeps_fail _))

/-- A move that fails moves nothing. -/
theorem keepsUnlessDone_move {γ : Type} (view : Disk → γ) (source target : Text) :
    KeepsUnlessDone view (change (.move source target)) := by
  intro desk hnone
  unfold change at hnone ⊢
  rw [performOn] at hnone ⊢
  cases hmove : desk.disk.apply (.move source target) with
  | error f => exact keeps_ofDisk _ desk
  | ok disk =>
      rw [hmove] at hnone
      exact absurd rfl (hnone ())

end Action

/-! ## §2. Calls that find nothing. -/

namespace StoreFile

variable {file : StoreFile} {now : Instant} {id : Text} {changed : Option StoreFile}

theorem changed_eq_none_of_change {f : SavedFilter → SavedFilter}
    (h : file.change now id f = .ok (none, changed)) : changed = none := by
  obtain ⟨all, -, h⟩ := exists_of_bind_eq_ok h
  dsimp only at h
  split at h
  · exact (Prod.mk.inj (Except.ok.inj h)).2.symm
  · cases h

theorem changed_eq_none_of_setFavorite {favorite : Bool}
    (h : file.setFavorite now id favorite = .ok (false, changed)) : changed = none := by
  obtain ⟨⟨found, changed'⟩, hchange, h⟩ := exists_of_bind_eq_ok h
  obtain ⟨hfound, rfl⟩ := Prod.mk.inj (Except.ok.inj h)
  cases found with
  | none => exact changed_eq_none_of_change hchange
  | some f => cases hfound

theorem changed_eq_none_of_delete (h : file.delete now id = .ok (false, changed)) :
    changed = none := by
  obtain ⟨all, -, h⟩ := exists_of_bind_eq_ok h
  split at h
  · cases h
  · exact (Prod.mk.inj (Except.ok.inj h)).2.symm

end StoreFile

/-! ## §3. Calls on the file. -/

namespace Store

variable {α : Type} (store : Store)

theorem keeps_read {γ : Type} (view : Disk → γ) : Keeps view store.read := by
  refine keeps_bind (keeps_atPath store.path) fun found => ?_
  split
  · exact keeps_bind (keeps_file store.path) fun _ => keeps_done _
  · exact keeps_done _

theorem quiet_read : Quiet store.read := by
  refine quiet_bind (quiet_atPath store.path) fun found => ?_
  split
  · exact quiet_bind (quiet_file store.path) fun _ => quiet_done _
  · exact quiet_done _

/-- **Writing that fails leaves the file alone.** -/
theorem keepsUnlessDone_write (file : StoreFile) :
    KeepsUnlessDone (fun d => d.fileAt (placeOf store.path)) (store.write file) := by
  have hbeside : placeOf store.path ≠ placeOf store.beside := by
    rw [← placeOf_normalPath]
    exact (placeOf_append_ne (by decide) (by decide) _).symm
  unfold write
  split
  next v =>
    refine keepsUnlessDone_bind (keeps_makeDirectories _ _ _) fun _ => ?_
    refine keepsUnlessDone_bind (keeps_write v.front hbeside) fun _ => ?_
    split
    · exact (keeps_fail _).unlessDone
    · exact keepsUnlessDone_move _ _ _
  next => exact (keeps_done ()).unlessDone

/-- **Writing that comes to its end has written the whole file.** -/
theorem whole_of_write {v : Json} {desk desk' : Desk}
    (h : (store.write (.document v)).Gives desk () desk') :
    desk'.disk.fileAt (placeOf store.path) = some (v.indented 0) := by
  obtain ⟨_, desk₁, -, h⟩ := exists_of_gives_bind h
  obtain ⟨_, desk₂, hwrite, h⟩ := exists_of_gives_bind h
  split at h
  · cases h.1
  next hnone =>
    -- nothing was left out of the file beside, and this is the one that is moved
    have hbeside := fileAt_of_write (apply_of_gives_change hwrite) (placeOf store.beside)
    rw [if_pos rfl, (Json.unwritable?_eq_none_iff.mp hnone).front_eq] at hbeside
    exact (fileAt_of_move (apply_of_gives_change h)).trans hbeside

/-- A call ends before anything is written, or it has read the file and found a change, and writes
it. -/
theorem performOn_call_cases (f : Instant → StoreFile → Except Fault (α × Option StoreFile))
    (desk : Desk) :
    (((store.call f).performOn desk).desk.disk = desk.disk ∧
        ∀ a, ((store.call f).performOn desk).ending = .result a →
          ∃ now file, f now file = .ok (a, none)) ∨
      ∃ now file a file' desk', f now file = .ok (a, some file') ∧ desk'.disk = desk.disk ∧
        (store.call f).performOn desk
          = (store.write file' >>= fun _ => done a).performOn desk' := by
  have hread := store.keeps_read id desk
  obtain ⟨file, desk', hgives⟩ | ⟨-, hnone, hdesk⟩ := performOn_bind_cases store.read
    (fun file => Action.now >>= fun now => ofExcept (f now file) >>= store.conclude) desk
  · have hcall : (store.call f).performOn desk
        = (ofExcept (f desk'.now file) >>= store.conclude).performOn desk' :=
      performOn_bind_of_quiet store.quiet_read hgives
    rw [id, hgives.2] at hread
    rw [hcall]
    rcases hf : f desk'.now file with fault | ⟨a, _ | file'⟩
    · exact .inl ⟨hread, nofun⟩
    · refine .inl ⟨hread, fun b hb => ⟨desk'.now, file, ?_⟩⟩
      cases hb
      exact hf
    · exact .inr ⟨_, _, a, file', desk', hf, hread, rfl⟩
  · exact .inl ⟨(congrArg Desk.disk hdesk).trans hread, fun a ha => absurd ha (hnone a)⟩

/-- **A call without a result leaves the file alone.** -/
theorem keepsUnlessDone_call (f : Instant → StoreFile → Except Fault (α × Option StoreFile)) :
    KeepsUnlessDone (fun d => d.fileAt (placeOf store.path)) (store.call f) := by
  intro desk hnone
  obtain ⟨hdisk, -⟩ | ⟨-, -, a, file', desk', -, hdesk', hrun⟩ := store.performOn_call_cases f desk
  · rw [hdisk]
  · -- behind a whole write there is a result, so the write itself has failed
    rw [hrun] at hnone ⊢
    rw [keepsUnlessDone_map (store.keepsUnlessDone_write file') a desk' hnone, hdesk']

theorem keepsUnlessDone_save (name table query description : Text) (conditions : List Json)
    (isFavorite : Bool) : KeepsUnlessDone (fun d => d.fileAt (placeOf store.path))
      (store.save name table query description conditions isFavorite) := by
  unfold save
  split
  · exact (keeps_fail _).unlessDone
  · exact store.keepsUnlessDone_call _

/-- **A call with nothing to write leaves everything alone.** -/
theorem disk_of_call {f : Instant → StoreFile → Except Fault (α × Option StoreFile)} {desk : Desk}
    {a : α} (ha : ((store.call f).performOn desk).ending = .result a)
    (hf : ∀ now file changed, f now file = .ok (a, changed) → changed = none) :
    ((store.call f).performOn desk).desk.disk = desk.disk := by
  obtain ⟨hdisk, -⟩ | ⟨now, file, a', file', desk', hchange, -, hrun⟩ :=
    store.performOn_call_cases f desk
  · exact hdisk
  · rw [hrun] at ha
    obtain ⟨-, desk'', -, hdone, -⟩ := exists_of_gives_bind ⟨ha, rfl⟩
    -- what is written goes with the result
    cases hdone
    cases hf now file _ hchange

/-- **A question leaves everything alone.** -/
theorem keeps_ask (f : Instant → StoreFile → Except Fault α) : Keeps id (store.ask f) := by
  intro desk
  obtain ⟨hdisk, -⟩ | ⟨now, file, a, file', -, hchange, -, -⟩ := store.performOn_call_cases
    (fun now file => (f now file).map (fun answer => (answer, none))) desk
  · exact hdisk
  · cases hf : f now file <;> rw [hf] at hchange <;> cases hchange

end Store

/-! ## §4. All calls. -/

/-- A call of the store. -/
inductive StoreCall where
  /-- Save a filter. -/
  | save (name table query description : Text) (conditions : List Json) (isFavorite : Bool)
  /-- Count a use. -/
  | markUsed (id : Text)
  /-- Make it a favourite, or an ordinary one. -/
  | setFavorite (id : Text) (favorite : Bool)
  /-- Delete it. -/
  | delete (id : Text)
  /-- Find it. -/
  | get (id : Text)
  /-- List the filters of a table, or all of them. -/
  | list (table : Option Text)
  /-- Search them for a text. -/
  | search (text : Text) (table : Option Text)

namespace StoreCall

/-- What a call answers. -/
abbrev Answer : StoreCall → Type
  | save .. => SavedFilter
  | markUsed _ | get _ => Option SavedFilter
  | setFavorite .. | delete _ => Bool
  | list _ | search .. => List SavedFilter

/-- Carries out a call. -/
def on (store : Store) : (c : StoreCall) → Action c.Answer
  | save name table query description conditions isFavorite =>
      store.save name table query description conditions isFavorite
  | markUsed id => store.markUsed id
  | setFavorite id favorite => store.setFavorite id favorite
  | delete id => store.delete id
  | get id => store.get id
  | list table => store.list table
  | search text table => store.search text table

/-- The call only asks. -/
def IsQuestion : StoreCall → Prop
  | get _ | list _ | search .. => True
  | _ => False

/-- The answer says that there is no such filter. -/
def IsNothing : (c : StoreCall) → c.Answer → Prop
  | markUsed _, a => a = none
  | setFavorite .., a => a = false
  | delete _, a => a = false
  | get _, a => a = none
  | _, _ => False

/-- A call that comes to no result leaves the file of the store as it was. -/
theorem keepsUnlessDone_on (c : StoreCall) (store : Store) :
    KeepsUnlessDone (fun d => d.fileAt (placeOf store.path)) (c.on store) := by
  cases c with
  | save name table query description conditions isFavorite =>
      exact store.keepsUnlessDone_save name table query description conditions isFavorite
  | _ => exact store.keepsUnlessDone_call _

/-- **WHAT A CALL LEAVES.**  Whatever is on the disk, a question changes nothing; a call that says
that there is no such filter changes nothing; and a call that comes to no result leaves the file
of the store as it was, wherever it fails.  The same is then read at a path without steps up; with
them, a path may lead nowhere until a directory is made. -/
theorem leaves_file (c : StoreCall) (store : Store) (desk : Desk) :
    (c.IsQuestion → ((c.on store).performOn desk).desk.disk = desk.disk) ∧
      (∀ a, ((c.on store).performOn desk).ending = .result a → c.IsNothing a →
        ((c.on store).performOn desk).desk.disk = desk.disk) ∧
      ((∀ a, ((c.on store).performOn desk).ending ≠ .result a) →
        ((c.on store).performOn desk).desk.disk.fileAt (placeOf store.path)
            = desk.disk.fileAt (placeOf store.path) ∧
          (parentName ∉ Settings.pathParts store.path → ∀ t,
            ((c.on store).performOn desk).desk.disk.read store.path = .ok t ↔
              desk.disk.read store.path = .ok t)) := by
  refine ⟨fun hquestion => ?_, fun a ha hnothing => ?_, fun hnone => ?_⟩
  · cases c with
    | get id => exact store.keeps_ask _ desk
    | list table => exact store.keeps_ask _ desk
    | search text table => exact store.keeps_ask _ desk
    | _ => exact hquestion.elim
  · cases c with
    | markUsed id =>
        cases hnothing
        exact store.disk_of_call ha fun now file _ => StoreFile.changed_eq_none_of_change
    | setFavorite id favorite =>
        cases hnothing
        exact store.disk_of_call ha fun now file _ => StoreFile.changed_eq_none_of_setFavorite
    | delete id =>
        cases hnothing
        exact store.disk_of_call ha fun now file _ => StoreFile.changed_eq_none_of_delete
    | get id => exact store.keeps_ask _ desk
    | _ => exact hnothing.elim
  · have hfile : ((c.on store).performOn desk).desk.disk.fileAt (placeOf store.path)
        = desk.disk.fileAt (placeOf store.path) := keepsUnlessDone_on c store desk hnone
    refine ⟨hfile, fun hpath t => ?_⟩
    rw [read_eq_ok_iff hpath, read_eq_ok_iff hpath]
    exact and_congr_right fun _ => by rw [hfile]

/-- A use is not counted when a directory lies where the file is written first. -/
theorem leaves_file_beside_directory :
    let store : Store := ⟨"store.json", 100⟩
    let desk : Desk :=
      { screen := .terminal
        disk := Disk.ofFiles [["store.json.tmp"]]
          [(["store.json"], "\x7b\"filters\":[\x7b\"id\":\"1\"\x7d]\x7d")]
        now := ⟨⟨2024, 3, 1, by decide⟩, 0, 0, 0, 0, by decide⟩ }
    let c := markUsed "1"
    let p := (c.on store).performOn desk
    p.ending.fault? = some (.file .isDirectory) ∧
      p.desk.disk.fileAt ["store.json"] = desk.disk.fileAt ["store.json"] := by
  intro store desk c p
  have hfault : p.ending.fault? = some (.file .isDirectory) := by decide +kernel
  refine ⟨hfault, ((leaves_file c store desk).2.2 fun a ha => ?_).1⟩
  rw [show p.ending = .result a from ha] at hfault
  cases hfault

end StoreCall

end EncodedQuery

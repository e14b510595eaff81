/-
  EncodedQuery.Proofs.Json.Document
  ─────────────────────────────────
  **A WRITTEN DOCUMENT IS READ BACK.**

  A value is written, cut into words and built again.  What comes back is the
  value itself when its whole numbers are not too long, when no two members of an
  object share a name, and when its containers are not nested too deeply.  Doubles
  are left aside: they are written in their shortest form.

  Main results: `Readable.lexes`, `Readable.build`, `Readable.ofDocument_indented`.
-/
import EncodedQuery.Json.Take
import EncodedQuery.Proofs.Json.Words

namespace EncodedQuery.Json

/-! ## §1. Values that are read back. -/

/-- The value can be read back where `room` more containers may be opened. -/
inductive Readable : Nat → Json → Prop
  /-- The absent value. -/
  | null {room} : Readable room null
  /-- A truth value. -/
  | bool {room b} : Readable room (bool b)
  /-- A whole number that is not too long. -/
  | int {room n} (h : Number.isWritable n = true) : Readable room (int n)
  /-- A string. -/
  | text {room t} : Readable room (text t)
  /-- An array of such values. -/
  | list {room items} (h : ∀ v ∈ items, Readable room v) : Readable (room + 1) (list items)
  /-- An object of such values under different names. -/
  | object {room members} (hnames : (members.map Prod.fst).Nodup)
      (h : ∀ m ∈ members, Readable room m.2) : Readable (room + 1) (object members)

mutual
/-- The words that a value is written with. -/
def words : Json → List Token
  | list items => .openList :: (wordsOfItems items ++ [.closeList])
  | object members => .openObject :: (wordsOfMembers members ++ [.closeObject])
  | null => [.scalar null]
  | bool b => [.scalar (bool b)]
  | int n => [.scalar (int n)]
  | real x => [.scalar (real x)]
  | text t => [.scalar (text t)]

/-- The words of the items of an array. -/
def wordsOfItems : List Json → List Token
  | [] => []
  | [v] => words v
  | v :: rest => words v ++ .comma :: wordsOfItems rest

/-- The words of the members of an object. -/
def wordsOfMembers : List (Text × Json) → List Token
  | [] => []
  | [(name, v)] => .scalar (text name) :: .colon :: words v
  | (name, v) :: rest => .scalar (text name) :: .colon :: (words v ++ .comma :: wordsOfMembers rest)
end

/-! ## §2. Cutting into words. -/

theorem lexes_lineBreak {rest : Text} {ws : List Token} (depth : Nat) (h : Lexes rest ws) :
    Lexes (lineBreak depth ++ rest) ws := by
  have hblanks : ∀ n, Lexes ((List.replicate n ' ' : Text) ++ rest) ws := by
    intro n
    induction n with
    | zero => exact h
    | succ n ih => exact lexes_gap rfl ih
  exact lexes_gap rfl (hblanks _)

/-- The value is written in the words that it has, wherever it stands. -/
def LexesAs (v : Json) : Prop :=
  ∀ (depth : Nat) {rest : Text} {ws : List Token}, EndsNumber rest → Lexes rest ws →
    Lexes (indented depth v ++ rest) (words v ++ ws)

theorem endsNumber_of_head {c : CodePoint} (hc : c = ',' ∨ c = '\n') (rest : Text) :
    EndsNumber (c :: rest) := by
  rintro _ ⟨⟩
  rcases hc with rfl | rfl <;> decide

theorem lexes_items {items : List Json} (hne : items ≠ []) (h : ∀ v ∈ items, LexesAs v)
    (depth : Nat) {rest : Text} {ws : List Token} (hrest : EndsNumber rest) (hws : Lexes rest ws) :
    Lexes (indentedItems depth items ++ rest) (wordsOfItems items ++ ws) := by
  induction items with
  | nil => exact absurd rfl hne
  | cons v items ih =>
      have hv : LexesAs v := h v List.mem_cons_self
      cases items with
      | nil =>
          simp only [indentedItems, wordsOfItems, List.append_assoc]
          exact lexes_lineBreak depth (hv depth hrest hws)
      | cons w items =>
          have hmore := ih (by simp) (fun u hu => h u (List.mem_cons_of_mem v hu))
          simp only [indentedItems, wordsOfItems, List.append_assoc, List.cons_append]
          refine lexes_lineBreak depth (hv depth (endsNumber_of_head (.inl rfl) _) ?_)
          exact lexes_mark rfl rfl hmore

theorem lexes_members {members : List (Text × Json)} (hne : members ≠ [])
    (h : ∀ m ∈ members, LexesAs m.2) (depth : Nat) {rest : Text} {ws : List Token}
    (hrest : EndsNumber rest) (hws : Lexes rest ws) :
    Lexes (indentedMembers depth members ++ rest) (wordsOfMembers members ++ ws) := by
  induction members with
  | nil => exact absurd rfl hne
  | cons m members ih =>
      obtain ⟨name, v⟩ := m
      have hv : LexesAs v := h (name, v) List.mem_cons_self
      -- a name, a colon and a blank stand in front of every value
      have hname : ∀ {rest : Text} {ws : List Token}, Lexes rest ws →
          Lexes (lineBreak depth ++ (writtenText name ++ (.char ':' :: .char ' ' :: rest)))
            (.scalar (text name) :: .colon :: ws) :=
        fun hws => lexes_lineBreak depth (lexes_text (lexes_mark rfl rfl (lexes_gap rfl hws)))
      cases members with
      | nil =>
          have hone := hname (hv depth hrest hws)
          simpa [indentedMembers, wordsOfMembers] using hone
      | cons w members =>
          have hmore := ih (by simp) (fun u hu => h u (List.mem_cons_of_mem _ hu))
          have hone := hname (hv depth (endsNumber_of_head (.inl rfl) _) (lexes_mark rfl rfl hmore))
          simpa [indentedMembers, wordsOfMembers] using hone

/-- **A value is written in the words that it has.** -/
theorem Readable.lexes {room : Nat} {v : Json} (h : Readable room v) : LexesAs v := by
  induction h with
  | null => exact fun _ _ _ _ hws => lexes_null hws
  | bool => exact fun _ _ _ _ hws => lexes_bool hws
  | int hn => exact fun _ _ _ hrest hws => lexes_int hn hrest hws
  | text => exact fun _ _ _ _ hws => lexes_text hws
  | @list _ items _ ih =>
      intro depth rest ws _ hws
      cases items with
      | nil => exact lexes_mark rfl rfl (lexes_mark rfl rfl hws)
      | cons v items =>
          have hclose : Lexes (lineBreak depth ++ (.char ']' :: rest)) (.closeList :: ws) :=
            lexes_lineBreak depth (lexes_mark rfl rfl hws)
          have hend : EndsNumber (lineBreak depth ++ (.char ']' :: rest)) :=
            endsNumber_of_head (.inr rfl) _
          have hitems := lexes_items (List.cons_ne_nil v items) ih (depth + 1) hend hclose
          have hopen := lexes_mark (c := '[') rfl rfl hitems
          simpa [indented, words] using hopen
  | @object _ members _ _ ih =>
      intro depth rest ws _ hws
      cases members with
      | nil => exact lexes_mark rfl rfl (lexes_mark rfl rfl hws)
      | cons m members =>
          have hclose : Lexes (lineBreak depth ++ (.char '\x7d' :: rest)) (.closeObject :: ws) :=
            lexes_lineBreak depth (lexes_mark rfl rfl hws)
          have hend : EndsNumber (lineBreak depth ++ (.char '\x7d' :: rest)) :=
            endsNumber_of_head (.inr rfl) _
          have hmembers := lexes_members (List.cons_ne_nil m members) ih (depth + 1) hend hclose
          have hopen := lexes_mark (c := '\x7b') rfl rfl hmembers
          simpa [indented, words] using hopen

/-! ## §3. Building the value. -/

/-- The words of the value build it, wherever a value is expected and `room` containers may still
be opened. -/
def BuildsAs (deepest room : Nat) (v : Json) : Prop :=
  ∀ (stack : List Frame) (rest : List Token), stack.length + room ≤ deepest →
    build deepest (words v ++ rest) stack .value = build deepest rest stack (.afterValue v)

/-- The first item of an array is a value like any other. -/
theorem build_firstItem (deepest : Nat) (v : Json) (stack : List Frame) (rest : List Token) :
    build deepest (words v ++ rest) stack .firstItem
      = build deepest (words v ++ rest) stack .value := by
  cases v <;> simp [words, build]

theorem build_items {deepest room : Nat} {items : List Json} (hne : items ≠ [])
    (h : ∀ v ∈ items, BuildsAs deepest room v) (acc : List Json) (stack : List Frame)
    (rest : List Token) (hroom : stack.length + 1 + room ≤ deepest) :
    build deepest (wordsOfItems items ++ .closeList :: rest) (.list acc :: stack) .value
      = build deepest rest stack (.afterValue (list (acc.reverse ++ items))) := by
  induction items generalizing acc with
  | nil => exact absurd rfl hne
  | cons v items ih =>
      have hv : BuildsAs deepest room v := h v List.mem_cons_self
      cases items with
      | nil =>
          rw [wordsOfItems, hv (.list acc :: stack) _ hroom]
          simp [build]
      | cons w items =>
          have hmore := ih (by simp) (fun u hu => h u (List.mem_cons_of_mem v hu)) (v :: acc)
          rw [wordsOfItems, List.append_assoc, hv (.list acc :: stack) _ hroom, List.cons_append,
            build, hmore]
          · simp
          · exact List.cons_ne_nil w items

/-- The words of the items begin with those of the first. -/
theorem exists_wordsOfItems_cons (v : Json) (items : List Json) :
    ∃ more, wordsOfItems (v :: items) = words v ++ more := by
  cases items with
  | nil => exact ⟨[], by rw [wordsOfItems, List.append_nil]⟩
  | cons w items => exact ⟨_, rfl⟩

/-- A member with a new name goes to the end. -/
theorem put_of_not_mem {name : Text} {v : Json} {members : List (Text × Json)}
    (h : name ∉ members.map Prod.fst) : put name v members = members ++ [(name, v)] := by
  induction members with
  | nil => rfl
  | cons m members ih =>
      rw [List.map_cons, List.mem_cons, not_or] at h
      rw [put, if_neg (fun heq => h.1 heq.symm), ih h.2]
      rfl

theorem build_members {deepest room : Nat} {members : List (Text × Json)} (hne : members ≠ [])
    (h : ∀ m ∈ members, BuildsAs deepest room m.2) (done : List (Text × Json))
    (hnames : ((done ++ members).map Prod.fst).Nodup) (stack : List Frame)
    (rest : List Token) (hroom : stack.length + 1 + room ≤ deepest) :
    build deepest (wordsOfMembers members ++ .closeObject :: rest) stack (.name done)
      = build deepest rest stack (.afterValue (object (done ++ members))) := by
  induction members generalizing done with
  | nil => exact absurd rfl hne
  | cons m members ih =>
      obtain ⟨name, v⟩ := m
      have hv : BuildsAs deepest room v := h (name, v) List.mem_cons_self
      have hnew : name ∉ done.map Prod.fst := by
        rw [List.map_append, List.map_cons, List.nodup_append] at hnames
        exact fun hmem => hnames.2.2 name hmem name List.mem_cons_self rfl
      cases members with
      | nil =>
          simp only [wordsOfMembers, List.cons_append, build]
          rw [hv (.object done name :: stack) _ hroom]
          simp only [build, put_of_not_mem hnew]
      | cons w members =>
          simp only [wordsOfMembers, List.cons_append, build, List.append_assoc]
          rw [hv (.object done name :: stack) _ hroom]
          have hmore := ih (by simp) (fun u hu => h u (List.mem_cons_of_mem _ hu))
            (done ++ [(name, v)]) (by simpa using hnames)
          simp only [build, put_of_not_mem hnew]
          rw [hmore]
          simp

/-- The first member of an object is a member like any other. -/
theorem build_firstName (deepest : Nat) (m : Text × Json) (members : List (Text × Json))
    (done : List (Text × Json)) (stack : List Frame) (rest : List Token) :
    build deepest (wordsOfMembers (m :: members) ++ rest) stack (.firstName done)
      = build deepest (wordsOfMembers (m :: members) ++ rest) stack (.name done) := by
  cases members <;> simp [wordsOfMembers, build]

/-- **The words of a value build it.** -/
theorem Readable.build {deepest room : Nat} {v : Json} (h : Readable room v) :
    BuildsAs deepest room v := by
  induction h with
  | null | bool | int | text => exact fun _ _ _ => by simp [words, Json.build]
  | @list room items _ ih =>
      intro stack rest hroom
      have hopen : stack.length < deepest := by omega
      rw [words, List.cons_append, List.append_assoc, Json.build, if_pos hopen]
      cases items with
      | nil => simp [wordsOfItems, Json.build]
      | cons v items =>
          obtain ⟨more, hmore⟩ := exists_wordsOfItems_cons v items
          have hitems := build_items (List.cons_ne_nil v items) ih [] stack rest (by omega)
          rw [hmore, List.append_assoc] at hitems
          rw [hmore, List.append_assoc, build_firstItem]
          exact hitems
  | @object room members hnames _ ih =>
      intro stack rest hroom
      have hopen : stack.length < deepest := by omega
      rw [words, List.cons_append, List.append_assoc, Json.build, if_pos hopen]
      cases members with
      | nil => simp [wordsOfMembers, Json.build]
      | cons m members =>
          rw [build_firstName]
          exact build_members (List.cons_ne_nil m members) ih [] hnames stack rest (by omega)

/-- **A written value is read back.** -/
theorem Readable.ofDocument_indented {deepest : Nat} {v : Json} (h : Readable deepest v) :
    ofDocument (v.indented 0) deepest = .ok v := by
  have hlex : Lexes (v.indented 0) (words v) := by
    have hall := h.lexes 0 (show EndsNumber [] by simp [EndsNumber]) lexes_nil
    rwa [List.append_nil, List.append_nil] at hall
  have hbuild : Json.build deepest (words v) [] .value = .ok v := by
    have hall := h.build [] [] (show ([] : List Frame).length + deepest ≤ deepest by simp)
    rw [List.append_nil] at hall
    rw [hall]
    rfl
  have hread : read (v.indented 0) deepest = .ok v := by
    rw [read, hlex _ (Nat.le_succ _), hbuild]
  rw [ofDocument, hread]

end EncodedQuery.Json

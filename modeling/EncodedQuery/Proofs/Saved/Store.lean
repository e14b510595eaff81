/-
  EncodedQuery.Proofs.Saved.Store
  ───────────────────────────────
  **SAVED FILTERS ARE READ BACK.**

  The description of a filter keeps all of it, the microseconds of its instants
  included, so the file that a list of filters was written to gives the same
  list, whenever it is read.

  Main results: `SavedFilter.ofJson_toJson`, `StoreFile.filters_ofFilters`.
-/
import EncodedQuery.Proofs.Condition.Described
import EncodedQuery.Proofs.Instant.Stored
import EncodedQuery.Proofs.Json.Document
import EncodedQuery.Proofs.Json.Pieces
import EncodedQuery.Proofs.Number.Whole
import EncodedQuery.Proofs.Text.Encodable
import EncodedQuery.Saved.Store

namespace EncodedQuery

/-! ## §1. Descriptions. -/

/-- The description of a field with a name is read back from a file. -/
theorem Field.readable_toJson {f : Field} (hname : f.oddName = none)
    (hlength : Number.isWritable f.maxLength = true) (room : Nat) :
    Json.Readable (room + 3) f.toJson := by
  have hchoices : Json.Readable (room + 2) (.list (f.choices.map (fun c =>
      .object [("value", .text c.value), ("label", .text c.label)]))) := by
    refine .list fun v hv => ?_
    obtain ⟨c, _, rfl⟩ := List.mem_map.mp hv
    refine .object (by simp only [List.map_cons, List.map_nil]; decide) ?_
    simp only [List.forall_mem_cons, List.not_mem_nil, false_implies, implies_true, and_true]
    exact ⟨.text, .text⟩
  have hnameValue : f.nameValue = .text f.name := by
    rw [Field.nameValue, hname]
    rfl
  have hlabelValue : f.labelValue = .text f.label := by
    rw [Field.labelValue, hname]
    rfl
  rw [Field.toJson, hnameValue, hlabelValue]
  refine .object (by simp only [List.map_cons, List.map_nil]; decide) ?_
  simp only [List.forall_mem_cons, List.not_mem_nil, false_implies, implies_true, and_true]
  exact ⟨.text, .text, .text, .int hlength, .bool, .bool, .text, hchoices, .text, .text⟩

/-- So is that of a condition on it. -/
theorem Condition.readable_toJson {c : Condition} (hname : c.field.oddName = none)
    (hlength : Number.isWritable c.field.maxLength = true) (room : Nat) :
    Json.Readable (room + 4) c.toJson := by
  have hend : ∀ end? : Option Instant, Json.Readable (room + 3)
      ((end?.map (fun t => Json.text t.shown)).getD .null) := by
    rintro (_ | _)
    · exact .null
    · exact .text
  have hlink : Json.Readable (room + 3)
      ((c.link.map (fun l => Json.text l.name)).getD .null) := by
    cases c.link with
    | none => exact .null
    | some l => exact .text
  refine .object (by simp only [List.map_cons, List.map_nil]; decide) ?_
  simp only [List.forall_mem_cons, List.not_mem_nil, false_implies, implies_true, and_true]
  exact ⟨Field.readable_toJson hname hlength room, .text, .text, hend _, hend _, hlink⟩

/-- What a field with a name needs for its description to be written. -/
structure Field.IsWritable (f : Field) : Prop where
  /-- The name. -/
  name : f.name.isEncodable = true
  /-- The label. -/
  label : f.label.isEncodable = true
  /-- The table that it points to. -/
  reference : f.reference.isEncodable = true
  /-- The values on offer, with their labels. -/
  choices : ∀ c ∈ f.choices, c.value.isEncodable = true ∧ c.label.isEncodable = true
  /-- The value of new records. -/
  defaultValue : f.defaultValue.isEncodable = true
  /-- What it is for. -/
  description : f.description.isEncodable = true
  /-- The greatest length of a value. -/
  maxLength : Number.isWritable f.maxLength = true

theorem Field.writable_toJson_iff {f : Field} (hname : f.oddName = none) :
    f.toJson.Writable ↔ f.IsWritable := by
  have htype : f.type.name.isEncodable = true := by
    cases f.type <;> exact Text.isEncodable_string _
  rw [toJson, Json.writable_object_iff]
  simp only [List.forall_mem_cons, List.not_mem_nil, false_implies, implies_true, and_true,
    Text.isEncodable_string, true_and, nameValue, labelValue, hname, Option.map_none,
    Option.getD_none, Json.writable_text_iff, htype, Json.writable_int_iff, Json.Writable.bool,
    Json.writable_list_iff, List.forall_mem_map, Json.writable_object_iff]
  constructor
  · rintro ⟨hname, hlabel, hlength, hreference, hchoices, hdefault, hdescription⟩
    exact ⟨hname, hlabel, hreference, hchoices, hdefault, hdescription, hlength⟩
  · rintro ⟨hname, hlabel, hreference, hchoices, hdefault, hdescription, hlength⟩
    exact ⟨hname, hlabel, hlength, hreference, hchoices, hdefault, hdescription⟩

/-- What a condition needs for its description to be written. -/
structure Condition.IsWritable (c : Condition) : Prop where
  /-- The field. -/
  field : c.field.IsWritable
  /-- The operator. -/
  operator : c.operator.isEncodable = true
  /-- The value. -/
  value : c.value.isEncodable = true

theorem Condition.writable_toJson_iff {c : Condition} (hname : c.field.oddName = none) :
    c.toJson.Writable ↔ c.IsWritable := by
  have hend : ∀ end? : Option Instant,
      ((end?.map (fun t => Json.text t.shown)).getD .null).Writable := by
    rintro (_ | t)
    · exact .null
    · exact .text t.isEncodable_shown
  have hlink : ((c.link.map (fun l => Json.text l.name)).getD .null).Writable := by
    rcases c.link with _ | l
    · exact .null
    · cases l <;> exact .text (Text.isEncodable_string _)
  rw [toJson, Json.writable_object_iff]
  simp only [List.forall_mem_cons, List.not_mem_nil, false_implies, implies_true, and_true,
    Text.isEncodable_string, true_and, hend, hlink, Json.writable_text_iff,
    Field.writable_toJson_iff hname]
  constructor
  · rintro ⟨hfield, hoperator, hvalue⟩
    exact ⟨hfield, hoperator, hvalue⟩
  · rintro ⟨hfield, hoperator, hvalue⟩
    exact ⟨hfield, hoperator, hvalue⟩

/-- Such a condition is of characters in a query, too. -/
theorem Condition.IsWritable.encode {c : Condition} (h : c.IsWritable) :
    c.encode.isEncodable = true := by
  have hliteral : c.literal.isEncodable = true := by
    unfold literal
    split
    · rfl
    split
    · split
      · exact Instant.isEncodable_rangeLiteral _ _
      · rfl
    · exact h.value
  rw [Condition.encode, Text.isEncodable_append, Text.isEncodable_append, h.field.name, h.operator,
    hliteral]
  rfl

/-- So is the query of such conditions. -/
theorem Chain.isEncodable_encodeList : ∀ {cs : List Condition}, (∀ c ∈ cs, c.IsWritable) →
    (encodeList cs).isEncodable = true
  | [], _ => rfl
  | [c], h => (h c (List.mem_singleton_self c)).encode
  | c :: c' :: rest, h => by
      obtain ⟨hc, hrest⟩ := List.forall_mem_cons.mp h
      have htoken : c.separator.token.isEncodable = true := by
        cases c.separator <;> exact Text.isEncodable_string _
      rw [encodeList_cons_cons, Text.isEncodable_append, Text.isEncodable_append, hc.encode, htoken,
        isEncodable_encodeList hrest]
      rfl

/-! ## §2. One filter. -/

namespace SavedFilter

variable {ms : List (Text × Json)} {member : Text}

/-- A member that is the text of a stamp is read as this stamp. -/
theorem stampMember_text {s : Stamp} (h : Json.lookup? member ms = some (.text s.iso)) :
    stampMember member ms = .ok (some s) := by
  have hpresent : Json.nonempty? (Json.lookup? member ms) = some (.text s.iso) := by
    simp [h, Json.nonempty?, Json.isEmptyValue, s.iso_ne_nil]
  have htext : (Json.text s.iso).toText = .ok s.iso := rfl
  simp only [stampMember, hpresent, htext, Stamp.read_iso, bind, Except.bind, pure, Except.pure]

/-- A stamp that there may be is described by its text, or by nothing. -/
theorem stampMember_option {s? : Option Stamp}
    (h : Json.lookup? member ms = some ((s?.map (fun s => Json.text s.iso)).getD .null)) :
    stampMember member ms = .ok s? := by
  cases s? with
  | some s => exact stampMember_text h
  | none =>
      unfold stampMember
      rw [h]
      rfl

/-- The members of a description are found under their names. -/
theorem ofJson_object {now : Instant} {f : SavedFilter}
    (hid : Json.lookup? "id" ms = some (.text f.id))
    (hname : Json.lookup? "name" ms = some f.name)
    (htable : Json.lookup? "table" ms = some f.table)
    (hquery : Json.lookup? "query" ms = some f.query)
    (hdescription : Json.lookup? "description" ms = some f.description)
    (hconditions : Json.lookup? "conditions" ms = some (.list f.conditions))
    (hcreated : stampMember "created_at" ms = .ok (some f.createdAt))
    (hused : stampMember "last_used" ms = .ok f.lastUsed)
    (hcount : Json.lookup? "use_count" ms = some (.int f.useCount))
    (hfavorite : Json.flag "is_favorite" ms = f.isFavorite) : ofJson now (.object ms) = .ok f := by
  have hmembers : (Json.object ms).members = .ok ms := rfl
  have hempty : Json.nonempty? (some (.list [])) = none := rfl
  have hpresent : ∀ v vs, Json.nonempty? (some (.list (v :: vs))) = some (.list (v :: vs)) :=
    fun _ _ => rfl
  obtain ⟨id, name, table, query, description, conditions, createdAt, lastUsed, useCount,
    isFavorite⟩ := f
  -- an empty list of conditions counts as none, and none are an empty list
  cases conditions <;>
    simp only [ofJson, hmembers, hid, hname, htable, hquery, hdescription, hconditions, hempty,
      hpresent, hcreated, hused, hcount, hfavorite, bind, Except.bind, pure, Except.pure,
      Json.shown, Json.walked, Json.toInt, Option.getD_some]

/-- **A filter is read back from its description**, at any later time. -/
theorem ofJson_toJson (now : Instant) (f : SavedFilter) : ofJson now f.toJson = .ok f :=
  ofJson_object rfl rfl rfl rfl rfl rfl (stampMember_text rfl) (stampMember_option rfl) rfl
    (Json.flag_bool rfl)

/-- What a filter needs for its description to be read back from a file. -/
structure IsReadable (f : SavedFilter) (room : Nat) : Prop where
  /-- The name. -/
  name : Json.Readable (room + 1) f.name
  /-- The table. -/
  table : Json.Readable (room + 1) f.table
  /-- The query. -/
  query : Json.Readable (room + 1) f.query
  /-- What it is for. -/
  description : Json.Readable (room + 1) f.description
  /-- The conditions. -/
  conditions : ∀ v ∈ f.conditions, Json.Readable room v
  /-- How often it was used. -/
  useCount : Number.isWritable f.useCount = true

theorem IsReadable.toJson {f : SavedFilter} {room : Nat} (h : f.IsReadable room) :
    Json.Readable (room + 2) f.toJson := by
  have hused : Json.Readable (room + 1)
      ((f.lastUsed.map (fun t => Json.text t.iso)).getD .null) := by
    cases f.lastUsed with
    | none => exact .null
    | some t => exact .text
  refine .object (by simp only [List.map_cons, List.map_nil]; decide) ?_
  simp only [List.forall_mem_cons, List.not_mem_nil, false_implies, implies_true, and_true]
  exact ⟨.text, h.name, h.description, h.table, h.query, .list h.conditions, .text, hused,
    .int h.useCount, .bool⟩

/-- What a filter needs for its description to be written. -/
structure IsWritable (f : SavedFilter) : Prop where
  /-- What it is known by. -/
  id : f.id.isEncodable = true
  /-- The name. -/
  name : f.name.Writable
  /-- The table. -/
  table : f.table.Writable
  /-- The query. -/
  query : f.query.Writable
  /-- What it is for. -/
  description : f.description.Writable
  /-- The conditions. -/
  conditions : ∀ v ∈ f.conditions, v.Writable
  /-- How often it was used. -/
  useCount : Number.isWritable f.useCount = true

/-- **A filter is written** exactly if all that it holds of others is. -/
theorem writable_toJson_iff {f : SavedFilter} : f.toJson.Writable ↔ f.IsWritable := by
  have hcreated : (Json.text f.createdAt.iso).Writable := .text f.createdAt.isEncodable_iso
  have hused : ((f.lastUsed.map (fun s => Json.text s.iso)).getD .null).Writable := by
    cases f.lastUsed with
    | none => exact .null
    | some s => exact .text s.isEncodable_iso
  rw [toJson, Json.writable_object_iff]
  simp only [List.forall_mem_cons, List.not_mem_nil, false_implies, implies_true, and_true,
    Text.isEncodable_string, true_and, hcreated, hused, Json.writable_text_iff,
    Json.writable_list_iff, Json.writable_int_iff, Json.Writable.bool]
  constructor
  · rintro ⟨hid, hname, hdescription, htable, hquery, hconditions, hcount⟩
    exact ⟨hid, hname, htable, hquery, hdescription, hconditions, hcount⟩
  · rintro ⟨hid, hname, htable, hquery, hdescription, hconditions, hcount⟩
    exact ⟨hid, hname, hdescription, htable, hquery, hconditions, hcount⟩

end SavedFilter

/-! ## §3. The file. -/

namespace StoreFile

variable {now : Instant} {filters : List SavedFilter}

/-- **What is written to the file is what it holds.** -/
theorem filters_ofFilters (now now' : Instant) (filters : List SavedFilter) :
    (ofFilters now filters).filters now' = .ok filters :=
  mapM_map_eq_ok fun f _ => SavedFilter.ofJson_toJson now' f

/-- **The text of the file is read back**, as long as nothing in it is nested too deeply. -/
theorem ofContent_ofFilters (now : Instant) (room : Nat)
    (hf : ∀ f ∈ filters, Json.Readable (room + 2) f.toJson) :
    ofContent (ofFilters now filters).content? (room + 4) = ofFilters now filters := by
  have hlist : Json.Readable (room + 3) (.list (filters.map SavedFilter.toJson)) := by
    refine .list fun v hv => ?_
    obtain ⟨f, hmem, rfl⟩ := List.mem_map.mp hv
    exact hf f hmem
  have hone : Number.isWritable 1 = true := Number.isWritable_of_lt (by decide)
  have hdocument : Json.Readable (room + 4) (describe now filters) := by
    refine .object (by simp only [List.map_cons, List.map_nil]; decide) ?_
    simp only [List.forall_mem_cons, List.not_mem_nil, false_implies, implies_true, and_true]
    exact ⟨.int hone, .text, hlist⟩
  simp only [ofFilters, content?, ofContent, hdocument.ofDocument_indented]

theorem writable_describe_iff (now : Instant) :
    (describe now filters).Writable ↔ ∀ f ∈ filters, f.IsWritable := by
  have hone : (Json.int 1).Writable := .int (Number.isWritable_of_lt (by decide))
  have hnow : (Json.text now.iso).Writable := .text (Stamp.isEncodable_clockIso now)
  rw [describe, Json.writable_object_iff]
  simp only [List.forall_mem_cons, List.not_mem_nil, false_implies, implies_true, and_true,
    Text.isEncodable_string, true_and, hone, hnow, Json.writable_list_iff]
  simp only [List.forall_mem_map, SavedFilter.writable_toJson_iff]

/-- **The file is written** if all filters in it are. -/
theorem written_ofFilters (now : Instant) (h : ∀ f ∈ filters, f.IsWritable) :
    (ofFilters now filters).written = .ok (ofFilters now filters) := by
  have hnone := Json.unwritable?_eq_none_iff.mpr ((writable_describe_iff now).mpr h)
  simp only [ofFilters, written, hnone]

/-- **It is not** if one of them cannot be. -/
theorem fails_written_ofFilters (now : Instant) (h : ¬ ∀ f ∈ filters, f.IsWritable) :
    Fails (ofFilters now filters).written := by
  rw [ofFilters, written]
  cases hfault : (describe now filters).unwritable? with
  | none => exact absurd ((writable_describe_iff now).mp (Json.unwritable?_eq_none_iff.mp hfault)) h
  | some f => exact fails_error f

/-- The filter that is made of what is saved. -/
def newFilter (now : Instant) (name table query description : Text) (conditions : List Json)
    (isFavorite : Bool) : SavedFilter :=
  { id := freshId now
    name := .text name
    table := .text table
    query := .text query
    description := .text description
    conditions
    createdAt := now
    lastUsed := none
    useCount := 0
    isFavorite }

/-- What is saved is written if its texts are of characters and its conditions can be written. -/
theorem isWritable_newFilter_iff {name table query description : Text} {conditions : List Json}
    {isFavorite : Bool} :
    (newFilter now name table query description conditions isFavorite).IsWritable ↔
      (∀ t ∈ [name, table, query, description], Text.isEncodable t = true) ∧
        ∀ v ∈ conditions, v.Writable := by
  simp only [List.forall_mem_cons, List.not_mem_nil, false_implies, implies_true, and_true]
  constructor
  · rintro ⟨-, hname, htable, hquery, hdescription, hconditions, -⟩
    exact ⟨⟨Json.writable_text_iff.mp hname, Json.writable_text_iff.mp htable,
      Json.writable_text_iff.mp hquery, Json.writable_text_iff.mp hdescription⟩, hconditions⟩
  · rintro ⟨⟨hname, htable, hquery, hdescription⟩, hconditions⟩
    exact ⟨Text.isEncodable_ofInt _, .text hname, .text htable, .text hquery, .text hdescription,
      hconditions, Number.isWritable_of_lt (n := 0) (by decide)⟩

end StoreFile

end EncodedQuery

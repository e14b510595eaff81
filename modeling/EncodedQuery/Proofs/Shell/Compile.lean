/-
  EncodedQuery.Proofs.Shell.Compile
  ─────────────────────────────────
  **WHAT COMPILING REPORTS.**

  Compiling a document of conditions has three replies: the query, the findings that
  stand in its way, and a complaint about the document (`Reply`).  There is a reply
  exactly when the document can be read and what it says of the conditions has the
  right shape (`WellShaped`).  Otherwise a failure escapes that no reply tells of.

  What comes before is quiet: reading the conditions and the table shows nothing unless it
  ends the command (`quiet_conditionsText`, `quiet_requestedTable`).  So the report is
  that of the document alone: it tells of the reply as the screen shows it, and the
  document is answered (`Answered`) when all of the reply comes through.

  Main result: `answers_iff_wellShaped`.
-/
import EncodedQuery.Proofs.Shell.Misshapen
import EncodedQuery.Proofs.Shell.Screen

namespace EncodedQuery.Program

open EncodedQuery.Action

variable {host : Host} {deepest : Nat} {text : Text} {r : CompileRequest} {table : Option Table}
  {strict : Bool}

/-! ## §1. What comes before. -/

/-- The table that is asked for, if any. -/
def requestedTable (host : Host) (r : CompileRequest) : Action (Option Table) :=
  match r.data, filled r.table with
  | some path, some name => do return some (← tableOf (← openSource host path) name)
  | _, _ => pure none

/-- What compiling does with the text of a document. -/
def compileText (host : Host) (r : CompileRequest) (text : Text) : Action Unit :=
  match Json.ofDocument text host.deepest with
  | .error .malformedJson => refuse 2 "Cannot read conditions"
  | .error f => .fail f
  | .ok document => requestedTable host r >>= fun table => compileDocument table r.strict document

theorem compile_eq_bind (host : Host) (r : CompileRequest) :
    compile host r = conditionsText host r.file >>= compileText host r := by
  rw [compile]
  congr 1
  funext text
  rw [compileText]
  rcases Json.ofDocument text host.deepest with f | document
  · cases f <;> rfl
  · unfold requestedTable
    rcases r.data with _ | path
    · rfl
    · rcases filled r.table with _ | name
      · rfl
      · simp only [bind_assoc, pure_bind]

theorem quiet_refuse {α : Type} (exit : Nat) (t : Text) : Quiet (refuse exit t : Action α) := by
  intro desk a desk' h
  have hend := h.1
  unfold refuse complain at hend
  rw [performOn_display] at hend
  cases hshown : desk.screen.shows (.markedAs "red" ("❌ " ++ t)) with
  | error f | ok t =>
      rw [hshown] at hend
      cases hend

theorem quiet_conditionsText (host : Host) (file : Text) : Quiet (conditionsText host file) := by
  unfold conditionsText
  split
  · exact fun _ _ _ _ => rfl
  · refine quiet_bind (quiet_ofExcept _) fun path => ?_
    refine quiet_bind (fun _ _ _ _ => rfl) fun read => ?_
    split
    · exact quiet_done _
    · exact quiet_fail _
    · exact quiet_fail _
    · exact quiet_refuse _ _

theorem quiet_openSource (host : Host) (path : Text) : Quiet (openSource host path) := by
  unfold openSource
  refine quiet_bind (quiet_ofExcept _) fun path => ?_
  refine quiet_bind (fun _ _ _ _ => rfl) fun read => ?_
  split
  · exact quiet_refuse _ _
  · split
    · exact quiet_done _
    · exact quiet_fail _
    · exact quiet_refuse _ _

theorem quiet_requestedTable (host : Host) (r : CompileRequest) :
    Quiet (requestedTable host r) := by
  unfold requestedTable
  split
  · refine quiet_bind (quiet_openSource _ _) fun source => ?_
    exact quiet_bind (quiet_ofExcept _) fun table => quiet_done _
  · exact quiet_done _

/-! ## §2. The replies. -/

/-- What compiling has to show for a document of conditions, and the exit code behind it. -/
inductive Reply (deepest : Nat) (table : Option Table) (strict : Bool) (text : Text) :
    List View → Nat → Prop
  /-- It shows the query. -/
  | query {document : Json} {chain : Chain} {query : Text}
      (hdocument : Json.ofDocument text deepest = .ok document)
      (hchain : Chain.ofJson (conditionsOf document) = .ok chain)
      (hquery : Check.encode table strict chain = .ok query) :
      Reply deepest table strict text [.plain query] 0
  /-- It is strict and shows the findings, behind the first one that is an error. -/
  | findings {document : Json} {chain : Chain} {first : Issue} {later : List Issue}
      (hdocument : Json.ofDocument text deepest = .ok document)
      (hchain : Chain.ofJson (conditionsOf document) = .ok chain) (hstrict : strict = true)
      (herrors : (Check.conditions table chain.conditions).errors = first :: later) :
      Reply deepest table strict text
        [.markedAs "red" ("❌ " ++ first.format),
          Listing.issues (Check.conditions table chain.conditions).issues] 1
  /-- It complains of the conditions. -/
  | complaint {document : Json} {message : Text}
      (hdocument : Json.ofDocument text deepest = .ok document)
      (hrefused : Chain.ofJson (conditionsOf document) = .error (.badValue message)) :
      Reply deepest table strict text
        [.markedAs "red" ("❌ " ++ ("Invalid condition list: " ++ message))] 2

/-- The text is a document that can be read, and what it says of the conditions has the right
shape. -/
def WellShaped (deepest : Nat) (text : Text) : Prop :=
  ∃ document, Json.ofDocument text deepest = .ok document ∧
    ¬ Chain.Misshapen (conditionsOf document)

/-- The reply is all that is reported, and the screen shows it as it is. -/
def Answered (deepest : Nat) (screen : Screen) (table : Option Table) (strict : Bool) (text : Text)
    (report : Report) : Prop :=
  ∃ views exit, Reply deepest table strict text views exit ∧ screen.Presents views ∧
    report = { printed := views, exit }

/-- An answer is no failure. -/
theorem Answered.fault_eq_none {screen : Screen} {report : Report}
    (h : Answered deepest screen table strict text report) : report.fault = none := by
  obtain ⟨views, exit, -, -, rfl⟩ := h
  rfl

/-! ## §3. Documents. -/

/-- A chain is encoded, unless it is strict and there are errors. -/
theorem encode_cases (table : Option Table) (strict : Bool) (chain : Chain) :
    (∃ query, Check.encode table strict chain = .ok query) ∨
      ∃ first later, strict = true ∧
        (Check.conditions table chain.conditions).errors = first :: later := by
  unfold Check.encode
  cases strict with
  | false => exact .inl ⟨_, rfl⟩
  | true =>
      cases herrors : (Check.conditions table chain.conditions).errors with
      | nil => exact .inl ⟨chain.encode, by simp [herrors]⟩
      | cons first later => exact .inr ⟨first, later, rfl, rfl⟩

/-- A strict encoding with errors is rejected. -/
theorem encode_of_errors {chain : Chain} {first : Issue} {later : List Issue}
    (h : (Check.conditions table chain.conditions).errors = first :: later) :
    Check.encode table true chain
      = .error (.rejected first.format (Check.conditions table chain.conditions).issues) := by
  unfold Check.encode
  simp [h]

/-- Findings with an error among them are shown as they are. -/
theorem showIssues_of_errors {v : Verdict} {first : Issue} {later : List Issue}
    (h : v.errors = first :: later) : showIssues v.issues = .display (Listing.issues v.issues) := by
  have hne : v.issues ≠ [] := by
    intro hnil
    rw [Verdict.errors, hnil] at h
    cases h
  rw [showIssues, if_neg (by simpa using hne)]

/-- **There is a reply exactly to a document of the right shape.** -/
theorem exists_reply_iff (table : Option Table) (strict : Bool) :
    (∃ views exit, Reply deepest table strict text views exit) ↔ WellShaped deepest text := by
  constructor
  · rintro ⟨views, exit, hreply⟩
    cases hreply with
    | query hdocument hchain _ | findings hdocument hchain _ _ =>
        refine ⟨_, hdocument, fun hmisfit => ?_⟩
        obtain ⟨f, hfails, -⟩ := (Chain.reads_ofJson _).escapes hmisfit
        rw [hchain] at hfails
        cases hfails
    | complaint hdocument hrefused =>
        refine ⟨_, hdocument, fun hmisfit => ?_⟩
        obtain ⟨f, hfails, hescapes⟩ := (Chain.reads_ofJson _).escapes hmisfit
        rw [hrefused] at hfails
        cases hfails
        cases hescapes
  · rintro ⟨document, hdocument, hshape⟩
    cases hchain : Chain.ofJson (conditionsOf document) with
    | error f =>
        obtain ⟨message, rfl⟩ := (Chain.reads_ofJson _).complains hshape f hchain
        exact ⟨_, _, .complaint hdocument hchain⟩
    | ok chain =>
        obtain ⟨query, hquery⟩ | ⟨first, later, hstrict, herrors⟩ := encode_cases table strict chain
        · exact ⟨_, _, .query hdocument hchain hquery⟩
        · exact ⟨_, _, .findings hdocument hchain hstrict herrors⟩

/-- What follows a chain that was read. -/
theorem encode_of_chain {document : Json} {chain : Chain}
    (hchain : Chain.ofJson (conditionsOf document) = .ok chain) :
    (Chain.ofJson (conditionsOf document) >>= Check.encode table strict)
      = Check.encode table strict chain := by
  rw [hchain]
  rfl

/-- **The reply is reported** as the screen shows it. -/
theorem runOn_compileDocument {document : Json} {views : List View} {exit : Nat} (desk : Desk)
    (hdocument : Json.ofDocument text deepest = .ok document)
    (hreply : Reply deepest table strict text views exit) :
    ((compileDocument table strict document).runOn desk).1 = desk.screen.report views exit := by
  cases hreply with
  | query hdocument' hchain hquery =>
      cases hdocument.symm.trans hdocument'
      rw [compileDocument, encode_of_chain hchain, hquery]
      exact runOn_forM_display [.plain _] (x := done ()) rfl fun _ => rfl
  | findings hdocument' hchain hstrict herrors =>
      cases hdocument.symm.trans hdocument'
      have hshown := showIssues_of_errors herrors
      rw [compileDocument, encode_of_chain hchain, hstrict, encode_of_errors herrors]
      simp only [hshown]
      exact runOn_forM_display [.markedAs "red" _, _] (x := leave 1) rfl fun _ => rfl
  | @complaint document' message hdocument' hrefused =>
      cases hdocument.symm.trans hdocument'
      have hcomplains : compileDocument table strict document
          = refuse 2 ("Invalid condition list: " ++ message) := by
        rw [compileDocument, hrefused]
        rfl
      rw [hcomplains]
      exact runOn_forM_display [.markedAs "red" _] (x := leave 2) rfl fun _ => rfl

/-- **Of a document of another shape only a failure is left.** -/
theorem compileDocument_of_misshapen (table : Option Table) (strict : Bool) {document : Json}
    (hshape : Chain.Misshapen (conditionsOf document)) :
    ∃ f, compileDocument table strict document = .fail f := by
  obtain ⟨f, hchain, hcomplaint⟩ := (Chain.reads_ofJson (conditionsOf document)).escapes hshape
  refine ⟨f, ?_⟩
  rw [compileDocument, hchain]
  rw [show (Except.error f >>= Check.encode table strict : Except Fault Text) = .error f from rfl]
  cases f <;> first | rfl | cases hcomplaint

/-! ## §4. The command. -/

section
variable {desk desk₁ desk₂ : Desk}

/-- Behind conditions that are read, all that becomes of the command comes from their text. -/
theorem performOn_compile (htext : (conditionsText host r.file).Gives desk text desk₁) :
    (compile host r).performOn desk = (compileText host r text).performOn desk₁ := by
  rw [compile_eq_bind, performOn_bind_of_quiet (quiet_conditionsText host r.file) htext]

/-- Behind a table that is read, all comes from the document. -/
theorem performOn_compileText {document : Json}
    (hdocument : Json.ofDocument text host.deepest = .ok document)
    (htable : (requestedTable host r).Gives desk₁ table desk₂) :
    (compileText host r text).performOn desk₁
      = (compileDocument table r.strict document).performOn desk₂ := by
  rw [compileText, hdocument]
  exact performOn_bind_of_quiet (quiet_requestedTable host r) htable

/-- Of a document that cannot be read only a failure is left. -/
theorem compileText_of_unreadable (host : Host) (r : CompileRequest)
    (hjson : Json.ofDocument text host.deepest ≠ .error .malformedJson)
    (hunread : ∀ document, Json.ofDocument text host.deepest ≠ .ok document) :
    ∃ f, compileText host r text = .fail f := by
  unfold compileText
  cases hdocument : Json.ofDocument text host.deepest with
  | ok document => exact absurd hdocument (hunread document)
  | error f =>
      refine ⟨f, ?_⟩
      cases f <;> first | rfl | exact absurd hdocument hjson

/-- The command reports its reply as the screen shows it. -/
theorem runOn_compile_of_reply {views : List View} {exit : Nat}
    (htext : (conditionsText host r.file).Gives desk text desk₁)
    (htable : (requestedTable host r).Gives desk₁ table desk₂)
    (hreply : Reply host.deepest table r.strict text views exit) :
    ((compile host r).runOn desk).1 = desk.screen.report views exit := by
  have hread : ∃ document, Json.ofDocument text host.deepest = .ok document := by
    cases hreply with
    | query hdocument | findings hdocument | complaint hdocument => exact ⟨_, hdocument⟩
  obtain ⟨document, hdocument⟩ := hread
  rw [runOn, performOn_compile htext, performOn_compileText hdocument htable,
    ← htext.screen_eq, ← htable.screen_eq]
  exact runOn_compileDocument desk₂ hdocument hreply

/-- Of a document without a reply the command leaves only a failure. -/
theorem exists_fault_of_not_wellShaped
    (htext : (conditionsText host r.file).Gives desk text desk₁)
    (hjson : Json.ofDocument text host.deepest ≠ .error .malformedJson)
    (htable : (requestedTable host r).Gives desk₁ table desk₂)
    (hshape : ¬ WellShaped host.deepest text) :
    ∃ f, ((compile host r).runOn desk).1 = { exit := 1, fault := some f } := by
  rw [runOn, performOn_compile htext]
  by_cases hread : ∃ document, Json.ofDocument text host.deepest = .ok document
  · -- it is read, so the shape is to blame
    obtain ⟨document, hdocument⟩ := hread
    have hmisshapen : Chain.Misshapen (conditionsOf document) :=
      Classical.not_not.mp fun hgood => hshape ⟨document, hdocument, hgood⟩
    obtain ⟨f, hfail⟩ := compileDocument_of_misshapen table r.strict hmisshapen
    rw [performOn_compileText hdocument htable, hfail]
    exact ⟨f, rfl⟩
  · obtain ⟨f, hfail⟩ := compileText_of_unreadable host r hjson
      fun document hdocument => hread ⟨document, hdocument⟩
    rw [hfail]
    exact ⟨f, rfl⟩

/-- **What compiling answers.**  Whatever JSON document stands for the conditions, strict or
not and with any table, the command answers it exactly when it can be read and has the right
shape, and the screen shows the reply as it is; screens that keep their promise do so with a reply
of ordinary texts.  What else the screen makes of a reply is reported, and to a document of another
shape a failure escapes before anything is shown. -/
theorem answers_iff_wellShaped
    (htext : (conditionsText host r.file).Gives desk text desk₁)
    (hjson : Json.ofDocument text host.deepest ≠ .error .malformedJson)
    (htable : (requestedTable host r).Gives desk₁ table desk₂) :
    let report := ((compile host r).runOn desk).1
    (Answered host.deepest desk.screen table r.strict text report ↔
      WellShaped host.deepest text ∧ ∀ views exit,
        Reply host.deepest table r.strict text views exit → desk.screen.Presents views) ∧
    (∀ isEmoji, desk.screen.Documented isEmoji → WellShaped host.deepest text →
      (∀ views exit, Reply host.deepest table r.strict text views exit →
        ∀ v ∈ views, v.IsOrdinary isEmoji) →
      Answered host.deepest desk.screen table r.strict text report) ∧
    (∀ views exit, Reply host.deepest table r.strict text views exit →
      report = desk.screen.report views exit) ∧
    (¬ WellShaped host.deepest text → ∃ f, report = { exit := 1, fault := some f }) := by
  intro report
  have hreports : ∀ views exit, Reply host.deepest table r.strict text views exit →
      report = desk.screen.report views exit :=
    fun _ _ hreply => runOn_compile_of_reply htext htable hreply
  have hanswers : Answered host.deepest desk.screen table r.strict text report ↔
      WellShaped host.deepest text ∧ ∀ views exit,
        Reply host.deepest table r.strict text views exit → desk.screen.Presents views := by
    constructor
    · rintro ⟨views, exit, hreply, hpresents, hreport⟩
      refine ⟨(exists_reply_iff table r.strict).mp ⟨views, exit, hreply⟩, ?_⟩
      -- the report tells what the reply was
      intro views' exit' hreply'
      rw [hreports views' exit' hreply', Screen.report_eq_iff] at hreport
      rwa [← hreport.2.1]
    · rintro ⟨hshape, hpresents⟩
      obtain ⟨views, exit, hreply⟩ := (exists_reply_iff table r.strict).mpr hshape
      have hviews := hpresents views exit hreply
      refine ⟨views, exit, hreply, hviews, ?_⟩
      rw [hreports views exit hreply, Screen.report_eq_iff]
      exact ⟨fun v hv => (hviews v hv).1, rfl, rfl⟩
  refine ⟨hanswers, fun isEmoji hscreen hshape hordinary => ?_, hreports,
    exists_fault_of_not_wellShaped htext hjson htable⟩
  exact hanswers.mpr
    ⟨hshape, fun views exit hreply => hscreen.presents (hordinary views exit hreply)⟩

end

/-- The desk of a day in May 2024 with nothing on it but an input, in front of a terminal. -/
def deskOf (input : Text) : Desk :=
  { screen := .terminal, now := .startOf ⟨2024, 5, 2, by decide⟩, input }

/-- A system without a home directory. -/
def bareHost : Host := { home := [], deepest := 3 }

/-- A strict command answers a document that has one condition, on a field that is named. -/
theorem answers_named_field :
    let text : Text := "[\x7b\"field\": \"state\", \"operator\": \"=\", \"value\": \"1\"\x7d]"
    let r : CompileRequest := { file := "-", strict := true }
    WellShaped 3 text ∧
      Answered 3 .terminal none true text ((compile bareHost r).runOn (deskOf text)).1 := by
  intro text r
  have hchain : ∃ document chain, Json.ofDocument text 3 = .ok document ∧
      Chain.ofJson (conditionsOf document) = .ok chain ∧
      Check.encode none true chain = .ok "state=1" ∧
      (Check.conditions none chain.conditions).errors = [] := ⟨_, _, rfl, rfl, rfl, rfl⟩
  obtain ⟨document, chain, hdocument, hchain, hquery, hnone⟩ := hchain
  have htext : (conditionsText bareHost r.file).Gives (deskOf text) text (deskOf []) := ⟨rfl, rfl⟩
  have htable : (requestedTable bareHost r).Gives (deskOf []) none (deskOf []) := ⟨rfl, rfl⟩
  have hjson : Json.ofDocument text 3 ≠ .error .malformedJson := by
    rw [hdocument]
    nofun
  have hshape : WellShaped 3 text :=
    (exists_reply_iff none true).mp ⟨_, _, .query hdocument hchain hquery⟩
  have hseen : Text.IsSeen (fun _ => False) "state=1" :=
    ⟨by decide, by decide, by decide, fun _ _ _ _ => id⟩
  refine ⟨hshape, (answers_iff_wellShaped htext hjson htable).2.1 _ Screen.documented_terminal
    hshape fun views exit hreply v hv => ?_⟩
  cases hreply with
  | query hdocument' hchain' hquery' =>
      cases hdocument.symm.trans hdocument'
      cases hchain.symm.trans hchain'
      cases hquery.symm.trans hquery'
      rw [List.mem_singleton.mp hv]
      exact .seen hseen
  | findings hdocument' hchain' _ herrors =>
      cases hdocument.symm.trans hdocument'
      cases hchain.symm.trans hchain'
      rw [hnone] at herrors
      cases herrors
  | complaint hdocument' hrefused =>
      cases hdocument.symm.trans hdocument'
      cases hchain.symm.trans hrefused

/-- A number in the place of a condition is not answered: what escapes is that a number has no
members. -/
theorem escapes_of_number :
    let text : Text := "[1]"
    let report := ((compile bareHost { file := "-" }).runOn (deskOf text)).1
    Json.ofDocument text 3 = .ok (.list [.int 1]) ∧
      report = { exit := 1, fault := some (.noMember "int" "get") } ∧
      ¬ Answered 3 .terminal none false text report := by
  intro text report
  refine ⟨rfl, rfl, fun hanswer => ?_⟩
  have hnone : report.fault = none := hanswer.fault_eq_none
  cases hnone

end EncodedQuery.Program

import MyLite.Api.Exec
import MyLite.Api.Frame

namespace MyLite.Api

open MyLite.Lib MyLite.Sql MyLite.Policy
open MyLite.Prepared (ParameterBinding)
open Dialogue (Under Only)

/-!
# Return codes, diagnostics and effects

Whatever the backend answers, the diagnostics of a handle tell what the last call returned, and a
call that fails changes nothing else.  A callback may use the handle; what it has changed then is
taken for the handle as it was.

* `Surroundings`, `observe` — the handle as the callbacks leave it, and whether an error text could
  be copied.
* `observed_execImpl`, `only_prepareImpl` — what the two functions leave, at every exit.
* `agrees_of_call`, `unchanged_of_failure` — the diagnostics, and the rest of the handle.
-/

/-! ### Codes and diagnostics -/

/-- The diagnostics tell of a returned code: it is there if it is an error, and otherwise they are
    those of no error. -/
def Agrees (code : Result) (diagnostics : Diagnostics) : Prop :=
  if code.isError then diagnostics.errcode = code
  else diagnostics.errcode = .ok ∧ diagnostics.errmsg = ascii "not an error"

variable {code : Result}

theorem agrees_of_isError {diagnostics : Diagnostics} (hcode : code.isError = true)
    (h : diagnostics.errcode = code) : Agrees code diagnostics := by
  rw [Agrees, if_pos hcode]
  exact h

theorem agrees_setOk (hcode : code.isError = false) : Agrees code setOk := by
  rw [Agrees, if_neg (by rw [hcode]; exact Bool.false_ne_true)]
  exact ⟨rfl, rfl⟩

theorem Reports.agrees {after : Diagnostics} (h : Reports setOk code after) :
    Agrees code after := by
  cases hcode : code.isError with
  | true =>
    rw [Reports, hcode] at h
    exact agrees_of_isError hcode h
  | false =>
    rw [Reports, hcode] at h
    obtain rfl : after = setOk := h
    exact agrees_setOk hcode

/-! ### The handle during a call -/

namespace MyliteDb

/-- What a call that fails must not touch. -/
structure Unchanged (db db' : MyliteDb) : Prop where
  changes : db'.db.changes = db.db.changes
  lastInsertId : db'.db.lastInsertId = db.db.lastInsertId
  currentSchema : db'.currentSchema = db.currentSchema
  activeStatementCount : db'.activeStatementCount = db.activeStatementCount
  statements : db'.statements = db.statements

theorem unchanged_withDiagnostics (db : MyliteDb) (d : Diagnostics) :
    db.Unchanged (db.withDiagnostics d) := ⟨rfl, rfl, rfl, rfl, rfl⟩

end MyliteDb

/-- What goes on around a call: the handle as the callbacks leave it, and whether every copy of an
    error text was successful. -/
structure Surroundings where
  db : MyliteDb
  copied : Bool := true

open Classical in
/-- A callback that changes the handle is noted, and so is a failed copy. -/
noncomputable def observe (q : Surroundings) : ConnectionEvent → Surroundings
  | ⟨.callback db _ _ _, (_, db')⟩ => if db' = db then q else { q with db := db' }
  | ⟨.malloc _, allocated⟩ => { q with copied := q.copied && allocated }
  | _ => q

/-- `Q` holds of what is returned, whatever the backend answers. -/
def Observed {α : Type} (q : Surroundings) (Q : α → Surroundings → Prop) (d : Conversation α) :
    Prop :=
  Under (fun q e => some (observe q e)) q Q d

/-- The handle as the callbacks leave it, from the beginning of a call. -/
noncomputable def leftBy (db : MyliteDb) (said : List ConnectionEvent) : MyliteDb :=
  (said.foldl observe ⟨db.withDiagnostics setOk, true⟩).db

/-- A callback gives the handle back as it got it. -/
def KeepsHandle : ConnectionEvent → Prop
  | ⟨.callback db _ _ _, (_, db')⟩ => db' = db
  | _ => True

/-- The copy of an error text is successful. -/
def Copies : ConnectionEvent → Prop
  | ⟨.malloc _, allocated⟩ => allocated = true
  | _ => True

theorem observe_callback_self (q : Surroundings) (db : MyliteDb) (n : ℕ) (values : QueryRow)
    (names : List Text) (returned : ℤ) :
    observe q ⟨.callback db n values names, (returned, db)⟩ = q := if_pos rfl

/-- A callback that gets the handle as it was left. -/
theorem db_observe_callback (q : Surroundings) (n : ℕ) (values : QueryRow) (names : List Text)
    (returned : ℤ) (db' : MyliteDb) :
    (observe q ⟨.callback q.db n values names, (returned, db')⟩).db = db' := by
  by_cases h : db' = q.db
  · rw [h, observe_callback_self]
  · rw [observe, if_neg h]

variable {e : ConnectionEvent}

theorem db_observe_of_keepsHandle {q : Surroundings} (h : KeepsHandle e) :
    (observe q e).db = q.db := by
  obtain ⟨c, r⟩ := e
  cases c with
  | callback db n values names =>
    obtain ⟨returned, db'⟩ := r
    obtain rfl : db' = db := h
    rw [observe_callback_self]
  | _ => rfl

theorem copied_observe_of_copies {q : Surroundings} (h : Copies e) (hq : q.copied = true) :
    (observe q e).copied = true := by
  obtain ⟨c, r⟩ := e
  cases c with
  | callback db n values names =>
    obtain ⟨returned, db'⟩ := r
    rw [observe]
    split_ifs
    · exact hq
    · exact hq
  | malloc n =>
    obtain rfl : r = true := h
    show (q.copied && true) = true
    rw [hq]
    rfl
  | _ => exact hq

variable {said : List ConnectionEvent}

/-- Callbacks that leave the handle alone do not count. -/
theorem leftBy_of_keepsHandle (db : MyliteDb) (h : ∀ e ∈ said, KeepsHandle e) :
    leftBy db said = db.withDiagnostics setOk := by
  have hfold : ∀ q : Surroundings, (said.foldl observe q).db = q.db := by
    induction said with
    | nil => exact fun q => rfl
    | cons e said ih =>
      intro q
      rw [List.foldl_cons, ih fun e he => h e (List.mem_cons_of_mem _ he)]
      exact db_observe_of_keepsHandle (h e List.mem_cons_self)
  exact hfold _

theorem copied_of_copies (h : ∀ e ∈ said, Copies e) :
    ∀ q : Surroundings, q.copied = true → (said.foldl observe q).copied = true := by
  induction said with
  | nil => exact fun q hq => hq
  | cons e said ih =>
    intro q hq
    rw [List.foldl_cons]
    exact ih (fun e he => h e (List.mem_cons_of_mem _ he)) _
      (copied_observe_of_copies (h e List.mem_cons_self) hq)

/-! ### The parts of `mylite_exec` -/

/-- A part of the code leaves the handle as the callbacks did, up to an error. -/
def Leaves (q : Surroundings) (r : Result × MyliteDb) : Prop :=
  r.1 = .ok ∧ r.2 = q.db ∨
    r.1.isError = true ∧ ∃ d : Diagnostics, d.errcode = r.1 ∧ r.2 = q.db.withDiagnostics d

/-- `mylite_exec` leaves the handle as the callbacks did, up to an error or the effects of
    success. -/
def ExecLeaves (r : Executed) (q : Surroundings) : Prop :=
  r.code = .ok ∧ r.errmsg = none ∧ r.db.db.diagnostics = q.db.db.diagnostics ∨
    r.code.isError = true ∧ ∃ d : Diagnostics, r.db = q.db.withDiagnostics d ∧
      (q.copied = true → r.code = d.errcode) ∧ ∀ text, r.errmsg = some text → text = d.errmsg

variable {q : Surroundings}

variable {db : MyliteDb}

variable {d : Diagnostics}

/-- A call that is neither the callback nor `malloc`. -/
theorem observed_tell {c : ConnectionCall} (h : ∀ r, observe q ⟨c, r⟩ = q) :
    Observed q (fun _ q' => q' = q) (tell c) :=
  .ask fun r _ hnext => (Option.some.inj hnext).symm.trans (h r)

theorem observed_failWithMariadbError (hdb : db = q.db.withDiagnostics d) :
    Observed q (fun r q' => Leaves q' r ∧ r.1 = .error) db.failWithMariadbError := by
  refine .bind (observed_tell fun _ => rfl) fun e q' hq' => .pure ⟨.inr ⟨rfl, ?_⟩, rfl⟩
  subst hq'
  exact ⟨setMariadbError e, rfl, by rw [hdb]; rfl⟩

theorem observed_drainQueryTurn : Observed q (fun _ q' => q' = q) drainQueryTurn := by
  unfold drainQueryTurn
  refine .bind (observed_tell fun _ => rfl) fun next q₁ hq₁ => ?_
  subst hq₁
  cases next with
  | noMore | failed => exact .pure rfl
  | ok =>
    refine .bind (observed_tell fun _ => rfl) fun stored q₂ hq₂ => ?_
    subst hq₂
    cases stored with
    | some names =>
      exact .bind (observed_tell fun _ => rfl) fun _ _ hq₃ => .pure hq₃
    | none =>
      refine .bind (observed_tell fun _ => rfl) fun count q₃ hq₃ => ?_
      exact .ite (fun _ => .pure hq₃) fun _ => .pure hq₃

theorem observed_drainQueryLoop : Observed q (fun _ q' => q' = q) drainQueryLoop := by
  refine Under.loopFrom (I := fun _ q' => q' = q) rfl fun _ q' hq' => ?_
  subst hq'
  refine .bind observed_drainQueryTurn fun ended q₁ hq₁ => ?_
  cases ended with
  | none | some drained => exact .pure hq₁

theorem observed_drainRemainingQueryResults :
    Observed q (fun r q' => Leaves q' r) (drainRemainingQueryResults q.db) := by
  refine .bind observed_drainQueryLoop fun drained q' hq' => ?_
  subst hq'
  refine .ite (fun _ => .pure (.inl ⟨rfl, rfl⟩)) fun _ => ?_
  exact (observed_failWithMariadbError rfl).imp fun _ _ h => h.1

variable (hasCallback : Bool) (names : List Text)

variable {r : Result × MyliteDb}

theorem observed_emitRow (row : QueryRow) :
    Observed q (fun r q' => r.2 = q'.db) (emitRow hasCallback names q.db row) := by
  unfold emitRow
  refine .ite (fun _ => ?_) fun _ => .pure rfl
  refine .bind (P := fun answer q' => answer.2 = q'.db) (.ask ?_) fun answer q' h => .pure h
  rintro ⟨returned, db'⟩ q' hnext
  obtain rfl := Option.some.inj hnext
  exact (db_observe_callback q _ _ _ returned db').symm

theorem observed_emitRows :
    Observed q (fun r q' => r.2 = q'.db) (emitRows hasCallback names q.db) := by
  refine Under.loopFrom (I := fun db q' => db = q'.db) rfl fun db q' hdb => ?_
  subst hdb
  refine .bind (observed_tell fun _ => rfl) fun row q₁ hq₁ => ?_
  subst hq₁
  cases row with
  | none => exact .pure rfl
  | some row =>
    refine .bind (observed_emitRow hasCallback names row) fun emitted q₂ h₂ => ?_
    exact .ite (fun _ => .pure h₂) fun _ => .pure h₂

/-- An error set behind a part that may have set another. -/
theorem Leaves.failWith (h : Leaves q r) (hcode : code.isError = true) (message : String) :
    Leaves q (r.2.failWith code message) := by
  refine .inr ⟨hcode, setError code (ascii message), rfl, ?_⟩
  rcases h with ⟨-, hdb⟩ | ⟨-, d, -, hdb⟩
  · rw [hdb]
    rfl
  · rw [hdb]
    rfl

theorem observed_emitResult :
    Observed q (fun r q' => Leaves q' r) (emitResult hasCallback names q.db) := by
  unfold emitResult
  refine .ite (fun _ => ?_) fun _ => ?_
  · refine .bind (observed_tell fun _ => rfl) fun _ q' hq' => .pure ?_
    subst hq'
    exact Leaves.failWith (r := (.ok, q'.db)) (.inl ⟨rfl, rfl⟩) rfl _
  · refine .bind (observed_emitRows hasCallback names) fun emitted q₁ h₁ => ?_
    refine .bind (observed_tell fun _ => rfl) fun _ q₂ hq₂ => ?_
    subst hq₂
    rw [h₁]
    refine .bind observed_drainRemainingQueryResults fun drained q₃ h₃ => ?_
    exact .ite (fun _ => .pure (h₃.failWith rfl _)) fun _ => .pure h₃

theorem observed_storeAndEmitResult :
    Observed q (fun r q' => Leaves q' r.2) (storeAndEmitResult hasCallback q.db) := by
  unfold storeAndEmitResult
  refine .bind (observed_tell fun _ => rfl) fun stored q₁ hq₁ => ?_
  subst hq₁
  cases stored with
  | none =>
    refine .bind (observed_tell fun _ => rfl) fun count q₂ hq₂ => ?_
    subst hq₂
    refine .ite (fun _ => ?_) fun _ => ?_
    · exact .bind (observed_failWithMariadbError rfl) fun _ _ h => .pure h.1
    · exact .bind observed_drainRemainingQueryResults fun _ _ h => .pure h
  | some names => exact .bind (observed_emitResult hasCallback names) fun _ _ h => .pure h

theorem observed_copyErrorMessage (hdb : db = q.db.withDiagnostics d)
    (hcode : d.errcode.isError = true) (wanted : Bool) :
    Observed q ExecLeaves (copyErrorMessage db wanted) := by
  subst hdb
  unfold copyErrorMessage
  refine .ite (fun _ => .pure (.inr ⟨hcode, d, rfl, fun _ => rfl, nofun⟩)) fun _ => ?_
  have hmalloc : Observed q (fun allocated q' => q' = { q with copied := q.copied && allocated })
      (malloc ((q.db.withDiagnostics d).errmsg.length + 1)) :=
    .ask fun _ _ hnext => (Option.some.inj hnext).symm
  refine .bind hmalloc fun allocated q' hq' => ?_
  subst hq'
  refine .ite (fun _ => .pure ?_) fun hfailed => .pure ?_
  · exact .inr ⟨hcode, d, rfl, fun _ => rfl, fun text h => (Option.some.inj h).symm⟩
  · refine .inr ⟨rfl, d, rfl, fun hcopied => absurd ?_ hfailed, nofun⟩
    exact (Bool.and_eq_true_iff.mp hcopied).2

/-- What is left of an error is copied. -/
theorem Leaves.copyErrorMessage (h : Leaves q r) (hr : r.1 ≠ .ok) (wanted : Bool) :
    Observed q ExecLeaves (copyErrorMessage r.2 wanted) := by
  rcases h with ⟨hok, -⟩ | ⟨herror, d, hcode, hdb⟩
  · exact absurd hok hr
  · exact observed_copyErrorMessage hdb (by rw [hcode]; exact herror) wanted

theorem observed_runQuery (sql : Text) (hasCallback wantsErrmsg : Bool) :
    Observed q ExecLeaves (runQuery q.db sql hasCallback wantsErrmsg) := by
  unfold runQuery
  refine .bind (observed_tell fun _ => rfl) fun sent q₁ hq₁ => ?_
  subst hq₁
  refine .ite (fun _ => ?_) fun _ => ?_
  · refine .bind (observed_failWithMariadbError rfl) fun failed q₂ h₂ => ?_
    exact h₂.1.copyErrorMessage (by rw [h₂.2]; decide) wantsErrmsg
  · refine .bind (observed_tell fun _ => rfl) fun affected q₂ hq₂ => ?_
    subst hq₂
    refine .bind (observed_tell fun _ => rfl) fun insertId q₃ hq₃ => ?_
    subst hq₃
    refine .bind (observed_storeAndEmitResult hasCallback) fun emitted q₄ h₄ => ?_
    refine .ite (fun hfailed => h₄.copyErrorMessage hfailed wantsErrmsg) fun hok => .pure ?_
    rcases h₄ with ⟨-, hdb⟩ | ⟨herror, -⟩
    · exact .inl ⟨rfl, rfl, by rw [← hdb]; rfl⟩
    · rw [ne_eq, not_not] at hok
      rw [hok] at herror
      cases herror

/-- The gate leaves the handle as it is, or an error. -/
theorem leaves_rejectUnsupportedSqlPolicy (sql : Text) :
    Leaves q (q.db.rejectUnsupportedSqlPolicy sql) := by
  unfold MyliteDb.rejectUnsupportedSqlPolicy
  cases Policy.rejectUnsupportedSqlPolicy q.db.currentSchema sql with
  | none => exact .inl ⟨rfl, rfl⟩
  | some message => exact Leaves.failWith (r := (.ok, q.db)) (.inl ⟨rfl, rfl⟩) rfl message

/-- **Direct execution.** -/
theorem observed_execImpl (db : MyliteDb) (sql : Text) (hasCallback wantsErrmsg : Bool) :
    Observed ⟨db.withDiagnostics setOk, true⟩ ExecLeaves
      (execImpl db sql hasCallback wantsErrmsg) := by
  have hgate := @leaves_rejectUnsupportedSqlPolicy ⟨db.withDiagnostics setOk, true⟩ sql
  unfold execImpl
  refine .ite (fun hfailed => hgate.copyErrorMessage hfailed wantsErrmsg) fun hok => ?_
  rw [ne_eq, not_not] at hok
  rcases hgate with ⟨-, hdb⟩ | ⟨herror, -⟩
  · rw [hdb]
    exact observed_runQuery sql hasCallback wantsErrmsg
  · rw [hok] at herror
    cases herror

/-! ### Preparation -/

/-- How `prepare_impl` leaves a handle without an error. -/
inductive Prepares (db : MyliteDb) : Preparation → Prop
  | objection (message : String) :
      Prepares db ⟨.error, none, db.withDiagnostics (setError .error (ascii message))⟩
  | call : Prepares db ⟨.error, none, db.withDiagnostics
      (setError .error (ascii "prepared CALL statements are not supported by MyLite"))⟩
  | unallocated : Prepares db ⟨.nomem, none,
      db.withDiagnostics (setError .nomem (ascii "statement could not be allocated"))⟩
  | refusal (e : ClientError) :
      Prepares db ⟨.error, none, db.withDiagnostics (setMariadbError e)⟩
  | prepared (stmt : MyliteStmt) : Prepares db (finishPrepare db stmt)

/-- Parameters that are there can be bound as long as the statement is not executed. -/
theorem bindNullValues_ok (indices : List ℕ) {stmt : MyliteStmt} (hnew : stmt.executed = false)
    (hindices : ∀ index ∈ indices, 0 < index ∧ index ≤ stmt.parameters.length) :
    (bindNullValues indices stmt).1 = .ok := by
  induction indices generalizing stmt with
  | nil => rfl
  | cons index indices ih =>
    obtain ⟨hpos, hle⟩ := hindices index List.mem_cons_self
    have hbind : stmt.bind index (some .null) =
        (.ok, { stmt with parameters := stmt.parameters.set (index - 1) .null }) := by
      have hin : (index = 0 || stmt.parameters.length < index || stmt.executed) = false := by
        rw [hnew, Bool.or_false, Bool.or_eq_false_iff, decide_eq_false_iff_not,
          decide_eq_false_iff_not]
        omega
      rw [MyliteStmt.bind, hin]
      rfl
    rw [bindNullValues, hbind]
    refine ih hnew fun i hi => ?_
    rw [List.length_set]
    exact hindices i (List.mem_cons_of_mem _ hi)

theorem bindNullValues_unboundStmt (db : MyliteDb) (count : ℕ) :
    (bindNullValues (List.range' 1 count) (unboundStmt db count)).1 = .ok := by
  refine bindNullValues_ok _ rfl fun index hindex => ?_
  rw [List.mem_range'_1] at hindex
  have hlength : (unboundStmt db count).parameters.length = count := List.length_replicate
  omega

theorem only_tell {p : ConnectionCall → Prop} (c : ConnectionCall) (h : p c) :
    Only p (fun _ => True) (tell c) :=
  .ask h

/-- **Preparation.** The server gets the text only where neither the policy nor a `CALL` is in the
    way. -/
theorem only_prepareImpl (db : MyliteDb) (sql : Text) :
    Only (fun c => ∀ text, c = .stmtPrepare text → text = sql ∧
        rejects db.currentSchema sql = false ∧
        tokenEquals (identifierTokenAt (collectSqlPolicyTokens sql) 0) "CALL" = false)
      (Prepares (db.withDiagnostics setOk)) (prepareImpl db sql) := by
  unfold prepareImpl MyliteDb.rejectUnsupportedSqlPolicy
  cases hgate : Policy.rejectUnsupportedSqlPolicy (db.withDiagnostics setOk).currentSchema sql with
  | some message => exact .pure (.objection message)
  | none =>
    have hrejects : rejects db.currentSchema sql = false := congrArg Option.isSome hgate
    refine .ite (fun hfailed => absurd rfl hfailed) fun _ => ?_
    refine .ite (fun _ => .pure .call) fun hcall => ?_
    unfold prepareStatement
    refine .bind (only_tell .stmtInit nofun) fun initialized _ => ?_
    refine .ite (fun _ => .pure .unallocated) fun _ => ?_
    refine .bind (only_tell .stmtAttrSet nofun) fun _ _ => ?_
    refine .bind (only_tell (.stmtPrepare sql) fun text htext => ?_) fun prepared _ => ?_
    · exact ⟨(ConnectionCall.stmtPrepare.inj htext).symm, hrejects, Bool.eq_false_iff.mpr hcall⟩
    refine .ite (fun _ => ?_) fun _ => ?_
    · refine .bind (only_tell .stmtError nofun) fun e _ => ?_
      exact .bind (only_tell .stmtClose nofun) fun _ _ => .pure (.refusal e)
    · refine .bind (only_tell .stmtParamCount nofun) fun count _ => ?_
      exact .ite (fun hfailed => absurd (bindNullValues_unboundStmt _ count) hfailed)
        fun _ => .pure (.prepared _)

theorem prepares_of_returns {sql : Text} {rs : List (∀ c, ConnectionReply c)} {r : Preparation}
    (hreturns : Dialogue.Returns (prepareImpl db sql) rs said r) :
    Prepares (db.withDiagnostics setOk) r :=
  ((only_prepareImpl db sql).of_returns hreturns).2 r rfl

/-! ### Every call -/

/-- What holds of a returned value holds of it behind what was said. -/
theorem Observed.of_returns {α : Type} {Q : α → Surroundings → Prop} {d : Conversation α}
    (h : Observed q Q d) {rs : List (∀ c, ConnectionReply c)} {a : α}
    (hreturns : Dialogue.Returns d rs said a) : Q a (said.foldl observe q) :=
  Under.of_returns h hreturns (Dialogue.after_observe observe q said)

/-- What `mylite_exec` leaves where no callback uses the handle. -/
theorem agrees_of_execLeaves {r : Executed} (hkeeps : ∀ e ∈ said, KeepsHandle e)
    (hcopies : ∀ e ∈ said, Copies e)
    (h : ExecLeaves r (said.foldl observe ⟨db.withDiagnostics setOk, true⟩)) :
    Agrees r.code r.db.db.diagnostics ∧ ∀ text, r.errmsg = some text → text = r.db.errmsg := by
  have hdb : (said.foldl observe ⟨db.withDiagnostics setOk, true⟩).db = db.withDiagnostics setOk :=
    leftBy_of_keepsHandle db hkeeps
  rcases h with ⟨hok, hnone, hdiagnostics⟩ | ⟨herror, d, hleft, hcode, htext⟩
  · rw [hdb] at hdiagnostics
    rw [hok, hdiagnostics, hnone]
    exact ⟨agrees_setOk rfl, nofun⟩
  · rw [hleft]
    exact ⟨agrees_of_isError herror (hcode (copied_of_copies hcopies _ rfl)).symm, htext⟩

/-- **Return codes and diagnostics.** Behind every call on a handle the diagnostics tell what was
    returned, whatever the backend answers, as long as no callback uses the handle and error texts
    can be copied. -/
theorem agrees_of_call (db : MyliteDb) (stmt : MyliteStmt) :
    (∀ sql hasCallback wantsErrmsg rs said r,
      Dialogue.Returns (execImpl db sql hasCallback wantsErrmsg) rs said r →
      (∀ e ∈ said, KeepsHandle e) → (∀ e ∈ said, Copies e) →
        Agrees r.code r.db.db.diagnostics ∧ ∀ text, r.errmsg = some text → text = r.db.errmsg) ∧
    (∀ sql rs said r, Dialogue.Returns (prepareImpl db sql) rs said r →
      Agrees r.code r.db.db.diagnostics) ∧
    (∀ rs said code db', Dialogue.Returns (myliteClose db) rs said (code, some db') →
      Agrees code db'.db.diagnostics) ∧
    (∀ rs said r, Dialogue.Returns stmt.myliteStep rs said r → Agrees r.1 r.2.db.diagnostics) ∧
    (∀ rs said r, Dialogue.Returns stmt.myliteReset rs said r → Agrees r.1 r.2.db.diagnostics) := by
  refine ⟨?_, ?_, ?_, ?_, ?_⟩
  · intro sql hasCallback wantsErrmsg rs said r hreturns hkeeps hcopies
    exact agrees_of_execLeaves hkeeps hcopies
      ((observed_execImpl db sql hasCallback wantsErrmsg).of_returns hreturns)
  · intro sql rs said r hreturns
    cases prepares_of_returns hreturns with
    | objection | call | unallocated | refusal => exact agrees_of_isError rfl rfl
    | prepared stmt => exact agrees_setOk rfl
  · rintro rs said code db' ⟨rs', hreturns⟩
    rw [myliteClose] at hreturns
    split_ifs at hreturns
    · obtain ⟨-, hvalue⟩ := Prod.mk.inj hreturns
      obtain ⟨hvalue, -⟩ := Prod.mk.inj (Option.some.inj hvalue)
      obtain ⟨rfl, hdb⟩ := Prod.mk.inj hvalue
      obtain rfl := Option.some.inj hdb
      exact agrees_of_isError rfl rfl
    · cases rs with
      | nil | cons r rs => cases hreturns
  · intro rs said r hreturns
    have htold := Under.of_returns (stmt.told_myliteStep rfl) hreturns
      (Dialogue.after_observe _ _ said)
    exact htold.2.agrees
  · intro rs said r hreturns
    exact (((stmt.silent_myliteReset).of_returns hreturns).2 r rfl).2.2.agrees

/-- A server that refuses everything. -/
def refusing : (c : ConnectionCall) → ConnectionReply c
  | .query _ | .stmtInit | .stmtPrepare _ => false
  | .malloc _ => true
  | .affectedRows | .insertId | .fieldCount | .stmtParamCount => (0 : ℕ)
  | .storeResult | .fetchRow => none
  | .freeResult | .stmtAttrSet | .stmtClose | .release => ()
  | .nextResult => NextResult.failed
  | .callback db _ _ _ => (0, db)
  | .connectionError | .stmtError => commandsOutOfSync

/-- A handle that has run statements, with one prepared. -/
def usedHandle : MyliteDb where
  db := { changes := 3, lastInsertId := 7 }
  currentSchema := ascii "shop"
  activeStatementCount := 1
  statements := [{ executed := true }]

/-- What `mylite_exec` of `DO 1` says to it. -/
def refusedQuery : List ConnectionEvent :=
  [⟨.query (ascii "DO 1"), false⟩, ⟨.connectionError, commandsOutOfSync⟩,
    ⟨.malloc (commandsOutOfSync.message.length + 1), true⟩]

/-- What it leaves. -/
def refusedResult : Executed where
  code := .error
  errmsg := some commandsOutOfSync.message
  db := usedHandle.withDiagnostics (setMariadbError commandsOutOfSync)

theorem returns_refusedQuery :
    Dialogue.Returns (execImpl usedHandle (ascii "DO 1") false true)
      [refusing, refusing, refusing] refusedQuery refusedResult := ⟨[], rfl⟩

theorem agrees_of_call_refused :
    Agrees refusedResult.code refusedResult.db.db.diagnostics ∧
      ∀ text, refusedResult.errmsg = some text → text = refusedResult.db.errmsg := by
  have hkeeps : ∀ e ∈ refusedQuery, KeepsHandle e := by
    simp [refusedQuery, KeepsHandle]
  have hcopies : ∀ e ∈ refusedQuery, Copies e :=
    List.forall_mem_cons.mpr
      ⟨trivial, List.forall_mem_cons.mpr ⟨trivial, List.forall_mem_singleton.mpr rfl⟩⟩
  exact (agrees_of_call usedHandle {}).1 _ false true _ _ _ returns_refusedQuery hkeeps hcopies

/-! ### What a failed call leaves -/

/-- Nothing is sent to the server. -/
def IsLocal : ConnectionEvent → Prop
  | ⟨.malloc _, _⟩ => True
  | _ => False

theorem local_copyErrorMessage (db : MyliteDb) (wanted : Bool) :
    Dialogue.Ensures (fun said _ => ∀ e ∈ said, IsLocal e) (copyErrorMessage db wanted) := by
  unfold copyErrorMessage
  cases wanted with
  | false => exact .pure fun e he => nomatch he
  | true =>
    refine Dialogue.Ensures.bind (P := fun said _ => ∀ e ∈ said, IsLocal e) ?_ (fun _ h => h) ?_
    · refine Dialogue.Ensures.ask (P := fun said _ => ∀ e ∈ said, IsLocal e)
        (List.forall_mem_nil _) fun r => ?_
      exact List.forall_mem_singleton.mpr trivial
    · intro said allocated hsaid
      cases allocated with
      | true | false => exact .pure (by rwa [List.append_nil])

/-- A text that the gate rejects. -/
theorem rejectUnsupportedSqlPolicy_of_rejects {sql : Text}
    (h : rejects db.currentSchema sql = true) :
    ((db.withDiagnostics setOk).rejectUnsupportedSqlPolicy sql).1 ≠ .ok := by
  obtain ⟨message, hmessage⟩ := Option.isSome_iff_exists.mp h
  unfold MyliteDb.rejectUnsupportedSqlPolicy
  rw [show (db.withDiagnostics setOk).currentSchema = db.currentSchema from rfl, hmessage]
  exact nofun

/-- Behind a failure the handle is as the callbacks left it. -/
theorem unchanged_of_execLeaves {r : Executed} (hfailed : r.code ≠ .ok)
    (h : ExecLeaves r (said.foldl observe ⟨db.withDiagnostics setOk, true⟩)) :
    (leftBy db said).Unchanged r.db := by
  rcases h with ⟨hok, -⟩ | ⟨-, d, hdb, -⟩
  · exact absurd hok hfailed
  · rw [hdb]
    exact MyliteDb.unchanged_withDiagnostics _ d

/-- **Failed calls.** A `mylite_exec` or `mylite_prepare` that fails leaves the handle as its
    callbacks left it, and as it was if they leave it alone; it returns no statement, and a text
    that the gate rejects does not get to the server. -/
theorem unchanged_of_failure (db : MyliteDb) (sql : Text) :
    (∀ hasCallback wantsErrmsg rs said r,
      Dialogue.Returns (execImpl db sql hasCallback wantsErrmsg) rs said r → r.code ≠ .ok →
        (leftBy db said).Unchanged r.db ∧
          ((∀ e ∈ said, KeepsHandle e) → db.Unchanged r.db)) ∧
    (∀ rs said r, Dialogue.Returns (prepareImpl db sql) rs said r → r.code ≠ .ok →
      r.stmt = none ∧ db.Unchanged r.db) ∧
    (rejects db.currentSchema sql = true →
      (∀ hasCallback wantsErrmsg rs, ∀ e ∈ (execImpl db sql hasCallback wantsErrmsg rs).1,
        IsLocal e) ∧
      ∀ rs, (prepareImpl db sql rs).1 = []) := by
  refine ⟨?_, ?_, ?_⟩
  · intro hasCallback wantsErrmsg rs said r hreturns hfailed
    have hleft := unchanged_of_execLeaves hfailed
      ((observed_execImpl db sql hasCallback wantsErrmsg).of_returns hreturns)
    refine ⟨hleft, fun hkeeps => ?_⟩
    rw [leftBy_of_keepsHandle db hkeeps] at hleft
    exact ⟨hleft.changes, hleft.lastInsertId, hleft.currentSchema, hleft.activeStatementCount,
      hleft.statements⟩
  · intro rs said r hreturns hfailed
    cases prepares_of_returns hreturns with
    | objection | call | unallocated | refusal =>
      exact ⟨rfl, MyliteDb.unchanged_withDiagnostics db _⟩
    | prepared stmt => exact absurd rfl hfailed
  · intro hrejects
    have hgate := rejectUnsupportedSqlPolicy_of_rejects hrejects
    constructor
    · intro hasCallback wantsErrmsg rs
      rw [execImpl, if_pos hgate]
      exact local_copyErrorMessage _ wantsErrmsg rs
    · intro rs
      rw [prepareImpl, if_pos hgate]
      rfl

/-- A text that the server refuses. -/
theorem unchanged_of_failure_refused : usedHandle.Unchanged refusedResult.db := by
  have hkeeps : ∀ e ∈ refusedQuery, KeepsHandle e := by
    simp [refusedQuery, KeepsHandle]
  exact ((unchanged_of_failure usedHandle _).1 false true _ _ _ returns_refusedQuery nofun).2 hkeeps

end MyLite.Api

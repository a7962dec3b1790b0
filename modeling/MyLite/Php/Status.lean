import MyLite.Api.Counts
import MyLite.Api.Resets
import MyLite.Api.Diagnostics
import MyLite.Lib.Run
import MyLite.Php.EntryPoints
import MyLite.Php.MysqliLink

namespace MyLite.Php

open MyLite.Lib MyLite.Lib.Dialogue MyLite.Sql MyLite.Api MyLite.Policy
open MyLite.Prepared (ParameterBinding)

/-!
# The status of a `mysqli` link

`affected_rows` and `insert_id` are properties of the link object.  `php_mylite_mysqli_sync_status`
copies them from the handle, but only a query and a connect call it: an executed statement,
`select_db` and `set_charset` change the numbers of the handle and leave the properties.

* `StatusLink` — a link with its properties and its handle.
* `StatusCall`, `StatusLink.next` — the calls, as they end with success.
* `mirrors_iff` — the runs in which the properties stay those of the handle.

The rows, the fields and the errors are left out.  The answers of the client library are part of a
call, one list for the connection and one for the statement.
-/

/-! ### The link -/

/-- A link object: two of its properties, and `link->db`. -/
structure StatusLink where
  affectedRows : ℤ := 0
  insertId : Text := ascii "0"
  db : MyliteDb

/-- Answers to the calls on a connection. -/
abbrev ConnectionAnswers : Type := List (∀ c, ConnectionReply c)

/-- Answers to the calls on a statement. -/
abbrev StatementAnswers : Type := List (∀ c, Reply c)

/-- What a dialogue returns. -/
def returned {κ : Type} {ρ : κ → Type} {α : Type} (d : Dialogue ρ α) (rs : List (∀ c, ρ c)) :
    Option α :=
  (d rs).2.map Prod.fst

namespace StatusLink

/-- `php_mylite_mysqli_sync_status` of a link with a handle. -/
def syncStatus (link : StatusLink) : StatusLink :=
  { link with
    affectedRows := link.db.db.changes
    insertId := decimal link.db.db.lastInsertId }

/-- The end of `php_mylite_mysqli_open_link`. -/
def openLink (link : StatusLink) (db : MyliteDb) : StatusLink := { link with db := db }.syncStatus

/-! ### Statements -/

/-- `while (step_result == MYLITE_ROW)`. -/
def stepRows (stepped : Result × MyliteStmt) : Backend (Result × MyliteStmt) :=
  Dialogue.loopFrom (fun stepped : Result × MyliteStmt =>
    if stepped.1 = .row then do
      let stepped ← stepped.2.myliteStep
      pure (.inl stepped)
    else pure (.inr stepped)) stepped

/-- `php_mylite_mysqli_query_impl` behind `mylite_prepare`, with `mylite_finalize`. -/
def queryStatement (stmt : MyliteStmt) : Backend (Result × MyliteStmt) := do
  let stepped ← stmt.myliteStep
  let last ← stepRows stepped
  let _ ← last.2.columnCount
  let released ← last.2.releaseStatementResults
  pure (last.1, released)

/-- The loop of `php_mylite_mysqli_stmt_execute_impl` over the bound values; `none` is a value that
    cannot be bound. -/
def bindValues : ℕ → List (Option ParameterBinding) → MyliteStmt → Bool × MyliteStmt
  | _, [], stmt => (true, stmt)
  | index, value :: values, stmt =>
    let bound := stmt.bind index value
    if bound.1 ≠ .ok then (false, bound.2) else bindValues (index + 1) values bound.2

/-- `php_mylite_mysqli_stmt_execute_impl`: whether it succeeds, and the statement. -/
def stmtExecuteImpl (values : List (Option ParameterBinding)) (stmt : MyliteStmt) :
    Backend (Bool × MyliteStmt) := do
  let reset ← stmt.myliteReset
  let bound := bindValues 1 values reset.2.clearBindings.2
  if !bound.1 then pure bound
  else do
    let stepped ← bound.2.myliteStep
    let _ ← stepped.2.columnCount
    let last ← stepRows stepped
    pure (last.1 = .done, last.2)

/-- The statement at `index`, on the numbers of the handle. -/
def stmtAt (link : StatusLink) (index : ℕ) : Option MyliteStmt :=
  link.db.statements[index]?.map fun stmt => { stmt with db := link.db.db }

/-- `mysqli_stmt::execute`. -/
def execute (link : StatusLink) (index : ℕ) (values : List (Option ParameterBinding))
    (answers : StatementAnswers) : Option StatusLink :=
  (link.stmtAt index).bind fun stmt =>
    (returned (stmtExecuteImpl values stmt) answers).bind fun executed =>
      if executed.1 then some { link with db := { link.db with
        db := executed.2.db, statements := link.db.statements.set index executed.2 } }
      else none

/-- `php_mylite_mysqli_prepare_impl`. -/
def prepareImpl (link : StatusLink) (sql : Text) (answers : ConnectionAnswers) :
    Option StatusLink :=
  (returned (Api.prepareImpl link.db sql) answers).bind fun prepared =>
    if prepared.code = .ok then some { link with db := prepared.db } else none

/-! ### Direct execution -/

/-- A call of `mylite_exec` that returns `MYLITE_OK`. -/
def exec (link : StatusLink) (sql : Text) (hasCallback wantsErrmsg : Bool)
    (answers : ConnectionAnswers) : Option StatusLink :=
  (returned (execImpl link.db (cString sql) hasCallback wantsErrmsg) answers).bind fun executed =>
    if executed.code = .ok then some { link with db := executed.db } else none

/-- `php_mylite_mysqli_select_database`. -/
def selectDatabase (link : StatusLink) (database : Text) (answers : ConnectionAnswers) :
    Option StatusLink :=
  link.exec (useDatabaseSql database) false false answers

/-- `php_mylite_mysqli_set_charset_impl`; `link->charset` is left out. -/
def setCharsetImpl (link : StatusLink) (charset : Text) (answers : ConnectionAnswers) :
    Option StatusLink :=
  link.exec (setCharsetSql charset) false false answers

/-- `php_mylite_mysqli_exec_query_impl`. -/
def execQueryImpl (link : StatusLink) (sql : Text) (answers : ConnectionAnswers) :
    Option StatusLink :=
  (link.exec sql true true answers).map syncStatus

/-- `php_mylite_mysqli_query_impl`. -/
def queryImpl (link : StatusLink) (sql : Text) (answers : ConnectionAnswers)
    (stmtAnswers : StatementAnswers) : Option StatusLink :=
  if isCallQuery sql then link.execQueryImpl sql answers
  else
    (returned (Api.prepareImpl link.db sql) answers).bind fun prepared =>
      if prepared.code ≠ .ok then none
      else prepared.stmt.bind fun stmt =>
        (returned (queryStatement { stmt with db := prepared.db.db }) stmtAnswers).bind fun last =>
          if last.1 ≠ .done then none
          else some (syncStatus { link with db := { prepared.db with
            db := last.2.db
            activeStatementCount := prepared.db.activeStatementCount - 1
            statements := prepared.db.statements.dropLast } })

end StatusLink

/-! ### Calls of a script -/

/-- A call on a link, with the answers it gets. -/
inductive StatusCall
  | query (sql : Text) (answers : ConnectionAnswers) (stmtAnswers : StatementAnswers)
  | prepare (sql : Text) (answers : ConnectionAnswers)
  | execute (index : ℕ) (values : List (Option ParameterBinding)) (answers : StatementAnswers)
  | selectDb (database : Text) (answers : ConnectionAnswers)
  | setCharset (charset : Text) (answers : ConnectionAnswers)

namespace StatusLink

/-- The link behind a call that succeeds. -/
def next (link : StatusLink) : StatusCall → Option StatusLink
  | .query sql answers stmtAnswers => link.queryImpl sql answers stmtAnswers
  | .prepare sql answers => link.prepareImpl sql answers
  | .execute index values answers => link.execute index values answers
  | .selectDb database answers => link.selectDatabase database answers
  | .setCharset charset answers => link.setCharsetImpl charset answers

/-- The properties have these numbers. -/
def Shows (link : StatusLink) (c : Counts) : Prop :=
  link.affectedRows = c.changes ∧ link.insertId = decimal c.lastInsertId

/-- The properties are what `mylite_changes` and `mylite_last_insert_id` return. -/
def Mirrors (link : StatusLink) : Prop := link.Shows link.db.db.counts

/-- A text executed by `mylite_exec` is answered with the numbers the properties have already. -/
def AnsweredAsShown (link : StatusLink) (sql : Text) (answers : ConnectionAnswers) : Prop :=
  ∀ c, answered (execImpl link.db (cString sql) false false answers).1 = some c → link.Shows c

/-- The server answers an executed statement, `select_db` or `set_charset` with the numbers the
    properties have already. -/
def ReportsShown (link : StatusLink) : StatusCall → Prop
  | .query .. | .prepare .. => True
  | .execute index values answers => ∀ stmt, link.stmtAt index = some stmt →
      link.Shows (link.db.db.counts.reported (stmtExecuteImpl values stmt answers).1)
  | .selectDb database answers => link.AnsweredAsShown (useDatabaseSql database) answers
  | .setCharset charset answers => link.AnsweredAsShown (setCharsetSql charset) answers

/-! ### What a call leaves in the handle -/

theorem db_bindValues (index : ℕ) (values : List (Option ParameterBinding)) (stmt : MyliteStmt) :
    (bindValues index values stmt).2.db = stmt.db := by
  have hbind : ∀ (index : ℕ) (value : Option ParameterBinding) (stmt : MyliteStmt),
      (stmt.bind index value).2.db = stmt.db := by
    intro index value stmt
    cases value with
    | none => rfl
    | some value =>
      unfold MyliteStmt.bind
      dsimp only
      split <;> rfl
  induction values generalizing index stmt with
  | nil => rfl
  | cons value values ih =>
    simp only [bindValues]
    split
    · exact hbind index value stmt
    · exact (ih (index + 1) _).trans (hbind index value stmt)

theorem db_clearBindings (stmt : MyliteStmt) : stmt.clearBindings.2.db = stmt.db := by
  rw [MyliteStmt.clearBindings]
  split <;> rfl

theorem silent_columnCount (stmt : MyliteStmt) : Silent (fun _ => True) stmt.columnCount := by
  unfold MyliteStmt.columnCount
  exact .ite (fun _ => silent_ask rfl) fun _ => .pure trivial

/-- All rows of a statement. -/
theorem counted_stepRows {stepped : Result × MyliteStmt} {c : Counts}
    (h : stepped.2.db.counts = c) : Counted c (stepRows stepped) := by
  refine .loopFrom (I := fun stepped c => stepped.2.db.counts = c) h ?_
  intro stepped c h
  refine .ite (fun _ => ?_) fun _ => .pure h
  exact .bind (MyliteStmt.counted_myliteStep h) fun _ _ h => .pure h

/-- An executed statement leaves the numbers that were answered. -/
theorem counted_stmtExecuteImpl (values : List (Option ParameterBinding)) {stmt : MyliteStmt}
    {c : Counts} (h : stmt.db.counts = c) : Counted c (stmtExecuteImpl values stmt) := by
  unfold stmtExecuteImpl
  refine .bind (MyliteStmt.counted_myliteReset h) fun reset c hreset => ?_
  have hbound : (bindValues 1 values reset.2.clearBindings.2).2.db.counts = c := by
    rw [db_bindValues, db_clearBindings]
    exact hreset
  refine .ite (fun _ => .pure hbound) fun _ => ?_
  refine .bind (MyliteStmt.counted_myliteStep hbound) fun stepped c hstepped => ?_
  refine .bind (Silent.under (silent_columnCount stepped.2) c) fun _ c' hc => ?_
  obtain ⟨-, rfl⟩ := hc
  exact .bind (counted_stepRows hstepped) fun last c hlast => .pure hlast

/-- A preparation leaves the numbers alone. -/
theorem counts_of_prepares {db : MyliteDb} {r : Preparation}
    (h : Prepares (db.withDiagnostics setOk) r) : r.db.db.counts = db.db.counts := by
  cases h <;> rfl

variable {link link' : StatusLink}

variable {sql : Text} {answers : ConnectionAnswers}

theorem mirrors_syncStatus (link : StatusLink) : link.syncStatus.Mirrors := ⟨rfl, rfl⟩

theorem mirrors_of_queryImpl {stmtAnswers : StatementAnswers}
    (h : link.queryImpl sql answers stmtAnswers = some link') : link'.Mirrors := by
  unfold queryImpl execQueryImpl at h
  split at h
  · obtain ⟨executed, -, rfl⟩ := Option.map_eq_some_iff.mp h
    exact mirrors_syncStatus executed
  · obtain ⟨prepared, -, h⟩ := Option.bind_eq_some_iff.mp h
    split at h
    · cases h
    · obtain ⟨stmt, -, h⟩ := Option.bind_eq_some_iff.mp h
      obtain ⟨last, -, h⟩ := Option.bind_eq_some_iff.mp h
      split at h
      · cases h
      · obtain rfl := Option.some.inj h
        exact mirrors_syncStatus _

theorem mirrors_of_prepareImpl (hlink : link.Mirrors)
    (h : link.prepareImpl sql answers = some link') : link'.Mirrors := by
  obtain ⟨prepared, hprepared, h⟩ := Option.bind_eq_some_iff.mp h
  split at h
  · obtain rfl := Option.some.inj h
    have hprepares := (only_prepareImpl link.db sql answers).2 prepared hprepared
    rw [Mirrors, counts_of_prepares hprepares]
    exact hlink
  · cases h

/-- `mylite_exec` behind the back of the properties. -/
theorem mirrors_exec_iff (h : link.exec sql false false answers = some link') :
    link'.Mirrors ↔ link.AnsweredAsShown sql answers := by
  obtain ⟨executed, hexecuted, h⟩ := Option.bind_eq_some_iff.mp h
  split at h
  · next hok =>
    obtain rfl := Option.some.inj h
    have hanswered := answered_execImpl link.db (cString sql) false false answers executed
      hexecuted hok
    constructor
    · rintro hmirrors c hc
      obtain rfl := Option.some.inj (hanswered.symm.trans hc)
      exact hmirrors
    · intro hshown
      exact hshown _ hanswered
  · cases h

theorem mirrors_execute_iff {index : ℕ} {values : List (Option ParameterBinding)}
    {answers : StatementAnswers} (h : link.execute index values answers = some link') :
    link'.Mirrors ↔ link.ReportsShown (.execute index values answers) := by
  obtain ⟨stmt, hstmt, h⟩ := Option.bind_eq_some_iff.mp h
  obtain ⟨executed, hexecuted, h⟩ := Option.bind_eq_some_iff.mp h
  split at h
  · obtain rfl := Option.some.inj h
    have hdb : stmt.db.counts = link.db.db.counts := by
      obtain ⟨_, -, rfl⟩ := Option.map_eq_some_iff.mp hstmt
      rfl
    have hcounted : executed.2.db.counts =
        link.db.db.counts.reported (stmtExecuteImpl values stmt answers).1 :=
      counted_stmtExecuteImpl values hdb answers _ (after_observe _ _ _) executed hexecuted
    constructor
    · rintro hmirrors stmt' hstmt'
      obtain rfl := Option.some.inj (hstmt.symm.trans hstmt')
      rw [← hcounted]
      exact hmirrors
    · intro hshown
      have hshown := hshown stmt hstmt
      rw [← hcounted] at hshown
      exact hshown
  · cases h

/-! ### One call and whole runs -/

theorem mirrors_next_iff {call : StatusCall} (hlink : link.Mirrors)
    (h : link.next call = some link') : link'.Mirrors ↔ link.ReportsShown call := by
  cases call with
  | query sql answers stmtAnswers => exact iff_of_true (mirrors_of_queryImpl h) trivial
  | prepare sql answers => exact iff_of_true (mirrors_of_prepareImpl hlink h) trivial
  | execute index values answers => exact mirrors_execute_iff h
  | selectDb database answers | setCharset charset answers => exact mirrors_exec_iff h

/-- **Status.** On a link that has connected, the runs of successful calls in which the properties
    are those of the handle in every state reached are the runs in which the server answers every
    executed statement, `select_db` and `set_charset` with the numbers shown already. -/
theorem mirrors_iff (link : StatusLink) (db : MyliteDb) (calls : List StatusCall)
    (link' : StatusLink) :
    Run (Into Mirrors (ofOption next)) (link.openLink db) calls link' ↔
      Run (Restrict ReportsShown (ofOption next)) (link.openLink db) calls link' := by
  have hopen : (link.openLink db).Mirrors := mirrors_syncStatus _
  exact run_into_iff_restrict (P := Mirrors) (fun hlink h => mirrors_next_iff hlink h) hopen calls

/-- A client library that prepares every statement. -/
def preparing : ∀ c, ConnectionReply c
  | .stmtInit | .stmtPrepare _ => true
  | c => refusing c

/-- A server that has inserted a row. -/
def inserting : ∀ c, Reply c
  | .insertId => (7 : ℕ)
  | .affectedRows => (1 : ℕ)
  | c => Reply.success c

/-- An insertion is prepared and executed: the properties do not show it. -/
theorem not_mirrors_insert :
    let calls : List StatusCall :=
      [.prepare (ascii "INSERT t SET a=1") (List.replicate 4 preparing),
      .execute 0 [] (List.replicate 9 inserting)]
    ∃ link', Run (ofOption next) (openLink { db := {} } {}) calls link' ∧ link'.affectedRows = 0 ∧
      link'.insertId = ascii "0" ∧ link'.db.db.counts = ⟨1, 7⟩ ∧ ¬link'.Mirrors := by
  intro calls
  have hend : (calls.foldlM next (openLink { db := {} } {})).map
      (fun link' => (link'.affectedRows, link'.insertId, link'.db.db.counts)) =
        some (0, ascii "0", ⟨1, 7⟩) := by decide
  obtain ⟨link', hrun, hvalues⟩ := Option.map_eq_some_iff.mp hend
  obtain ⟨hrows, hid, hcounts⟩ : link'.affectedRows = 0 ∧ link'.insertId = ascii "0" ∧
      link'.db.db.counts = ⟨1, 7⟩ := by simpa using hvalues
  refine ⟨link', run_of_foldlM next hrun, hrows, hid, hcounts, ?_⟩
  rintro ⟨hshown, -⟩
  rw [hcounts, hrows] at hshown
  cases hshown

end StatusLink

end MyLite.Php

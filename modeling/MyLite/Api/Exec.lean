import MyLite.Api.Statement
import MyLite.Handle.CurrentSchema
import MyLite.Lib.Environment

namespace MyLite.Api

open MyLite.Lib MyLite.Sql MyLite.Policy
open MyLite.Handle (updateCurrentSchemaAfterSuccessfulSql)

/-!
# Direct execution and preparation over any backend

`mylite_exec`, `mylite_prepare` and `mylite_close` of `database.cc` as dialogues with the client
library, the allocator and the callback of the caller.  Nothing is assumed of the answers.  The
callback gets the handle and may use it, so its answer has the handle as it leaves it.

* `ConnectionCall`, `ConnectionReply` — the calls and their answers.
* `MyliteDb` — the members of `mylite_db` that are read or written, with the statements of the
  handle.
* `execImpl`, `prepareImpl`, `myliteClose` — with their parts.

A text is given by its bytes, `mylite_exec` gets those up to the first zero.  An exception out of
`new`, which does not return to the caller, is left out.
-/

/-! ### The handle -/

/-- `mylite_db`, with the statements of the handle. -/
structure MyliteDb where
  db : Db := {}
  currentSchema : Text := []
  activeStatementCount : ℕ := 0
  statements : List MyliteStmt := []

namespace MyliteDb

/-- `mylite_errcode`. -/
def errcode (db : MyliteDb) : Result := db.db.diagnostics.errcode

/-- `mylite_errmsg`. -/
def errmsg (db : MyliteDb) : Text := db.db.diagnostics.errmsg

/-- The handle with other diagnostics. -/
def withDiagnostics (db : MyliteDb) (diagnostics : Diagnostics) : MyliteDb :=
  { db with db := { db.db with diagnostics := diagnostics } }

end MyliteDb

/-! ### The backend -/

/-- A row of a result, with `none` for `NULL`. -/
abbrev QueryRow := List (Option Text)

/-- The calls of a handle, with their arguments. -/
inductive ConnectionCall
  | query (sql : Text)
  | affectedRows
  | insertId
  /-- `mysql_store_result`, with `mysql_num_fields` and `mysql_fetch_fields` of the result. -/
  | storeResult
  | fieldCount
  | fetchRow
  | freeResult
  | nextResult
  /-- The caller's function. -/
  | callback (db : MyliteDb) (columnCount : ℕ) (values : QueryRow) (columnNames : List Text)
  /-- `mysql_errno`, `mysql_sqlstate` and `mysql_error`. -/
  | connectionError
  | stmtInit
  | stmtAttrSet
  | stmtPrepare (sql : Text)
  | stmtParamCount
  | stmtClose
  /-- `mysql_stmt_errno`, `mysql_stmt_sqlstate` and `mysql_stmt_error`. -/
  | stmtError
  /-- `malloc`, for a copy of an error text. -/
  | malloc (size : ℕ)
  /-- `close_connection` and `release_runtime`. -/
  | release

/-- The answers; a call that returns zero on success is answered by `true`, and a result by the
    names of its columns. -/
def ConnectionReply : ConnectionCall → Type
  | .query _ | .stmtInit | .stmtPrepare _ | .malloc _ => Bool
  | .affectedRows | .insertId | .fieldCount | .stmtParamCount => ℕ
  | .storeResult => Option (List Text)
  | .fetchRow => Option QueryRow
  | .freeResult | .stmtAttrSet | .stmtClose | .release => Unit
  | .nextResult => NextResult
  | .callback _ _ _ _ => ℤ × MyliteDb
  | .connectionError | .stmtError => ClientError

/-- A program over the connection of a handle. -/
abbrev Conversation (α : Type) : Type := Dialogue ConnectionReply α

/-- A call and its answer. -/
abbrev ConnectionEvent : Type := Σ c, ConnectionReply c

/-- One call. -/
def tell (c : ConnectionCall) : Conversation (ConnectionReply c) := Dialogue.ask c

/-- `mysql_query`. -/
def mysqlQuery (sql : Text) : Conversation Bool := tell (.query sql)

/-- `mysql_affected_rows`. -/
def mysqlAffectedRows : Conversation ℕ := tell .affectedRows

/-- `mysql_insert_id`. -/
def mysqlInsertId : Conversation ℕ := tell .insertId

/-- `mysql_store_result`. -/
def mysqlStoreResult : Conversation (Option (List Text)) := tell .storeResult

/-- `mysql_field_count`. -/
def mysqlFieldCount : Conversation ℕ := tell .fieldCount

/-- `mysql_fetch_row`. -/
def mysqlFetchRow : Conversation (Option QueryRow) := tell .fetchRow

/-- `mysql_free_result`. -/
def mysqlFreeResult : Conversation Unit := tell .freeResult

/-- `mysql_next_result`. -/
def mysqlNextResult : Conversation NextResult := tell .nextResult

variable (db : MyliteDb)

/-- The caller's function. -/
def callCallback (columnCount : ℕ) (values : QueryRow) (columnNames : List Text) :
    Conversation (ℤ × MyliteDb) :=
  tell (.callback db columnCount values columnNames)

/-- `mysql_errno`, `mysql_sqlstate` and `mysql_error`. -/
def mysqlError : Conversation ClientError := tell .connectionError

/-- `mysql_stmt_init`. -/
def mysqlStmtInit : Conversation Bool := tell .stmtInit

/-- `mysql_stmt_attr_set`; its result is not looked at. -/
def mysqlStmtAttrSet : Conversation Unit := tell .stmtAttrSet

/-- `mysql_stmt_prepare`. -/
def mysqlStmtPrepare (sql : Text) : Conversation Bool := tell (.stmtPrepare sql)

/-- `mysql_stmt_param_count`. -/
def mysqlStmtParamCount : Conversation ℕ := tell .stmtParamCount

/-- `mysql_stmt_close`; its result is not looked at. -/
def mysqlStmtClose : Conversation Unit := tell .stmtClose

/-- `mysql_stmt_errno`, `mysql_stmt_sqlstate` and `mysql_stmt_error`. -/
def preparedStmtError : Conversation ClientError := tell .stmtError

/-- `malloc`. -/
def malloc (size : ℕ) : Conversation Bool := tell (.malloc size)

/-! ### Errors -/

namespace MyliteDb

/-- `set_error`, in front of a `return`. -/
def failWith (db : MyliteDb) (code : Result) (message : String) : Result × MyliteDb :=
  (code, db.withDiagnostics (setError code (ascii message)))

/-- `set_mariadb_error`, in front of a `return MYLITE_ERROR`. -/
def failWithMariadbError (db : MyliteDb) : Conversation (Result × MyliteDb) := do
  let e ← mysqlError
  pure (.error, db.withDiagnostics (setMariadbError e))

/-- `reject_unsupported_sql_policy`. -/
def rejectUnsupportedSqlPolicy (db : MyliteDb) (sql : Text) : Result × MyliteDb :=
  match Policy.rejectUnsupportedSqlPolicy db.currentSchema sql with
  | some message => db.failWith .error message
  | none => (.ok, db)

end MyliteDb

/-- What `mylite_exec` leaves: its result, the text in `*errmsg`, and the handle. -/
structure Executed where
  code : Result
  errmsg : Option Text
  db : MyliteDb

/-- `copy_error_message`; `wanted` is `errmsg != nullptr`. -/
def copyErrorMessage (wanted : Bool) : Conversation Executed :=
  if !wanted then pure ⟨db.errcode, none, db⟩
  else do
    let allocated ← malloc (db.errmsg.length + 1)
    if allocated then pure ⟨db.errcode, some db.errmsg, db⟩ else pure ⟨.nomem, none, db⟩

/-! ### Results -/

/-- `INT_MAX`. -/
def intMax : ℕ := 2 ^ 31 - 1

/-- A turn of the loop of `drain_remaining_query_results`; `none` goes on. -/
def drainQueryTurn : Conversation (Option Bool) := do
  let next ← mysqlNextResult
  match next with
  | .noMore => pure (some true)
  | .failed => pure (some false)
  | .ok => do
    let stored ← mysqlStoreResult
    match stored with
    | some _ => do
      mysqlFreeResult
      pure none
    | none => do
      let count ← mysqlFieldCount
      if count ≠ 0 then pure (some false) else pure none

/-- The loop of `drain_remaining_query_results`; `false` where it sets an error. -/
def drainQueryLoop : Conversation Bool :=
  Dialogue.loopFrom (fun _ : Unit => do
    let ended ← drainQueryTurn
    pure (ended.elim (.inl ()) .inr)) ()

/-- `drain_remaining_query_results`. -/
def drainRemainingQueryResults : Conversation (Result × MyliteDb) := do
  let drained ← drainQueryLoop
  if drained then pure (.ok, db) else db.failWithMariadbError

variable (hasCallback : Bool) (columnNames : List Text)

/-- The call of the callback for a row: whether it asks for the end, and the handle then. -/
def emitRow (db : MyliteDb) (row : QueryRow) : Conversation (Bool × MyliteDb) :=
  if hasCallback then do
    let answer ← callCallback db columnNames.length row columnNames
    pure (answer.1 ≠ 0, answer.2)
  else pure (false, db)

/-- The loop of `store_and_emit_result` over the rows: whether the callback ended it. -/
def emitRows (db : MyliteDb) : Conversation (Bool × MyliteDb) :=
  Dialogue.loopFrom (fun db => do
    let row ← mysqlFetchRow
    match row with
    | none => pure (.inr (false, db))
    | some row => do
      let emitted ← emitRow hasCallback columnNames db row
      if emitted.1 then pure (.inr emitted) else pure (.inl emitted.2)) db

/-- `store_and_emit_result` behind a result set. -/
def emitResult (db : MyliteDb) : Conversation (Result × MyliteDb) :=
  if intMax < columnNames.length then do
    mysqlFreeResult
    pure (db.failWith .error "result has too many columns")
  else do
    let emitted ← emitRows hasCallback columnNames db
    mysqlFreeResult
    let drained ← drainRemainingQueryResults emitted.2
    if emitted.1 then pure (drained.2.failWith .error "query callback requested abort")
    else pure drained

/-- `store_and_emit_result`, with `*has_result`. -/
def storeAndEmitResult (db : MyliteDb) :
    Conversation (Bool × Result × MyliteDb) := do
  let stored ← mysqlStoreResult
  match stored with
  | none => do
    let count ← mysqlFieldCount
    if count ≠ 0 then do
      let failed ← db.failWithMariadbError
      pure (false, failed)
    else do
      let drained ← drainRemainingQueryResults db
      pure (false, drained)
  | some columnNames => do
    let emitted ← emitResult hasCallback columnNames db
    pure (true, emitted)

/-! ### The three functions -/

/-- The end of `exec_impl`. -/
def finishExec (sql : Text) (hasResult : Bool) (affectedRows insertId : ℕ) : Executed where
  code := .ok
  errmsg := none
  db := { db with
    currentSchema := updateCurrentSchemaAfterSuccessfulSql db.currentSchema sql
    db := { db.db with
      changes := if hasResult then 0 else MyliteStmt.changesOf affectedRows
      lastInsertId := insertId } }

/-- `exec_impl` behind the policy gate. -/
def runQuery (sql : Text) (hasCallback wantsErrmsg : Bool) :
    Conversation Executed := do
  let sent ← mysqlQuery sql
  if !sent then do
    let failed ← db.failWithMariadbError
    copyErrorMessage failed.2 wantsErrmsg
  else do
    let affectedRows ← mysqlAffectedRows
    let insertId ← mysqlInsertId
    let emitted ← storeAndEmitResult hasCallback db
    if emitted.2.1 ≠ .ok then copyErrorMessage emitted.2.2 wantsErrmsg
    else pure (finishExec emitted.2.2 sql emitted.1 affectedRows insertId)

/-- `exec_impl`. -/
def execImpl (sql : Text) (hasCallback wantsErrmsg : Bool) : Conversation Executed :=
  let gated := (db.withDiagnostics setOk).rejectUnsupportedSqlPolicy sql
  if gated.1 ≠ .ok then copyErrorMessage gated.2 wantsErrmsg
  else runQuery gated.2 sql hasCallback wantsErrmsg

/-- What `mylite_prepare` leaves: its result, `*out_stmt`, and the handle. -/
structure Preparation where
  code : Result
  stmt : Option MyliteStmt
  db : MyliteDb

/-- The loop of `prepare_impl` over the parameters. -/
def bindNullValues : List ℕ → MyliteStmt → Result × MyliteStmt
  | [], stmt => (.ok, stmt)
  | index :: indices, stmt =>
    let bound := stmt.bind index (some .null)
    if bound.1 ≠ .ok then bound else bindNullValues indices bound.2

/-- The statement with as many parameters as the server has found. -/
def unboundStmt (count : ℕ) : MyliteStmt :=
  { db := db.db, parameters := List.replicate count .null }

/-- The end of `prepare_impl`. -/
def finishPrepare (stmt : MyliteStmt) : Preparation where
  code := .ok
  stmt := some stmt
  db := { db.withDiagnostics setOk with
    activeStatementCount := (db.activeStatementCount + 1) % 2 ^ 32
    statements := db.statements ++ [stmt] }

/-- `prepare_impl` behind the policy gate. -/
def prepareStatement (sql : Text) : Conversation Preparation := do
  let initialized ← mysqlStmtInit
  if !initialized then
    let failed := db.failWith .nomem "statement could not be allocated"
    pure ⟨failed.1, none, failed.2⟩
  else do
    mysqlStmtAttrSet
    let prepared ← mysqlStmtPrepare sql
    if !prepared then do
      let e ← preparedStmtError
      mysqlStmtClose
      pure ⟨.error, none, db.withDiagnostics (setMariadbError e)⟩
    else do
      let count ← mysqlStmtParamCount
      let bound := bindNullValues (List.range' 1 count) (unboundStmt db count)
      if bound.1 ≠ .ok then do
        mysqlStmtClose
        pure ⟨bound.1, none, db⟩
      else pure (finishPrepare db bound.2)

/-- `prepare_impl`. -/
def prepareImpl (sql : Text) : Conversation Preparation :=
  let gated := (db.withDiagnostics setOk).rejectUnsupportedSqlPolicy sql
  if gated.1 ≠ .ok then pure ⟨.error, none, gated.2⟩
  else if tokenEquals (identifierTokenAt (collectSqlPolicyTokens sql) 0) "CALL" then
    let failed := gated.2.failWith .error "prepared CALL statements are not supported by MyLite"
    pure ⟨failed.1, none, failed.2⟩
  else prepareStatement gated.2 sql

/-- `mylite_close`: the handle is left where it is not deleted. -/
def myliteClose : Conversation (Result × Option MyliteDb) :=
  if 0 < db.activeStatementCount then
    pure ((db.failWith .busy "database has active statements").map id some)
  else do
    let _ ← tell .release
    pure (.ok, none)

end MyLite.Api

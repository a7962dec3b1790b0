import MyLite.Client.Connection

namespace MyLite.Client

/-!
# The embedded client library: prepared statements

`MYSQL_STMT` and the functions of `libmysql.c` that `mylite_stmt` calls.  A function that takes
a statement also works on its connection, so both are passed together as a `Session`.  Functions
that return 0 on success return `true` here.
-/

open Connection

/-- `stmt->state`. -/
inductive StmtState
  | initDone | prepareDone | executeDone | fetchDone
  deriving DecidableEq, Repr

/-- `stmt->read_row_func`.  The buffered reader is set by `mysql_stmt_store_result` only, whose
    result MyLite frees at once. -/
inductive ReadRow
  | noResultSet | noData | unbuffered
  deriving DecidableEq, Repr

/-- `MYSQL_STMT`. -/
structure Stmt where
  state : StmtState := .initDone
  /-- `stmt->field_count != 0`. -/
  hasFields : Bool := false
  readRow : ReadRow := .noResultSet
  /-- `stmt->last_errno != 0`. -/
  lastError : Bool := false
  deriving DecidableEq, Repr

/-- A statement and the connection it belongs to. -/
structure Session (Row : Type) where
  conn : Connection Row
  stmt : Stmt
  deriving DecidableEq, Repr

variable {Row : Type}

namespace Session

variable (s : Session Row)

/-- `state > MYSQL_STMT_PREPARE_DONE`. -/
def wasExecuted : Bool :=
  s.stmt.state == .executeDone || s.stmt.state == .fetchDone

/-- The pending result is thrown away by `reset_stmt_handle`, if the statement takes it for its
    own: it has fields, and the connection is not ready. -/
def flushPending : Session Row :=
  if s.wasExecuted && s.stmt.hasFields && s.conn.status != .ready then
    { s with conn := { s.conn.flushUseResult with status := .ready } }
  else s

/-- `reset_stmt_handle` without `RESET_ALL_BUFFERS` and `RESET_SERVER_SIDE`. -/
def resetHandle (clearError : Bool) : Session Row :=
  if s.stmt.state = .initDone then s
  else
    let s := s.flushPending
    { s with stmt := { s.stmt with
        readRow := .noResultSet, state := .prepareDone,
        lastError := s.stmt.lastError && !clearError } }

/-- `mysql_stmt_next_result` from its call of `mysql_next_result` on. -/
def takeNextResult : Next × Session Row :=
  match s.conn.nextResult with
  | (.ok, c) => (.ok, { conn := c.forStatement, stmt := { s.stmt with
      state := .executeDone, hasFields := c.hasFields,
      readRow := if c.hasFields then .unbuffered else s.stmt.readRow } })
  | (.error, c) => (.error, { conn := c, stmt := { s.stmt with lastError := true } })
  | (.noMore, c) => (.noMore, { s with conn := c })

/-- `mysql_stmt_next_result`. -/
def stmtNextResult : Next × Session Row :=
  if s.stmt.lastError then (.error, s)
  else (if s.conn.moreResults then s.resetHandle false else s).takeNextResult

/-- `while (mysql_more_results(mysql) && mysql_stmt_next_result(stmt) == 0);`, with as many turns
    as there are answers. -/
def skipResults : ℕ → Session Row → Session Row
  | 0, s => s
  | turns + 1, s =>
    if s.conn.moreResults then
      match s.stmtNextResult with
      | (.ok, s) => skipResults turns s
      | (_, s) => s
    else s

/-- `reset_stmt_handle` with `RESET_ALL_BUFFERS`, up to the point where the server is asked to
    reset or close the statement. -/
def resetAllBuffers : Session Row :=
  if s.stmt.state = .initDone then s
  else
    let executed := s.wasExecuted
    let s := s.flushPending
    let s := { s with stmt := { s.stmt with readRow := .noResultSet } }
    if executed then skipResults (s.conn.firstData.length + 1) s else s

/-- `mysql_stmt_free_result`. -/
def freeResult : Session Row := s.resetHandle true

variable (answers : List (Answer Row))

/-- `mysql_stmt_reset`; `answer` is what the server answers to `COM_STMT_RESET`. -/
def stmtReset (answer : Answer Row) : Bool × Session Row :=
  if s.stmt.state = .initDone then (true, s)
  else
    let s := s.resetAllBuffers
    match s.conn.advancedCommand [answer] with
    | (sent, c) =>
      if sent && !answer.isError then
        (true, { conn := c, stmt := { s.stmt with state := .prepareDone, lastError := false } })
      else (false, { conn := c, stmt := { s.stmt with state := .initDone, lastError := true } })

/-- `mysql_stmt_close`. -/
def stmtClose : Connection Row :=
  if s.stmt.state = .initDone then s.conn
  else
    let s := s.resetAllBuffers
    (s.conn.advancedCommand []).2

/-- `mysql_stmt_prepare` of a new statement, up to the field count `emb_read_prepare_result`
    reads.  The answers are empty where the statement has no result set. -/
def stmtPrepare : Bool × Session Row :=
  match s.conn.advancedCommand answers with
  | (false, c) => (false, { conn := c, stmt := { s.stmt with lastError := true } })
  | (true, c) =>
    if answers.isEmpty then (true, { conn := c, stmt := { s.stmt with state := .prepareDone } })
    else match c.readQueryResult with
      | (false, c) => (false, { conn := c, stmt := { s.stmt with lastError := true } })
      | (true, c) => (true, {
          conn := { c with status := .ready, curData := none }
          stmt := { s.stmt with state := .prepareDone, hasFields := c.hasFields } })

/-- `emb_stmt_execute`. -/
def embStmtExecute : Bool × Connection Row :=
  match s.conn.advancedCommand answers with
  | (false, c) => (false, c)
  | (true, c) =>
    match c.readQueryResult with
    | (false, c) => (false, c)
    | (true, c) => (true, c.forStatement)

/-- `mysql_stmt_execute`.  It fails on an error of the statement that was there before, if
    `reset_stmt_handle` did not clear it. -/
def stmtExecute : Bool × Session Row :=
  let s := s.resetHandle true
  match s.embStmtExecute answers with
  | (false, c) => (false, { conn := c, stmt := { s.stmt with lastError := true } })
  | (true, c) => (!s.stmt.lastError, { conn := c, stmt := { s.stmt with
      state := .executeDone, hasFields := s.stmt.hasFields || c.hasFields,
      readRow := if c.hasFields then .unbuffered else s.stmt.readRow } })

/-- `stmt_read_row_unbuffered`. -/
def readRowUnbuffered (c : Connection Row) (ok : Bool) : Fetched Row × Connection Row :=
  if c.status ≠ .statementGetResult then (.error, c)
  else match c.unbufferedFetch ok with
    | (.row row, c) => (.row row, c)
    | (fetched, c) => (fetched, { c with status := .ready })

/-- `(*stmt->read_row_func)(stmt, &row)`. -/
def readRowFunc (ok : Bool) : Fetched Row × Connection Row :=
  match s.stmt.readRow with
  | .noResultSet => (.error, s.conn)
  | .noData => (.noData, s.conn)
  | .unbuffered => readRowUnbuffered s.conn ok

/-- `mysql_stmt_fetch`. -/
def stmtFetch (ok : Bool) : Fetched Row × Session Row :=
  match readRowFunc s ok with
  | (.row row, c) => (.row row, { conn := c, stmt := { s.stmt with state := .fetchDone } })
  | (.noData, c) => (.noData, { conn := c, stmt := { s.stmt with
      state := .prepareDone, readRow := .noData } })
  | (.error, c) => (.error, { conn := c, stmt := { s.stmt with
      state := .prepareDone, readRow := .noResultSet, lastError := true } })

/-- `mysql_stmt_store_result` for a result set without a cursor.  `bind` is `false` where the
    set-up of its dummy columns fails. -/
def stmtStoreResult (bind : Bool) : Bool × Session Row :=
  if !s.stmt.hasFields then (true, s)
  else if !s.wasExecuted then (false, { s with stmt := { s.stmt with lastError := true } })
  else if s.stmt.lastError then (false, s)
  else if s.conn.status ≠ .statementGetResult || !bind then
    (false, { s with stmt := { s.stmt with lastError := true } })
  else match s.conn.readRows with
    | (true, c) => (true, { s with conn := { c with status := .ready } })
    | (false, c) =>
      (false, { conn := { c with status := .ready }, stmt := { s.stmt with lastError := true } })

end Session

end MyLite.Client

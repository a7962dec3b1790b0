import MyLite.Client.Statement

namespace MyLite.Prepared

open MyLite.Client

/-!
# Prepared statements of `database.cc`

`mylite_step`, `mylite_reset`, `mylite_finalize` and `mylite_prepare`, on the client library's
statement and connection.  What the code cannot know before a call is an input of the call: the
server's answers, and whether an allocation or a set-up inside the backend succeeds.  Values of
parameters and columns, and the error texts, are left out.
-/

/-- `mylite_stmt`. -/
structure MyliteStmt where
  stmt : Stmt
  resultBindsDirty : Bool := false
  executed : Bool := false
  hasResult : Bool := false
  hasRow : Bool := false
  deriving DecidableEq, Repr

/-- A statement and the connection of its handle. -/
structure Handle (Row : Type) where
  conn : Connection Row
  stmt : MyliteStmt
  deriving DecidableEq, Repr

/-- What `mylite_step` returns, with the row a caller then reads. -/
inductive StepResult (Row : Type)
  | row (row : Row)
  | done
  | error
  | nomem
  deriving DecidableEq, Repr

/-- How the parts of `initialize_statement_results` end: the metadata is allocated, the column
    buffers are allocated, the columns are bound. -/
structure Setup where
  metadata : Bool := true
  buffers : Bool := true
  bind : Bool := true
  deriving DecidableEq, Repr

/-- Nothing in the set-up fails. -/
def Setup.succeeds (i : Setup) : Bool := i.metadata && i.buffers && i.bind

/-- What the backend does in one call of `mylite_step`. -/
structure StepInput (Row : Type) where
  /-- `mysql_stmt_bind_param`. -/
  bindParameters : Bool := true
  /-- The set-up of results in front of the execution. -/
  setup : Setup := {}
  /-- The server's answers to `COM_STMT_EXECUTE`. -/
  answers : List (Answer Row)
  /-- The set-up of results behind the execution. -/
  setupAfter : Setup := {}
  /-- `mysql_stmt_bind_result` in `refresh_dirty_result_binds`. -/
  refreshBinds : Bool := true
  /-- `mysql_stmt_fetch` reads from the server. -/
  fetch : Bool := true
  /-- The row does not fit into its buffers. -/
  truncated : Bool := false
  /-- Larger buffers are allocated and filled. -/
  fetchColumns : Bool := true
  /-- Some column got its larger buffer before that failed. -/
  someColumns : Bool := false
  /-- `mysql_stmt_store_result` sets up its columns. -/
  storeBind : Bool := true
  deriving DecidableEq, Repr

variable {Row : Type}

namespace Handle

variable (h : Handle Row) (i : StepInput Row)

/-- The client library's view of the handle. -/
def session : Session Row := ⟨h.conn, h.stmt.stmt⟩

/-- The handle after a call into the client library. -/
def withSession (s : Session Row) : Handle Row :=
  { conn := s.conn, stmt := { h.stmt with stmt := s.stmt } }

/-- `set_stmt_error`. -/
def withError : Handle Row :=
  { h with stmt := { h.stmt with stmt := { h.stmt.stmt with lastError := true } } }

/-- `release_statement_results`. -/
def releaseStatementResults : Handle Row :=
  let h := if h.stmt.hasResult then h.withSession h.session.freeResult else h
  { h with stmt := { h.stmt with resultBindsDirty := false, hasResult := false, hasRow := false } }

/-- `initialize_statement_results` behind the release; `none` is `MYLITE_OK`. -/
def setUpResults (i : Setup) : Option (StepResult Row) × Handle Row :=
  if !h.stmt.stmt.hasFields then (none, { h with stmt := { h.stmt with hasResult := false } })
  else if !i.metadata then (some .error, h.withError)
  else if !i.buffers then (some .nomem, h)
  else if !i.bind then (some .error, h.withError)
  else (none, { h with stmt := { h.stmt with hasResult := true } })

/-- `initialize_statement_results`. -/
def initializeStatementResults (releaseExistingResults : Bool) (i : Setup) :
    Option (StepResult Row) × Handle Row :=
  (if releaseExistingResults then h.releaseStatementResults else h).setUpResults i

/-- The loop of `drain_remaining_statement_results`: an answer is taken from the queue in every
    turn but the last. -/
def drainLoop (storeBind : Bool) : ℕ → Session Row → Bool × Session Row
  | 0, s => (true, s)
  | turns + 1, s =>
    match s.stmtNextResult with
    | (.noMore, s) => (true, s)
    | (.error, s) => (false, s)
    | (.ok, s) =>
      if !s.stmt.hasFields then drainLoop storeBind turns s
      else match s.stmtStoreResult storeBind with
        | (false, s) => (false, s)
        | (true, s) => drainLoop storeBind turns s.freeResult

/-- `drain_remaining_statement_results`. -/
def drainRemainingStatementResults (storeBind : Bool) : Bool × Handle Row :=
  match drainLoop storeBind (h.conn.firstData.length + 1) h.session with
  | (ok, s) => (ok, h.withSession s)

/-- `fetch_statement_row` on `MYSQL_NO_DATA`. -/
def endOfRows (storeBind : Bool) : StepResult Row × Handle Row :=
  let h := { h with stmt := { h.stmt with hasRow := false } }
  match h.drainRemainingStatementResults storeBind with
  | (false, h) => (.error, h)
  | (true, h) => (.done, { h with stmt := { h.stmt with hasResult := false } })

/-- `fetch_statement_row` on a row, with `fetch_truncated_statement_columns` where it does not
    fit. -/
def rowFetched (i : StepInput Row) (row : Row) : StepResult Row × Handle Row :=
  if i.truncated && !i.fetchColumns then
    (.error, { h with stmt := { h.stmt with resultBindsDirty := i.someColumns } })
  else
    (.row row, { h with stmt := { h.stmt with resultBindsDirty := i.truncated, hasRow := true } })

/-- `fetch_statement_row` behind `refresh_dirty_result_binds`. -/
def fetchBound (i : StepInput Row) : StepResult Row × Handle Row :=
  match h.session.stmtFetch i.fetch with
  | (.noData, s) => (h.withSession s).endOfRows i.storeBind
  | (.error, s) => (.error, h.withSession s)
  | (.row row, s) => (h.withSession s).rowFetched i row

/-- `fetch_statement_row`. -/
def fetchStatementRow (i : StepInput Row) : StepResult Row × Handle Row :=
  if h.stmt.resultBindsDirty && !i.refreshBinds then (.error, h.withError)
  else Handle.fetchBound { h with stmt := { h.stmt with resultBindsDirty := false } } i

/-- `mylite_step` behind a successful execution: a result that was not known before is set up. -/
def executionDone (i : Setup) : Option (StepResult Row) × Handle Row :=
  let h := { h with stmt := { h.stmt with executed := true } }
  if !h.stmt.hasResult && h.stmt.stmt.hasFields then h.initializeStatementResults false i
  else (none, h)

/-- The part of `mylite_step` that executes the statement; `none` where it goes on. -/
def executeStatement : Option (StepResult Row) × Handle Row :=
  if !i.bindParameters then (some .error, h.withError)
  else match h.initializeStatementResults true i.setup with
    | (some result, h) => (some result, h)
    | (none, h) =>
      match h.session.stmtExecute i.answers with
      | (false, s) => (some .error, h.withSession s)
      | (true, s) => (h.withSession s).executionDone i.setupAfter

/-- `mylite_step`. -/
def step : StepResult Row × Handle Row :=
  match if h.stmt.executed then (none, h) else h.executeStatement i with
  | (some result, h) => (result, h)
  | (none, h) => if h.stmt.hasResult then h.fetchStatementRow i else (.done, h)

/-- `mylite_reset`; `answer` is what the server answers to `COM_STMT_RESET`. -/
def reset (answer : Answer Row) : Bool × Handle Row :=
  let h := h.releaseStatementResults
  match h.session.stmtReset answer with
  | (false, s) => (false, h.withSession s)
  | (true, s) =>
    let h := h.withSession s
    (true, { h with
      stmt := { h.stmt with executed := false, hasResult := false, hasRow := false } })

/-- `mylite_finalize`, as far as the connection goes. -/
def finalize : Connection Row :=
  h.releaseStatementResults.session.stmtClose

end Handle

/-- `mylite_prepare` of a text the policy lets through. -/
def prepare (conn : Connection Row) (answers : List (Answer Row)) :
    Option MyliteStmt × Connection Row :=
  match Session.stmtPrepare ⟨conn, {}⟩ answers with
  | (false, s) => (none, s.stmtClose)
  | (true, s) => (some { stmt := s.stmt }, s.conn)

/-- A failure: neither a row nor `MYLITE_DONE`. -/
def StepResult.IsFailure : StepResult Row → Prop
  | .error | .nomem => True
  | _ => False

instance (result : StepResult Row) : Decidable result.IsFailure :=
  match result with
  | .row _ | .done => isFalse fun h => h
  | .error | .nomem => isTrue trivial

/-- The set-up of results fails, or it notes whether there is a result. -/
theorem setUpResults_cases (h : Handle Row) (i : Setup) :
    (∃ result h', h.setUpResults i = (some result, h') ∧ result.IsFailure ∧
      i.succeeds = false ∧ h'.conn = h.conn ∧ h'.stmt.executed = h.stmt.executed ∧
      h'.stmt.stmt.state = h.stmt.stmt.state) ∨
    (∃ h', h.setUpResults i = (none, h') ∧ h'.conn = h.conn ∧ h'.stmt.stmt = h.stmt.stmt ∧
      h'.stmt.executed = h.stmt.executed ∧ h'.stmt.hasResult = h.stmt.stmt.hasFields) := by
  rw [Handle.setUpResults]
  split_ifs with hf hm hb hbind
  · simp only [Bool.not_eq_true'] at hf
    exact .inr ⟨_, rfl, rfl, rfl, rfl, hf.symm⟩
  · exact .inl ⟨.error, _, rfl, trivial, by simp_all [Setup.succeeds], rfl, rfl, rfl⟩
  · exact .inl ⟨.nomem, _, rfl, trivial, by simp_all [Setup.succeeds], rfl, rfl, rfl⟩
  · exact .inl ⟨.error, _, rfl, trivial, by simp_all [Setup.succeeds], rfl, rfl, rfl⟩
  · simp only [Bool.not_eq_true', Bool.not_eq_false] at hf
    exact .inr ⟨_, rfl, rfl, rfl, rfl, hf.symm⟩

end MyLite.Prepared

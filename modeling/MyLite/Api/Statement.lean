import MyLite.Api.Diagnostics
import MyLite.Lib.Dialogue
import MyLite.Prepared.Metadata
import MyLite.Prepared.Parameters

namespace MyLite.Api

open MyLite.Lib MyLite.Sql
open MyLite.Prepared (FieldType Field ParameterBinding ValueType bytesParameter ulongMax)

/-!
# Prepared statements over any backend

The statement functions of `database.cc` as dialogues with the client library and the allocator.
Nothing is assumed of the answers, so a statement can meet every failure in every state.

* `BackendCall`, `Reply` — the calls and their answers.
* `MyliteStmt` — all members of `mylite_stmt`, and of its handle those that are written.
* `myliteStep`, `myliteReset` — with their parts; `call` — every function of the interface.
* `record` — a sequence of calls, with what was said and returned in each.

A buffer that is handed over is given by what it holds and how long it is, and a bind by the buffer.
-/

/-! ### The backend -/

/-- `MYSQL_FIELD`, as far as it is copied. -/
structure MysqlField where
  name : Option Text := none
  orgName : Option Text := none
  table : Option Text := none
  orgTable : Option Text := none
  type : FieldType := .null
  flags : ℕ := 0
  length : ℕ := 0

/-- What the client library writes through the bind of a column. -/
structure Cell where
  buffer : Text := []
  length : ℕ := 0
  isNull : Bool := false
  error : Bool := false

/-- What `mysql_stmt_fetch` returns: `MYSQL_NO_DATA`, an error, or a row, whole or with
    `MYSQL_DATA_TRUNCATED`. -/
inductive Fetch
  | noData
  | failed
  | row (truncated : Bool) (cells : List Cell)

/-- What `mysql_stmt_next_result` returns. -/
inductive NextResult
  | noMore | failed | ok

/-- The calls a statement makes, with their arguments. -/
inductive BackendCall
  | bindParam (binds : List ParameterBinding)
  | resultMetadata
  | fieldCount
  | bindResult (lengths : List ℕ)
  | execute
  | insertId
  | affectedRows
  | fetch
  | fetchColumn (bufferLength index : ℕ)
  | nextResult
  | storeResult
  | freeResult
  | freeMetadata
  | reset
  /-- `mysql_stmt_errno`, `mysql_stmt_sqlstate` and `mysql_stmt_error`. -/
  | stmtError
  /-- A buffer of this size is allocated. -/
  | allocate (size : ℕ)

/-- The answers; a call that returns zero on success is answered by `true`. -/
def Reply : BackendCall → Type
  | .bindParam _ | .bindResult _ | .execute | .storeResult | .freeResult | .reset => Bool
  | .allocate _ => Bool
  | .resultMetadata => Option (List MysqlField)
  | .fieldCount | .insertId | .affectedRows => ℕ
  | .fetch => Fetch
  | .fetchColumn _ _ => Option Cell
  | .nextResult => NextResult
  | .freeMetadata => Unit
  | .stmtError => ClientError

/-- A program over the backend. -/
abbrev Backend (α : Type) : Type := Dialogue Reply α

/-- A call and its answer. -/
abbrev Event : Type := Σ c, Reply c

/-- One call of the backend. -/
def ask (c : BackendCall) : Backend (Reply c) := Dialogue.ask c

/-- `mysql_stmt_bind_param`. -/
def mysqlStmtBindParam (binds : List ParameterBinding) : Backend Bool := ask (.bindParam binds)

/-- `mysql_stmt_result_metadata`. -/
def mysqlStmtResultMetadata : Backend (Option (List MysqlField)) := ask .resultMetadata

/-- `mysql_stmt_field_count`. -/
def mysqlStmtFieldCount : Backend ℕ := ask .fieldCount

/-- `mysql_stmt_bind_result`. -/
def mysqlStmtBindResult (lengths : List ℕ) : Backend Bool := ask (.bindResult lengths)

/-- `mysql_stmt_execute`. -/
def mysqlStmtExecute : Backend Bool := ask .execute

/-- `mysql_stmt_insert_id`. -/
def mysqlStmtInsertId : Backend ℕ := ask .insertId

/-- `mysql_stmt_affected_rows`. -/
def mysqlStmtAffectedRows : Backend ℕ := ask .affectedRows

/-- `mysql_stmt_fetch`. -/
def mysqlStmtFetch : Backend Fetch := ask .fetch

/-- `mysql_stmt_fetch_column`. -/
def mysqlStmtFetchColumn (bufferLength index : ℕ) : Backend (Option Cell) :=
  ask (.fetchColumn bufferLength index)

/-- `mysql_stmt_next_result`. -/
def mysqlStmtNextResult : Backend NextResult := ask .nextResult

/-- `mysql_stmt_store_result`. -/
def mysqlStmtStoreResult : Backend Bool := ask .storeResult

/-- `mysql_stmt_free_result`. -/
def mysqlStmtFreeResult : Backend Bool := ask .freeResult

/-- `mysql_stmt_reset`. -/
def mysqlStmtReset : Backend Bool := ask .reset

/-- `mysql_stmt_errno`, `mysql_stmt_sqlstate` and `mysql_stmt_error`. -/
def mysqlStmtError : Backend ClientError := ask .stmtError

/-- `buffer.assign`; `false` is `std::bad_alloc`. -/
def allocateBuffer (size : ℕ) : Backend Bool := ask (.allocate size)

/-- A call whose answer is not looked at, made where a condition holds. -/
def askIf (b : Bool) (c : BackendCall) : Backend Unit :=
  if b then do
    let _ ← ask c
    pure ()
  else pure ()

/-! ### Statements -/

/-- `ResultColumn`; `bufferLength` is that of its bind. -/
structure Column where
  fieldType : FieldType := .null
  flags : ℕ := 0
  name : Text := []
  orgName : Text := []
  table : Text := []
  orgTable : Text := []
  buffer : Text := []
  retiredBuffer : Text := []
  bufferLength : ℕ := 0
  length : ℕ := 0
  isNull : Bool := false
  error : Bool := false

/-- The members of `mylite_db` that a statement writes. -/
structure Db where
  diagnostics : Diagnostics := {}
  changes : ℕ := 0
  lastInsertId : ℕ := 0

/-- `mylite_stmt`. -/
structure MyliteStmt where
  db : Db := {}
  metadata : Option (List MysqlField) := none
  parameters : List ParameterBinding := []
  parameterBinds : List ParameterBinding := []
  columns : List Column := []
  resultBinds : List ℕ := []
  resultBindsDirty : Bool := false
  executed : Bool := false
  hasResult : Bool := false
  hasRow : Bool := false

namespace MyliteStmt

variable (s : MyliteStmt)

/-- The statement with other diagnostics on its handle. -/
def withDiagnostics (diagnostics : Diagnostics) : MyliteStmt :=
  { s with db := { s.db with diagnostics := diagnostics } }

/-- `set_mariadb_statement_error`, in front of a `return MYLITE_ERROR`. -/
def failWithStatementError : Backend (Result × MyliteStmt) := do
  let e ← mysqlStmtError
  pure (.error, s.withDiagnostics (setMariadbError e))

/-- `set_error`, in front of a `return`. -/
def failWith (code : Result) (message : String) : Result × MyliteStmt :=
  (code, s.withDiagnostics (setError code (ascii message)))

/-- The code that goes on behind a part that returned `MYLITE_OK`. -/
def andThen (r : Result × MyliteStmt) (next : MyliteStmt → Backend (Result × MyliteStmt)) :
    Backend (Result × MyliteStmt) :=
  if r.1 = .ok then next r.2 else pure r

/-- `release_statement_results`. -/
def releaseStatementResults : Backend MyliteStmt := do
  askIf s.hasResult .freeResult
  askIf s.metadata.isSome .freeMetadata
  pure { s with
    metadata := none, columns := [], resultBinds := [], resultBindsDirty := false
    hasResult := false, hasRow := false }

/-! ### Parameters -/

/-- The loop of `bind_parameters`. -/
def copyBinds (binds parameters : List ParameterBinding) : List ParameterBinding :=
  binds.mapIdx fun index bind => parameters.getD index bind

/-- `bind_parameters`. -/
def bindParameters : Backend (Result × MyliteStmt) :=
  if s.parameters.isEmpty then pure (.ok, s)
  else do
    let binds := copyBinds (s.parameterBinds.takeD s.parameters.length .null) s.parameters
    let bound ← mysqlStmtBindParam binds
    if bound then pure (.ok, { s with parameterBinds := binds })
    else failWithStatementError { s with parameterBinds := binds }

/-! ### Columns -/

/-- `k_initial_result_buffer_size` and the declared length bound the first buffer. -/
def initialCapacity (field : MysqlField) : ℕ := min (max field.length 1) 4096

/-- `allocate_column_buffer`. -/
def allocateColumnBuffer (bufferLength : ℕ) : Backend Bool :=
  if bufferLength = ulongMax then pure false else allocateBuffer (bufferLength + 1)

/-- What `initialize_statement_results` copies of a field. -/
def describe (column : Column) (field : MysqlField) : Column :=
  { column with
    fieldType := field.type, flags := field.flags, name := field.name.getD []
    orgName := field.orgName.getD [], table := field.table.getD []
    orgTable := field.orgTable.getD []
    bufferLength := 0, length := 0, isNull := false, error := false }

/-- The column and its bind in their places. -/
def setColumn (index : ℕ) (column : Column) : MyliteStmt :=
  { s with
    columns := s.columns.set index column
    resultBinds := s.resultBinds.set index column.bufferLength }

/-- The loop of `initialize_statement_results`. -/
def configureColumns : List MysqlField → ℕ → MyliteStmt → Backend (Result × MyliteStmt)
  | [], _, s => pure (.ok, s)
  | field :: fields, index, s => do
    let column := describe (s.columns.getD index {}) field
    let allocated ← allocateColumnBuffer (initialCapacity field)
    if !allocated then
      pure (failWith { s with columns := s.columns.set index column } .nomem
        "result column buffer could not be allocated")
    else
      configureColumns fields (index + 1) (s.setColumn index { column with
        buffer := List.replicate (initialCapacity field + 1) 0
        bufferLength := initialCapacity field })

/-- `initialize_statement_results` behind the release. -/
def setUpResults : Backend (Result × MyliteStmt) := do
  let metadata ← mysqlStmtResultMetadata
  match metadata with
  | none => do
    let count ← mysqlStmtFieldCount
    if count ≠ 0 then failWithStatementError { s with metadata := none }
    else pure (.ok, { s with metadata := none, hasResult := false })
  | some fields => do
    let configured ← configureColumns fields 0 { s with
      metadata := some fields
      columns := s.columns.takeD fields.length {}
      resultBinds := s.resultBinds.takeD fields.length 0 }
    andThen configured fun s => do
      let bound ← mysqlStmtBindResult s.resultBinds
      if bound then pure (.ok, { s with hasResult := true })
      else s.failWithStatementError

/-- `initialize_statement_results`. -/
def initializeStatementResults (releaseExistingResults : Bool) : Backend (Result × MyliteStmt) :=
  if releaseExistingResults then s.releaseStatementResults >>= setUpResults else s.setUpResults

/-! ### Rows -/

/-- `refresh_dirty_result_binds`. -/
def refreshDirtyResultBinds : Backend (Result × MyliteStmt) :=
  if !s.resultBindsDirty then pure (.ok, s)
  else do
    let bound ← mysqlStmtBindResult s.resultBinds
    if bound then
      pure (.ok, { s with
        columns := s.columns.map fun column => { column with retiredBuffer := [] }
        resultBindsDirty := false })
    else s.failWithStatementError

/-- One turn of the loop of `drain_remaining_statement_results`; `none` goes on. -/
def drainTurn : Backend (Option Result) := do
  let next ← mysqlStmtNextResult
  match next with
  | .noMore => pure (some .ok)
  | .failed => pure (some .error)
  | .ok => do
    let count ← mysqlStmtFieldCount
    if count = 0 then pure none
    else do
      let stored ← mysqlStmtStoreResult
      if !stored then pure (some .error)
      else do
        let freed ← mysqlStmtFreeResult
        if !freed then pure (some .error) else pure none

/-- `drain_remaining_statement_results`. -/
def drainRemainingStatementResults : Backend (Result × MyliteStmt) := do
  let result ← Dialogue.loop drainTurn
  if result = .ok then pure (.ok, s) else s.failWithStatementError

/-- What a fetch writes through the binds. -/
def receive (column : Column) (cell : Cell) : Column :=
  { column with
    buffer := cell.buffer, length := cell.length, isNull := cell.isNull, error := cell.error }

/-- `fetch_truncated_statement_columns`, for the columns from the given indices. -/
def fetchTruncatedColumns : List ℕ → MyliteStmt → Backend (Result × MyliteStmt)
  | [], s => pure (.ok, s)
  | index :: indices, s =>
    let column := s.columns.getD index {}
    if column.isNull || !column.error then fetchTruncatedColumns indices s
    else if column.length = ulongMax then
      pure (failWith s .error "result column is too large")
    else do
      let bufferLength := max column.length 1
      let allocated ← allocateColumnBuffer bufferLength
      if !allocated then
        pure (failWith s .nomem "result column buffer could not be allocated")
      else do
        let fetched ← mysqlStmtFetchColumn bufferLength index
        match fetched with
        | none => s.failWithStatementError
        | some cell =>
          let s := s.setColumn index { receive column cell with
            retiredBuffer := column.buffer, bufferLength := bufferLength }
          fetchTruncatedColumns indices { s with resultBindsDirty := true }

/-- `fetch_truncated_statement_columns`. -/
def fetchTruncatedStatementColumns : Backend (Result × MyliteStmt) :=
  fetchTruncatedColumns (List.range s.columns.length) s

/-- Behind `MYSQL_DATA_TRUNCATED` the columns that did not fit are fetched again. -/
def completeRow (truncated : Bool) : Backend (Result × MyliteStmt) :=
  if truncated then s.fetchTruncatedStatementColumns else pure (.ok, s)

/-- The zero byte behind a value. -/
def terminate (column : Column) : Column :=
  { column with buffer := column.buffer.set (min column.length (column.buffer.length - 1)) 0 }

/-- `fetch_statement_row` behind `refresh_dirty_result_binds`. -/
def fetchBound : Backend (Result × MyliteStmt) := do
  let fetched ← mysqlStmtFetch
  match fetched with
  | .noData => do
    let drained ← drainRemainingStatementResults { s with hasRow := false }
    andThen drained fun s => pure (.done, { s with hasResult := false })
  | .failed => s.failWithStatementError
  | .row truncated cells => do
    let s := { s with columns := s.columns.mapIdx fun index column =>
      (cells[index]?.map (receive column)).getD column }
    let whole ← s.completeRow truncated
    andThen whole fun s =>
      pure (.row, { s with columns := s.columns.map terminate, hasRow := true })

/-- `fetch_statement_row`. -/
def fetchStatementRow : Backend (Result × MyliteStmt) := do
  let refreshed ← s.refreshDirtyResultBinds
  andThen refreshed fetchBound

/-! ### Steps and resets -/

/-- `LLONG_MAX` bounds the number of changed rows; `(my_ulonglong)-1` stands for none. -/
def changesOf (affectedRows : ℕ) : ℕ :=
  if affectedRows = 2 ^ 64 - 1 then 0 else min affectedRows (2 ^ 63 - 1)

/-- The end of the executing part of `mylite_step`. -/
def finishExecution : Backend (Result × MyliteStmt) :=
  if s.hasResult then s.fetchStatementRow
  else do
    let affected ← mysqlStmtAffectedRows
    pure (.done, { s with db := { s.db with changes := changesOf affected } })

/-- `mylite_step` behind a successful `mysql_stmt_execute`. -/
def executionDone : Backend (Result × MyliteStmt) := do
  let insertId ← mysqlStmtInsertId
  let s := { s with db := { s.db with changes := 0, lastInsertId := insertId }, executed := true }
  if s.hasResult then s.finishExecution
  else do
    let count ← mysqlStmtFieldCount
    if count ≠ 0 then do
      let ready ← s.initializeStatementResults false
      andThen ready finishExecution
    else s.finishExecution

/-- The executing part of `mylite_step`. -/
def executeStatement : Backend (Result × MyliteStmt) := do
  let bound ← s.bindParameters
  andThen bound fun s => do
    let ready ← s.initializeStatementResults true
    andThen ready fun s => do
      let executed ← mysqlStmtExecute
      if executed then s.executionDone else s.failWithStatementError

/-- `mylite_step`. -/
def myliteStep : Backend (Result × MyliteStmt) :=
  let s := s.withDiagnostics setOk
  if !s.executed then s.executeStatement
  else if s.hasResult then s.fetchStatementRow
  else pure (.done, s)

/-- `mylite_reset`. -/
def myliteReset : Backend (Result × MyliteStmt) := do
  let s ← (s.withDiagnostics setOk).releaseStatementResults
  let done ← mysqlStmtReset
  if done then
    pure (.ok, { s with executed := false, hasResult := false, hasRow := false })
  else s.failWithStatementError

/-! ### Bindings -/

/-- What the bind functions share; `none` is an argument that is refused. -/
def bind (index : ℕ) (parameter : Option ParameterBinding) : Result × MyliteStmt :=
  match parameter with
  | none => (.misuse, s)
  | some parameter =>
    if index = 0 || s.parameters.length < index || s.executed then (.misuse, s)
    else (.ok, { s with parameters := s.parameters.set (index - 1) parameter })

/-- `mylite_clear_bindings`. -/
def clearBindings : Result × MyliteStmt :=
  if s.executed then (.misuse, s)
  else (.ok, { s with parameters := s.parameters.map fun _ => .null })

/-! ### Reading columns -/

variable (column : ℕ)

/-- `metadata_column_at`. -/
def metadataColumnAt : Option Column := s.columns[column]?

/-- `value_column_at`, where the value is not `NULL`. -/
def valueColumnAt : Option Column :=
  if s.hasRow then s.columns[column]?.filter fun c => !c.isNull else none

/-- `mylite_column_count`. -/
def columnCount : Backend ℕ :=
  if s.columns.isEmpty then mysqlStmtFieldCount else pure s.columns.length

/-- `mylite_column_type`. -/
def columnType : ValueType :=
  match s.metadataColumnAt column with
  | none => .null
  | some c => Prepared.columnType c.isNull { type := c.fieldType, flags := c.flags }

/-- `mylite_column_text` and `mylite_column_blob`: what the pointer points to. -/
def columnText : Option Text :=
  (s.valueColumnAt column).map Column.buffer

/-- `mylite_column_bytes`. -/
def columnBytes : ℕ :=
  ((s.valueColumnAt column).map Column.length).getD 0

end MyliteStmt

/-! ### The interface -/

/-- `strtoll`, `strtoull` and `strtod`, the latter by the bits of its result. -/
structure Numbers where
  strtoll : Text → ℤ
  strtoull : Text → ℕ
  strtod : Text → UInt64

/-- The functions of the interface on one statement. -/
inductive Call
  /-- A bind function, with the parameter it makes of its value. -/
  | bind (index : ℕ) (parameter : Option ParameterBinding)
  | clearBindings
  | step
  | reset
  | columnCount
  | columnName (column : ℕ)
  | columnOrgName (column : ℕ)
  | columnTable (column : ℕ)
  | columnOrgTable (column : ℕ)
  | columnType (column : ℕ)
  | columnInt64 (column : ℕ)
  | columnUint64 (column : ℕ)
  | columnDouble (column : ℕ)
  | columnText (column : ℕ)
  | columnBlob (column : ℕ)
  | columnBytes (column : ℕ)

namespace Call

variable (index : ℕ) (value : Text)

/-- `mylite_bind_null`. -/
def bindNull : Call := .bind index (some .null)

/-- `mylite_bind_int64`. -/
def bindInt64 (value : Int64) : Call := .bind index (some (.int64Value value))

/-- `mylite_bind_uint64`. -/
def bindUint64 (value : UInt64) : Call := .bind index (some (.uint64Value value))

/-- `mylite_bind_double`. -/
def bindDouble (bits : UInt64) : Call := .bind index (some (.doubleValue bits))

/-- `mylite_bind_text`; a length of `MYLITE_NUL_TERMINATED` asks for the bytes up to the first
    zero. -/
def bindText : Call :=
  .bind index (some (bytesParameter false
    (if value.length = ulongMax then value.takeWhile (· != 0) else value)))

/-- `mylite_bind_blob`. -/
def bindBlob : Call :=
  .bind index (if value.length = ulongMax then none else some (bytesParameter true value))

end Call

/-- What the functions return. -/
inductive Returned
  | code (code : Result)
  | count (n : ℕ)
  | text (text : Option Text)
  | type (type : ValueType)
  | int64 (value : ℤ)
  | uint64 (value : ℕ)
  | double (bits : UInt64)

/-- A call. -/
def call (numbers : Numbers) (s : MyliteStmt) : Call → Backend (Returned × MyliteStmt)
  | .bind index parameter => pure ((s.bind index parameter).map .code id)
  | .clearBindings => pure (s.clearBindings.map .code id)
  | .step => do
    let r ← s.myliteStep
    pure (r.map .code id)
  | .reset => do
    let r ← s.myliteReset
    pure (r.map .code id)
  | .columnCount => do
    let count ← s.columnCount
    pure (.count count, s)
  | .columnName column => pure (.text ((s.metadataColumnAt column).map Column.name), s)
  | .columnOrgName column => pure (.text ((s.metadataColumnAt column).map Column.orgName), s)
  | .columnTable column => pure (.text ((s.metadataColumnAt column).map Column.table), s)
  | .columnOrgTable column => pure (.text ((s.metadataColumnAt column).map Column.orgTable), s)
  | .columnType column => pure (.type (s.columnType column), s)
  | .columnInt64 column =>
    pure (.int64 (((s.columnText column).map numbers.strtoll).getD 0), s)
  | .columnUint64 column =>
    pure (.uint64 (((s.columnText column).map numbers.strtoull).getD 0), s)
  | .columnDouble column =>
    pure (.double (((s.columnText column).map numbers.strtod).getD 0), s)
  | .columnText column => pure (.text (s.columnText column), s)
  | .columnBlob column => pure (.text (s.columnText column), s)
  | .columnBytes column => pure (.count (s.columnBytes column), s)

/-- One call of a sequence: what was said to the backend, and what was returned unless the
    responders ran out. -/
structure Entry where
  call : Call
  said : List Event
  returned : Option Returned

/-- A sequence of calls. -/
def record (numbers : Numbers) :
    List Call → MyliteStmt → List (∀ c, Reply c) → List Entry
  | [], _, _ => []
  | c :: cs, s, rs =>
    match call numbers s c rs with
    | (said, none) => [⟨c, said, none⟩]
    | (said, some ((returned, s), rs)) => ⟨c, said, some returned⟩ :: record numbers cs s rs

theorem record_cons_cases (numbers : Numbers) (c : Call) (cs : List Call) (s : MyliteStmt)
    (rs : List (∀ c, Reply c)) :
    (∃ said, call numbers s c rs = (said, none) ∧
      record numbers (c :: cs) s rs = [⟨c, said, none⟩]) ∨
    ∃ said returned s' rs', call numbers s c rs = (said, some ((returned, s'), rs')) ∧
      record numbers (c :: cs) s rs = ⟨c, said, some returned⟩ :: record numbers cs s' rs' := by
  rw [record]
  rcases call numbers s c rs with ⟨said, next⟩
  cases next with
  | none => exact .inl ⟨said, rfl, rfl⟩
  | some next => exact .inr ⟨said, next.1.1, next.1.2, next.2, rfl, rfl⟩

/-- A statement with `count` placeholders as `mylite_prepare` returns it. -/
def prepared (db : Db) (count : ℕ) : MyliteStmt :=
  { db := db, parameters := List.replicate count .null }

end MyLite.Api

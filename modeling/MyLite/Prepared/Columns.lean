import Mathlib.Algebra.Group.Nat.Defs
import MyLite.Lib.OrderedMap
import MyLite.Prepared.Step
import MyLite.Sql.Bytes

namespace MyLite.Prepared

open MyLite.Client MyLite.Lib MyLite.Sql

/-!
# Result columns of a statement

The buffers a row is fetched into, on top of the flags of `MyliteStmt`.  The client library writes
to the addresses it was given by the last `mysql_stmt_bind_result`, which need not be the buffers
of the columns; a column whose value did not fit gets a larger buffer, is read again, and keeps
its old buffer until the next bind.

* `Columns` — the columns with their buffers in a memory.
* `ValueHandle.step`, `ValueHandle.reset` — `mylite_step` and `mylite_reset` with the columns.
* `columnText`, `columnBlob`, `columnBytes`, `columnNumber` — what a caller reads.
* `step_handle` — without the columns this is `Handle.step`.
-/

/-- A row of a result set: the value of each column, `none` for `NULL`. -/
abbrev Row := ℕ → Option Text

/-! ### Columns and their buffers -/

/-- The address and the capacity of a `MYSQL_BIND`. -/
structure Bind where
  buffer : ℕ := 0
  capacity : ℕ := 0
  deriving DecidableEq, Repr

/-- `ResultColumn`, with the elements of `result_binds` and of the client's own array that belong
    to it.  A buffer is its address. -/
structure ResultColumn where
  bind : Bind := {}
  buffer : ℕ := 0
  retiredBuffer : Option ℕ := none
  length : ℕ := 0
  isNull : Bool := false
  error : Bool := false
  resultBind : Bind := {}
  registered : Bind := {}
  deriving DecidableEq, Repr

/-- The columns of a statement, the contents of their buffers, and the next free address. -/
structure Columns where
  columns : List ResultColumn := []
  memory : ℕ → Text := fun _ => []
  fresh : ℕ := 1

/-- `k_initial_result_buffer_size`. -/
def initialResultBufferSize : ℕ := 4096

/-- `ULONG_MAX`. -/
def ulongMax : ℕ := 2 ^ 64 - 1

/-- `allocate_column_buffer`: one byte more than the capacity, all zero. -/
def allocateColumnBuffer (bufferLength : ℕ) : Text := List.replicate (bufferLength + 1) 0

/-- The copying loop of the client library: as much of the value as fits, and a zero behind it
    where there is room. -/
def store (value : Text) (capacity : ℕ) (bytes : Text) : Text :=
  value.take capacity ++
    if value.length < capacity then 0 :: bytes.drop (value.length + 1) else bytes.drop capacity

/-- The zero `fetch_statement_row` puts behind a value. -/
def terminate (length : ℕ) (bytes : Text) : Text :=
  if length < bytes.length then bytes.set length 0 else bytes.set (bytes.length - 1) 0

namespace Columns

variable (cs : Columns)

/-- The part of `release_statement_results` about columns. -/
def release : Columns := { cs with columns := [] }

/-- The capacity of a new column. -/
def initialCapacity (fieldLength : ℕ) : ℕ := min (max fieldLength 1) initialResultBufferSize

/-- A column as `initialize_statement_results` sets it up. -/
def newColumn (address fieldLength : ℕ) : ResultColumn :=
  { bind := ⟨address, initialCapacity fieldLength⟩
    buffer := address
    resultBind := ⟨address, initialCapacity fieldLength⟩ }

/-- The loop over the columns in `initialize_statement_results`. -/
def configure (fields : List ℕ) : Columns where
  columns := fields.mapIdx fun k fieldLength => newColumn (cs.fresh + k) fieldLength
  memory := applyWrites (fields.mapIdx fun k fieldLength =>
    (cs.fresh + k, fun _ => allocateColumnBuffer (initialCapacity fieldLength))) cs.memory
  fresh := cs.fresh + fields.length

/-- `mysql_stmt_bind_result` with `result_binds`. -/
def register : Columns :=
  { cs with columns := cs.columns.map fun c => { c with registered := c.resultBind } }

/-- `initialize_statement_results` behind the release.  `allocated` columns have got their buffer
    where an allocation fails. -/
def setUp (hasFields : Bool) (i : Setup) (fields : List ℕ) (allocated : ℕ) : Columns :=
  if !hasFields || !i.metadata then cs
  else if !i.buffers then
    let configured := cs.configure (fields.take allocated)
    { configured with columns := configured.columns ++ (fields.drop allocated).map fun _ => {} }
  else if !i.bind then cs.configure fields
  else (cs.configure fields).register

/-- `refresh_dirty_result_binds`, where the bind succeeds. -/
def refresh : Columns :=
  { cs with columns := cs.columns.map fun c =>
      { c with registered := c.resultBind, retiredBuffer := none } }

variable (row : Row) (k : ℕ) (c : ResultColumn)

/-- What `mysql_stmt_fetch` sets through the pointers of a bind. -/
def fetchedColumn : ResultColumn :=
  match row k with
  | none => { c with isNull := true, error := false }
  | some value =>
    { c with isNull := false, length := value.length,
             error := decide (c.registered.capacity < value.length) }

/-- What `mysql_stmt_fetch` writes to a registered buffer. -/
def fetchedBytes : ℕ × (Text → Text) :=
  (c.registered.buffer, (row k).elim id fun value => store value c.registered.capacity)

/-- `mysql_stmt_fetch` on a row. -/
def fetch : Columns :=
  { cs with
    columns := cs.columns.mapIdx (fetchedColumn row)
    memory := applyWrites (cs.columns.mapIdx (fetchedBytes row)) cs.memory }

/-- `MYSQL_DATA_TRUNCATED`. -/
def truncated : Bool := cs.columns.any fun c => !c.isNull && c.error

/-- How far `fetch_truncated_statement_columns` has come: whether it succeeded, the columns from
    here on, the memory, and whether a column has got a new buffer. -/
structure Grown where
  ok : Bool
  columns : List ResultColumn
  memory : ℕ → Text
  fresh : ℕ
  grown : Bool

/-- A column with its larger buffer, read again by `mysql_stmt_fetch_column`. -/
def grownColumn (value : Text) (fresh : ℕ) (c : ResultColumn) : ResultColumn :=
  { c with
    bind := ⟨fresh, max c.length 1⟩
    buffer := fresh
    retiredBuffer := some c.buffer
    length := value.length
    isNull := false
    error := decide (max c.length 1 < value.length)
    resultBind := ⟨fresh, max c.length 1⟩ }

/-- The loop of `fetch_truncated_statement_columns`, from column `k` on.  `fetchColumn` says
    whether the new buffer of a column is allocated and filled. -/
def growColumns (row : Row) (fetchColumn : ℕ → Bool) :
    ℕ → List ResultColumn → (ℕ → Text) → ℕ → Grown
  | _, [], memory, fresh => ⟨true, [], memory, fresh, false⟩
  | k, c :: cs, memory, fresh =>
    if c.isNull || !c.error then
      let g := growColumns row fetchColumn (k + 1) cs memory fresh
      { g with columns := c :: g.columns }
    else if c.length = ulongMax || !fetchColumn k then ⟨false, c :: cs, memory, fresh, false⟩
    else
      let value := (row k).getD []
      let bytes := store value (max c.length 1) (allocateColumnBuffer (max c.length 1))
      let g := growColumns row fetchColumn (k + 1) cs (Function.update memory fresh bytes)
        (fresh + 1)
      { g with columns := grownColumn value fresh c :: g.columns, grown := true }

/-- `fetch_truncated_statement_columns`, if the fetch says that a value did not fit. -/
def readAgain (fetchColumn : ℕ → Bool) : Grown :=
  if cs.truncated then growColumns row fetchColumn 0 cs.columns cs.memory cs.fresh
  else ⟨true, cs.columns, cs.memory, cs.fresh, false⟩

/-- The loop that puts a zero behind every value. -/
def terminateAll : Columns :=
  { cs with memory :=
      applyWrites (cs.columns.map fun c => (c.buffer, terminate c.length)) cs.memory }

end Columns

/-! ### Calls -/

/-- What the backend does in one call of `mylite_step`, as far as the columns go: the lengths of
    the result's fields in the set-up in front of the execution and behind it, how many columns
    get a buffer where that fails, and which columns can be read again. -/
structure ColumnInput where
  fields : List ℕ := []
  fieldsAfter : List ℕ := []
  allocated : ℕ := 0
  fetchColumn : ℕ → Bool := fun _ => true

/-- A statement with its columns, and its connection. -/
structure ValueHandle where
  handle : Handle Row
  cols : Columns

namespace ValueHandle

variable (h : ValueHandle) (i : StepInput Row) (j : ColumnInput)

/-- `release_statement_results`. -/
def releaseStatementResults : ValueHandle :=
  ⟨h.handle.releaseStatementResults, h.cols.release⟩

/-- `initialize_statement_results` behind the release. -/
def setUpResults (i : Setup) (fields : List ℕ) (allocated : ℕ) :
    Option (StepResult Row) × ValueHandle :=
  ((h.handle.setUpResults i).1,
    ⟨(h.handle.setUpResults i).2, h.cols.setUp h.handle.stmt.stmt.hasFields i fields allocated⟩)

/-- `initialize_statement_results`. -/
def initializeStatementResults (releaseExistingResults : Bool) (i : Setup) (fields : List ℕ)
    (allocated : ℕ) : Option (StepResult Row) × ValueHandle :=
  (if releaseExistingResults then h.releaseStatementResults else h).setUpResults i fields allocated

/-- The handle after a call into the client library that leaves the columns alone. -/
def withSession (s : Session Row) : ValueHandle :=
  ⟨h.handle.withSession s, h.cols⟩

/-- `fetch_statement_row` on a row the client library has copied out. -/
def rowFetched (j : ColumnInput) (row : Row) : StepResult Row × ValueHandle :=
  let g := h.cols.readAgain row j.fetchColumn
  let cols : Columns := ⟨g.columns, g.memory, g.fresh⟩
  let dirty := h.handle.stmt.resultBindsDirty || g.grown
  if g.ok then
    (.row row, ⟨{ h.handle with stmt := { h.handle.stmt with
      resultBindsDirty := dirty, hasRow := true } }, cols.terminateAll⟩)
  else
    (.error, ⟨{ h.handle with stmt := { h.handle.stmt with resultBindsDirty := dirty } }, cols⟩)

/-- `fetch_statement_row` behind `refresh_dirty_result_binds`. -/
def fetchBound (i : StepInput Row) (j : ColumnInput) : StepResult Row × ValueHandle :=
  match h.handle.session.stmtFetch i.fetch with
  | (.noData, s) =>
    (((h.handle.withSession s).endOfRows i.storeBind).1,
      ⟨((h.handle.withSession s).endOfRows i.storeBind).2, h.cols⟩)
  | (.error, s) => (.error, h.withSession s)
  | (.row row, s) => rowFetched ⟨h.handle.withSession s, h.cols.fetch row⟩ j row

/-- `refresh_dirty_result_binds`, where it succeeds. -/
def refreshed : ValueHandle :=
  ⟨{ h.handle with stmt := { h.handle.stmt with resultBindsDirty := false } },
    if h.handle.stmt.resultBindsDirty then h.cols.refresh else h.cols⟩

/-- `fetch_statement_row`. -/
def fetchStatementRow (i : StepInput Row) (j : ColumnInput) : StepResult Row × ValueHandle :=
  if h.handle.stmt.resultBindsDirty && !i.refreshBinds then (.error, ⟨h.handle.withError, h.cols⟩)
  else h.refreshed.fetchBound i j

/-- `mylite_step` behind a successful execution. -/
def executionDone (i : Setup) (fields : List ℕ) (allocated : ℕ) :
    Option (StepResult Row) × ValueHandle :=
  let h : ValueHandle :=
    ⟨{ h.handle with stmt := { h.handle.stmt with executed := true } }, h.cols⟩
  if !h.handle.stmt.hasResult && h.handle.stmt.stmt.hasFields then
    h.initializeStatementResults false i fields allocated
  else (none, h)

/-- The part of `mylite_step` that executes the statement. -/
def executeStatement : Option (StepResult Row) × ValueHandle :=
  if !i.bindParameters then (some .error, ⟨h.handle.withError, h.cols⟩)
  else match h.initializeStatementResults true i.setup j.fields j.allocated with
    | (some result, h) => (some result, h)
    | (none, h) =>
      match h.handle.session.stmtExecute i.answers with
      | (false, s) => (some .error, h.withSession s)
      | (true, s) => (h.withSession s).executionDone i.setupAfter j.fieldsAfter j.allocated

/-- `mylite_step` up to the fetch: a result, or the statement right before
    `fetch_statement_row`. -/
def beforeFetch : Option (StepResult Row) × ValueHandle :=
  match if h.handle.stmt.executed then (none, h) else h.executeStatement i j with
  | (some result, h) => (some result, h)
  | (none, h) => if h.handle.stmt.hasResult then (none, h) else (some .done, h)

/-- `mylite_step`. -/
def step : StepResult Row × ValueHandle :=
  match h.beforeFetch i j with
  | (some result, h) => (result, h)
  | (none, h) => h.fetchStatementRow i j

/-- `mylite_reset`. -/
def reset (answer : Answer Row) : Bool × ValueHandle :=
  ((h.handle.reset answer).1, ⟨(h.handle.reset answer).2, h.cols.release⟩)

/-! ### Accessors -/

variable (column : ℕ)

/-- `value_column_at`. -/
def valueColumnAt : Option ResultColumn :=
  if h.handle.stmt.hasRow then h.cols.columns[column]? else none

/-- The buffer of a column that is not `NULL`. -/
def valueAt : Option (ResultColumn × Text) :=
  match h.valueColumnAt column with
  | some c => if c.isNull then none else some (c, h.cols.memory c.buffer)
  | none => none

/-- `mylite_column_blob`: the bytes behind the pointer it returns. -/
def columnBlob : Option Text := (h.valueAt column).map Prod.snd

/-- `mylite_column_text`: the string the pointer denotes, up to the first zero byte. -/
def columnText : Option Text :=
  (h.columnBlob column).map fun bytes => bytes.takeWhile (· != 0)

/-- `mylite_column_bytes`. -/
def columnBytes : ℕ :=
  (h.valueAt column).elim 0 fun value => value.1.length

/-- `mylite_column_int64`, `_uint64` and `_double`: the C library's reading of the text. -/
def columnNumber {α : Type} [Zero α] (parse : Text → α) (h : ValueHandle) (column : ℕ) : α :=
  (h.columnText column).elim 0 parse

/-! ### The flags of a statement -/

theorem executionDone_handle (i : Setup) (fields : List ℕ) (allocated : ℕ) :
    h.handle.executionDone i = ((h.executionDone i fields allocated).1,
      (h.executionDone i fields allocated).2.handle) := by
  simp only [Handle.executionDone, executionDone]
  split_ifs
  · rfl
  · rfl

theorem executeStatement_handle :
    h.handle.executeStatement i = ((h.executeStatement i j).1,
      (h.executeStatement i j).2.handle) := by
  rw [Handle.executeStatement, executeStatement]
  split_ifs
  · rfl
  · have hinit : h.handle.initializeStatementResults true i.setup =
        ((h.initializeStatementResults true i.setup j.fields j.allocated).1,
          (h.initializeStatementResults true i.setup j.fields j.allocated).2.handle) := rfl
    rw [hinit]
    rcases h.initializeStatementResults true i.setup j.fields j.allocated with ⟨r, h'⟩
    cases r with
    | some result => rfl
    | none =>
      dsimp only
      rcases h'.handle.session.stmtExecute i.answers with ⟨ok, s⟩
      cases ok
      · rfl
      · exact executionDone_handle (h'.withSession s) i.setupAfter j.fieldsAfter j.allocated

/-- The inputs of `Handle.step` that stand for what happened to the columns. -/
def withColumns (i : StepInput Row) (truncated fetchColumns someColumns : Bool) : StepInput Row :=
  { i with truncated := truncated, fetchColumns := fetchColumns, someColumns := someColumns }

theorem rowFetched_handle (i : StepInput Row) (j : ColumnInput) (row : Row)
    (hdirty : h.handle.stmt.resultBindsDirty = false) :
    ∃ t f c, h.handle.rowFetched (withColumns i t f c) row
      = ((h.rowFetched j row).1, (h.rowFetched j row).2.handle) := by
  unfold rowFetched
  set g := h.cols.readAgain row j.fetchColumn
  refine ⟨g.grown || !g.ok, g.ok, g.grown, ?_⟩
  simp only [Handle.rowFetched, withColumns, hdirty]
  cases g.ok <;> simp

theorem fetchStatementRow_handle (i : StepInput Row) (j : ColumnInput) :
    ∃ t f c, h.handle.fetchStatementRow (withColumns i t f c)
      = ((h.fetchStatementRow i j).1, (h.fetchStatementRow i j).2.handle) := by
  unfold fetchStatementRow
  by_cases hrefresh : (h.handle.stmt.resultBindsDirty && !i.refreshBinds) = true
  · refine ⟨false, true, false, ?_⟩
    rw [if_pos hrefresh]
    exact if_pos hrefresh
  · rw [if_neg hrefresh]
    have hstep : ∀ t f c, h.handle.fetchStatementRow (withColumns i t f c)
        = h.refreshed.handle.fetchBound (withColumns i t f c) := fun _ _ _ => if_neg hrefresh
    simp only [hstep]
    unfold fetchBound Handle.fetchBound
    have hfetch : ∀ t f c, (withColumns i t f c).fetch = i.fetch := fun _ _ _ => rfl
    simp only [hfetch]
    rcases h.refreshed.handle.session.stmtFetch i.fetch with ⟨fetched, s⟩
    cases fetched with
    | noData | error => exact ⟨false, true, false, rfl⟩
    | row row =>
      exact rowFetched_handle
        ⟨h.refreshed.handle.withSession s, h.refreshed.cols.fetch row⟩ i j row rfl

/-- **Flags.** Without its columns, a step is a step of the statement for some outcome of the
    reading of truncated columns. -/
theorem step_handle :
    ∃ t f c, h.handle.step (withColumns i t f c)
      = ((h.step i j).1, (h.step i j).2.handle) := by
  have hexecute : ∀ t f c, h.handle.executeStatement (withColumns i t f c)
      = ((h.executeStatement i j).1, (h.executeStatement i j).2.handle) :=
    fun _ _ _ => executeStatement_handle h i j
  have hbegin : ∀ t f c, (if h.handle.stmt.executed then (none, h.handle)
        else h.handle.executeStatement (withColumns i t f c))
      = ((if h.handle.stmt.executed then (none, h) else h.executeStatement i j).1,
        (if h.handle.stmt.executed then (none, h) else h.executeStatement i j).2.handle) := by
    intro t f c
    split_ifs
    · rfl
    · exact hexecute t f c
  simp only [Handle.step, hbegin, step, beforeFetch]
  rcases if h.handle.stmt.executed then (none, h) else h.executeStatement i j with ⟨r, h'⟩
  cases r with
  | some result => exact ⟨false, true, false, rfl⟩
  | none =>
    by_cases hresult : h'.handle.stmt.hasResult = true
    · simp only [hresult, if_true]
      exact fetchStatementRow_handle h' i j
    · simp only [if_neg hresult]
      exact ⟨false, true, false, trivial⟩

end ValueHandle

end MyLite.Prepared

import Mathlib.Data.UInt
import MyLite.Api.Statement
import MyLite.Api.Diagnostics
import MyLite.Prepared.Delivery

namespace MyLite.Php

open MyLite.Api MyLite.Client MyLite.Lib MyLite.Prepared MyLite.Sql

/-!
# The rows of a PDO statement

`pdo_mylite_stmt_execute` steps the statement once and keeps the row for the first fetch, so the
position in the result is spread over the flags `prefetched` and `done` and the statement.  One
statement without placeholders is executed, fetched from and closed in any order, alone on its
connection, and the script reads its columns with `get_col`.

* `PdoReader` — the driver's statement with its columns, and the callbacks `execute`, `fetch` and
  `closeCursor` with what the PDO core does around them.
* `PdoReader.getCol` — what the script reads of a column.
* `RowStream` — an observer who notes the rows that are still to be returned.
* `streams_of_succeeds` — as long as the backend does not fail, the rows come one by one.
-/

/-! ### Columns as values of a script -/

/-- The `zval` a column is read into. -/
inductive ColumnZval
  | null
  | long (value : ℤ)
  | double (bits : UInt64)
  | string (value : Text)
  deriving DecidableEq, Repr

/-- `ZEND_LONG_MAX`. -/
def zendLongMax : ℕ := 2 ^ 63 - 1

/-- `mylite_column_count`. -/
def columnCount (l : Labelled) : ℕ :=
  if l.value.cols.columns ≠ [] then l.value.cols.columns.length
  else if l.value.handle.stmt.stmt.hasFields then l.fields.length
  else 0

/-- `pdo_mylite_column_to_zval`. -/
def pdoMyliteColumnToZval (numbers : Numbers) (l : Labelled) (column : ℕ) : ColumnZval :=
  match l.columnType column with
  | .null => .null
  | .int64 => .long (l.value.columnNumber numbers.strtoll column)
  | .uint64 =>
    let value := l.value.columnNumber numbers.strtoull column
    if value ≤ zendLongMax then .long value else .string (decimal value)
  | .double => .double (l.value.columnNumber numbers.strtod column)
  | .text | .blob =>
    match l.value.columnBlob column with
    | none => .null
    | some text => .string (text.take (l.value.columnBytes column))

/-- What a value is for a script, by the type of its column.  Numbers are read by the C library, up
    to the first zero byte. -/
def zvalOf (numbers : Numbers) (type : ValueType) (value : Text) : ColumnZval :=
  match type with
  | .null => .null
  | .int64 => .long (numbers.strtoll (value.takeWhile (· != 0)))
  | .uint64 =>
    let number := numbers.strtoull (value.takeWhile (· != 0))
    if number ≤ zendLongMax then .long number else .string (decimal number)
  | .double => .double (numbers.strtod (value.takeWhile (· != 0)))
  | .text | .blob => .string value

/-- A column that shows a value of a row is read as this value. -/
theorem pdoMyliteColumnToZval_eq (numbers : Numbers) {l : Labelled} {row : Row} {column : ℕ}
    {field : Field} (hrow : l.value.handle.stmt.hasRow = true) (hshows : l.value.Shows row)
    (hcolumn : column < l.value.columnCount) (hfield : l.labels[column]? = some field) :
    pdoMyliteColumnToZval numbers l column
      = (row column).elim .null (zvalOf numbers field.valueType) := by
  have hc := List.getElem?_eq_getElem hcolumn
  have hterm := hshows column _ hc
  have htype : l.columnType column
      = Prepared.columnType l.value.cols.columns[column].isNull field := by
    unfold Labelled.columnType
    rw [hc, hfield]
  rw [isNull_of_terminated hterm] at htype
  unfold pdoMyliteColumnToZval
  cases hvalue : row column with
  | none =>
    rw [htype, hvalue]
    rfl
  | some value =>
    rw [hvalue] at hterm
    obtain ⟨⟨text, hblob, htake, -⟩, hbytes, -, hnumber⟩ :=
      ValueHandle.reads_of_terminated hrow hc hterm
    have htype' : l.columnType column = field.valueType := by
      rw [htype, hvalue]
      rfl
    rw [htype']
    unfold zvalOf
    cases field.valueType with
    | null => simp
    | int64 | uint64 | double => simp [hnumber]
    | text | blob => simp [hblob, hbytes, htake]

/-! ### The driver -/

/-- `pdo_mylite_stmt` with its columns, and the `executed` flag of the PDO core. -/
structure PdoReader where
  stmt : Labelled
  executed : Bool := false
  prefetched : Bool := false
  done : Bool := false

namespace PdoReader

variable (r : PdoReader)

/-- The reset in `pdo_mylite_stmt_execute`. -/
def resetExecuted (answer : Answer Row) (further : List (List Field)) : Labelled :=
  if r.executed then (r.stmt.reset answer further).2 else r.stmt

/-- `pdo_mylite_stmt_execute`. -/
def pdoMyliteStmtExecute (answer : Answer Row) (further : List (List Field))
    (i : StepInput Row) (m : MetadataInput) : Bool × PdoReader :=
  match (r.resetExecuted answer further).step i m with
  | (.row _, stmt) => (true, { r with stmt := stmt, prefetched := true, done := false })
  | (.done, stmt) => (true, { r with stmt := stmt, prefetched := false, done := true })
  | (_, stmt) => (false, { r with stmt := stmt, prefetched := false, done := false })

/-- `PDOStatement::execute` of a statement without placeholders. -/
def execute (answer : Answer Row) (further : List (List Field)) (i : StepInput Row)
    (m : MetadataInput) : Bool × PdoReader :=
  match r.pdoMyliteStmtExecute answer further i m with
  | (false, r) => (false, r)
  | (true, r) => (true, { r with executed := true })

/-- `pdo_mylite_stmt_fetch`. -/
def pdoMyliteStmtFetch (i : StepInput Row) (m : MetadataInput) : Bool × PdoReader :=
  if r.done then (false, r)
  else if r.prefetched then (true, { r with prefetched := false })
  else match r.stmt.step i m with
    | (.row _, stmt) => (true, { r with stmt := stmt })
    | (.done, stmt) => (false, { r with stmt := stmt, done := true })
    | (_, stmt) => (false, { r with stmt := stmt })

/-- `PDOStatement::fetch`: the PDO core asks the driver only about an executed statement. -/
def fetch (i : StepInput Row) (m : MetadataInput) : Bool × PdoReader :=
  if r.executed then r.pdoMyliteStmtFetch i m else (false, r)

/-- `pdo_mylite_stmt_cursor_closer`. -/
def pdoMyliteStmtCursorCloser (answer : Answer Row) (further : List (List Field)) :
    PdoReader :=
  { r with stmt := (r.stmt.reset answer further).2, prefetched := false, done := true }

/-- `PDOStatement::closeCursor`: the driver's part, and the flag. -/
def closeCursor (answer : Answer Row) (further : List (List Field)) : PdoReader :=
  { r.pdoMyliteStmtCursorCloser answer further with executed := false }

/-- `pdo_mylite_stmt_get_col`. -/
def getCol (numbers : Numbers) (r : PdoReader) (column : ℤ) : Bool × ColumnZval :=
  if column < 0 || columnCount r.stmt ≤ column.toNat then (false, .null)
  else (true, pdoMyliteColumnToZval numbers r.stmt column.toNat)

/-- The script can read a row: every one of `width` columns has the value of the row, by the type
    that the statement has for the column. -/
def Reads (numbers : Numbers) (r : PdoReader) (row : Row) (width : ℕ) : Prop :=
  ∀ column < width, ∃ field, r.stmt.labels[column]? = some field ∧
    r.getCol numbers column = (true, (row column).elim .null (zvalOf numbers field.valueType))

/-- The row of the last step can be read. -/
theorem reads_of_good (numbers : Numbers) {r : PdoReader} {row : Row}
    (hgood : Described.Good ⟨r.stmt, some row⟩) :
    r.Reads numbers row r.stmt.value.columnCount := by
  intro column hcolumn
  obtain ⟨hrow, hshows⟩ := hgood.faithful.shows row rfl
  obtain ⟨-, -, hlength⟩ := hgood.consistent.copied (hgood.faithful.ready.executed hrow).2
  have hlabel := List.getElem?_eq_getElem (hlength.symm ▸ hcolumn : column < r.stmt.labels.length)
  refine ⟨_, hlabel, ?_⟩
  have hcount : columnCount r.stmt = r.stmt.value.columnCount := by
    have hne : r.stmt.value.cols.columns ≠ [] := List.ne_nil_of_length_pos (by
      show 0 < r.stmt.value.columnCount
      omega)
    unfold columnCount
    rw [if_pos hne]
    rfl
  unfold getCol
  rw [if_neg (by rw [hcount]; simpa using hcolumn), Int.toNat_natCast,
    pdoMyliteColumnToZval_eq numbers hrow hshows hcolumn hlabel]

end PdoReader

/-! ### The stream of rows -/

/-- A statement under observation. -/
structure RowStream where
  reader : PdoReader
  /-- The rows of the last execution that were not returned yet; none behind `closeCursor`. -/
  rows : List Row := []
  /-- The number of columns the server has reported for it. -/
  width : ℕ := 0

/-- The calls of a script, with the server's part. -/
inductive StreamCall
  | execute (answer : Answer Row) (further : List (List Field)) (i : StepInput Row)
      (m : MetadataInput)
  | fetch (i : StepInput Row) (m : MetadataInput)
  | closeCursor (answer : Answer Row) (further : List (List Field))

namespace RowStream

variable {m : MetadataInput} (conn : Connection Row) (stmt : Stmt) (header : List Field)

variable {l : Labelled}

/-- A statement as `pdo_mylite_handle_preparer` leaves it. -/
def prepared : RowStream :=
  { reader := { stmt := .prepared conn stmt header } }

/-- A call, with the observer's notes. -/
def next (s : RowStream) : StreamCall → RowStream
  | .execute answer further i m =>
    ⟨(s.reader.execute answer further i m).2, firstRows i.answers, m.header.length⟩
  | .fetch i m => ⟨(s.reader.fetch i m).2, s.rows.tail, s.width⟩
  | .closeCursor answer further => ⟨s.reader.closeCursor answer further, [], s.width⟩

/-- An execution succeeds.  A fetch succeeds exactly if a row is left, and then the script reads the
    next row. -/
def Streams (numbers : Numbers) (s : RowStream) : StreamCall → Prop
  | .execute answer further i m => (s.reader.execute answer further i m).1 = true
  | .fetch i m =>
    (s.reader.fetch i m).1 = !s.rows.isEmpty ∧
      ∀ row, s.rows.head? = some row → (s.reader.fetch i m).2.Reads numbers row s.width
  | .closeCursor _ _ => True

/-- The backend does not fail: the calls of `mylite_reset` and `mylite_step` that are made succeed,
    and an execution has as many columns as are known, since `mysql_stmt_execute` refuses any other
    number. -/
def Succeeds (s : RowStream) : StreamCall → Prop
  | .execute answer further i m =>
    (s.reader.executed = true → (s.reader.stmt.reset answer further).1 = true)
      ∧ ¬((s.reader.resetExecuted answer further).step i m).1.IsFailure
      ∧ ((s.reader.resetExecuted answer further).value.handle.stmt.stmt.hasFields = true →
        m.header.length = (s.reader.resetExecuted answer further).fields.length)
  | .fetch i m =>
    s.reader.executed = true → s.reader.done = false → s.reader.prefetched = false →
      ¬(s.reader.stmt.step i m).1.IsFailure
  | .closeCursor answer further => (s.reader.stmt.reset answer further).1 = true

/-- Where the statement is in its result; `live` is the row its columns show. -/
inductive Phase (s : RowStream) (live : Option Row) : Prop
  | waiting (executed : s.reader.executed = false)
      (idle : s.reader.stmt.value.handle.stmt.executed = false) (rows : s.rows = [])
  | ended (executed : s.reader.executed = true) (done : s.reader.done = true) (rows : s.rows = [])
  | prefetched (executed : s.reader.executed = true) (open_ : s.reader.done = false)
      (kept : s.reader.prefetched = true) (row : Row) (rest : List Row)
        (rows : s.rows = row :: rest)
      (shown : live = some row) (pending : Pending s.reader.stmt.value.handle rest)
      (width : s.reader.stmt.value.columnCount = s.width)
  | streaming (executed : s.reader.executed = true) (open_ : s.reader.done = false)
      (read : s.reader.prefetched = false) (pending : Pending s.reader.stmt.value.handle s.rows)
      (width : s.reader.stmt.value.columnCount = s.width)

/-- What the observer can count on. -/
def Sound (s : RowStream) : Prop :=
  ∃ live, Described.Good ⟨s.reader.stmt, live⟩ ∧ s.Phase live

theorem sound_prepared : (prepared conn stmt header).Sound :=
  ⟨none, Described.good_prepared conn stmt header, .waiting rfl rfl rfl⟩

variable {live : Option Row}

/-- A step of a statement on its own connection keeps the columns right. -/
theorem good_step (hgood : Described.Good ⟨l, live⟩) (i : StepInput Row)
    (hcount : l.value.handle.stmt.executed = false → l.value.handle.stmt.stmt.hasFields = true →
      m.header.length = l.fields.length) :
    Described.Good ⟨(l.step i m).2, (l.step i m).1.liveRow⟩ :=
  hgood.call (c := .step l.value.handle.conn i m) hcount

theorem good_reset (hgood : Described.Good ⟨l, live⟩) (answer : Answer Row)
    (further : List (List Field)) : Described.Good ⟨(l.reset answer further).2, none⟩ :=
  hgood.call (c := .reset l.value.handle.conn answer further) trivial

variable {s : RowStream} {answer : Answer Row} {further : List (List Field)}

variable {i : StepInput Row}

/-- The statement that `pdo_mylite_stmt_execute` steps has been reset since its last execution. -/
theorem resetExecuted_idle (hs : s.Sound)
    (hreset : s.reader.executed = true → (s.reader.stmt.reset answer further).1 = true) :
    (s.reader.resetExecuted answer further).value.handle.stmt.executed = false ∧
      ∃ live, Described.Good ⟨s.reader.resetExecuted answer further, live⟩ := by
  obtain ⟨live, hgood, hphase⟩ := hs
  unfold PdoReader.resetExecuted
  cases hexecuted : s.reader.executed with
  | true => exact ⟨Labelled.executed_reset (hreset hexecuted), none,
      good_reset hgood answer further⟩
  | false =>
    refine ⟨?_, live, hgood⟩
    cases hphase with
    | waiting _ idle _ => exact idle
    | ended executed => cases hexecuted.symm.trans executed
    | prefetched executed => cases hexecuted.symm.trans executed
    | streaming executed => cases hexecuted.symm.trans executed

/-- **Execution.** The first row is kept for the first fetch. -/
theorem streams_execute (hs : s.Sound) (numbers : Numbers)
    (hsucceeds : s.Succeeds (.execute answer further i m)) :
    s.Streams numbers (.execute answer further i m)
      ∧ (s.next (.execute answer further i m)).Sound := by
  obtain ⟨hreset, hok, hcount⟩ := hsucceeds
  obtain ⟨hidle, live, hgood⟩ := resetExecuted_idle hs hreset
  have hgood' := good_step hgood i fun _ => hcount
  have hdelivers := Labelled.delivers_step_new hidle i m
  have hwidth := fun row => @Labelled.columnCount_step_new _ i m hidle hcount row
  rw [Streams, next, PdoReader.execute, PdoReader.pdoMyliteStmtExecute]
  generalize (s.reader.resetExecuted answer further).step i m = p
    at hok hgood' hdelivers hwidth ⊢
  obtain ⟨result, l⟩ := p
  cases result with
  | row row =>
    obtain ⟨rest, hrows, hpending⟩ := hdelivers
    exact ⟨rfl, some row, hgood',
      .prefetched rfl rfl rfl row rest hrows rfl hpending (hwidth row rfl)⟩
  | done => exact ⟨rfl, none, hgood', .ended rfl rfl hdelivers⟩
  | error | nomem => exact absurd trivial hok

/-- **Fetch.** The row that is kept comes first, then a row with each step. -/
theorem streams_fetch (hs : s.Sound) (numbers : Numbers) (hsucceeds : s.Succeeds (.fetch i m)) :
    s.Streams numbers (.fetch i m) ∧ (s.next (.fetch i m)).Sound := by
  obtain ⟨live, hgood, hphase⟩ := hs
  rw [Streams, next, PdoReader.fetch, PdoReader.pdoMyliteStmtFetch]
  cases hphase with
  | waiting executed idle rows =>
    rw [executed, rows]
    exact ⟨⟨rfl, nofun⟩, live, hgood, .waiting executed idle rfl⟩
  | ended executed done rows =>
    rw [executed, done, rows]
    exact ⟨⟨rfl, nofun⟩, live, hgood, .ended executed done rfl⟩
  | prefetched executed open_ kept row rest rows shown pending width =>
    rw [executed, open_, kept, rows]
    subst shown
    refine ⟨⟨rfl, fun row' hrow => ?_⟩, some row, hgood, .streaming rfl rfl rfl pending width⟩
    obtain rfl : row = row' := Option.some.inj hrow
    rw [← width]
    exact PdoReader.reads_of_good numbers hgood
  | streaming executed open_ read pending width =>
    have hok := hsucceeds executed open_ read
    have hgood' := good_step hgood i (m := m) fun hnew =>
      absurd (hnew.symm.trans pending.executed) Bool.false_ne_true
    have hdelivers := Labelled.delivers_step_pending pending i m
    have hwidth := @Labelled.columnCount_step_pending _ i m _ pending
    rw [executed, open_, read]
    simp only [if_true, Bool.false_eq_true, if_false]
    generalize s.reader.stmt.step i m = p at hok hgood' hdelivers hwidth ⊢
    obtain ⟨result, l⟩ := p
    cases result with
    | row row =>
      obtain ⟨rest, hrows, hpending⟩ := hdelivers
      rw [hrows]
      refine ⟨⟨rfl, fun row' hrow => ?_⟩, some row, hgood',
        .streaming rfl rfl rfl hpending (hwidth.trans width)⟩
      obtain rfl : row = row' := Option.some.inj hrow
      rw [← width, ← hwidth]
      exact PdoReader.reads_of_good numbers hgood'
    | done =>
      rw [show s.rows = [] from hdelivers]
      exact ⟨⟨rfl, nofun⟩, none, hgood', .ended rfl rfl rfl⟩
    | error | nomem => exact absurd trivial hok

theorem sound_closeCursor (hs : s.Sound) (hsucceeds : s.Succeeds (.closeCursor answer further)) :
    (s.next (.closeCursor answer further)).Sound := by
  obtain ⟨live, hgood, -⟩ := hs
  exact ⟨none, good_reset hgood answer further,
    .waiting rfl (Labelled.executed_reset hsucceeds) rfl⟩

/-- **Row stream.** In every sequence of calls in which the backend does not fail, the fetches
    behind an execution return the rows of its result, each once and in order, and then no row until
    the next execution; behind `closeCursor` they return none. -/
theorem streams_of_succeeds (numbers : Numbers) {conn : Connection Row} {stmt : Stmt}
    {header : List Field} {calls : List StreamCall}
    (hsucceeds : Along next Succeeds (prepared conn stmt header) calls) :
    Along next (Streams numbers) (prepared conn stmt header) calls := by
  refine Along.imp_of_invariant Sound ?_ (sound_prepared conn stmt header) hsucceeds
  intro s c hs hc
  cases c with
  | execute answer further i m => exact streams_execute hs numbers hc
  | fetch i m => exact streams_fetch hs numbers hc
  | closeCursor answer further => exact ⟨trivial, sound_closeCursor hs hc⟩

/-- `SELECT a FROM t`, where `a` is an integer. -/
def selectColumn : RowStream :=
  prepared {} { state := .prepareDone, hasFields := true }
    [{ name := ascii "a", type := .longlong }]

/-- It is executed on a table with two rows. -/
def executeColumn : StreamCall :=
  .execute .ok [] { answers := [.rows [fun _ => some (ascii "5"), fun _ => none] false] }
    { header := [{ name := ascii "a", type := .longlong }] }

/-- A fetch. -/
def fetchColumn : StreamCall := .fetch { answers := [] } {}

/-- The C library on numbers without a sign. -/
def unsignedNumbers : Numbers where
  strtoll text := text.foldl (fun n b => n * 10 + (b.toNat - 0x30)) 0
  strtoull text := text.foldl (fun n b => n * 10 + (b.toNat - 0x30)) 0
  strtod _ := 0

/-- Both rows are fetched and the end is seen; the result is read again, closed after one row, and
    a last fetch returns nothing. -/
theorem streams_selectColumn :
    Along next (Streams unsignedNumbers) selectColumn [executeColumn, fetchColumn, fetchColumn,
      fetchColumn, executeColumn, fetchColumn, .closeCursor .ok [], fetchColumn] := by
  refine streams_of_succeeds unsignedNumbers ?_
  refine ⟨⟨nofun, by decide, fun _ => rfl⟩, nofun, fun _ _ _ => by decide, fun _ _ _ => by decide,
    ⟨fun _ => rfl, by decide, fun _ => rfl⟩, nofun, rfl, nofun, trivial⟩

end RowStream

end MyLite.Php

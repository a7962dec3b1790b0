import MyLite.Lib.Run
import MyLite.Prepared.Step

namespace MyLite.Prepared

open MyLite.Lib MyLite.Client Connection Session Handle

/-!
# When `MYLITE_DONE` is the truth

One statement, alone on its connection, is stepped and reset in any order, and the backend fails
wherever it likes.  An observer notes what the statement owes its caller: the rows of the first
result set, once an execution succeeds, and the rows it has returned since.

* `Observed.call` — a call, with the observer's notes.
* `Dependable` — no set-up of results behind an execution fails, no column of a truncated row
  fails, no reset fails, and no command is sent while `cur_data` is stale.
* `done_of_run` — under these calls `MYLITE_DONE` means that all rows were returned.
-/

variable {Row : Type}

/-- The calls on one statement. -/
inductive Call (Row : Type)
  | step (i : StepInput Row)
  | reset (answer : Answer Row)

/-- A statement under observation. -/
structure Observed (Row : Type) where
  handle : Handle Row
  /-- The rows of the first result set of the execution that succeeded since the last attempt to
      reset the statement; `none` if none did. -/
  owed : Option (List Row) := none
  /-- The rows returned as `MYLITE_ROW` since then. -/
  delivered : List Row := []
  /-- What the last call of `mylite_step` returned. -/
  last : Option (StepResult Row) := none

/-- The rows of the first result set. -/
def firstRows : List (Answer Row) → List Row
  | .rows rows _ :: _ => rows
  | _ => []

/-- The row of a result. -/
def StepResult.rows : StepResult Row → List Row
  | .row r => [r]
  | _ => []

namespace Observed

/-- A call, with the observer's notes.  A step executes the statement successfully exactly when
    it sets `executed`. -/
def call (o : Observed Row) : Call Row → Observed Row
  | .step i =>
    match o.handle.step i with
    | (result, h) =>
      if !o.handle.stmt.executed && h.stmt.executed then
        ⟨h, some (firstRows i.answers), result.rows, some result⟩
      else ⟨h, o.owed, o.delivered ++ result.rows, some result⟩
  | .reset answer => ⟨(o.handle.reset answer).2, none, [], none⟩

end Observed

/-! ### What the rest of a result looks like -/

/-- Nothing can be fetched although it is not a row of the first result set. -/
def NoStray (s : Session Row) : Prop :=
  s.stmt.state ≠ .initDone ∧
    ¬(s.stmt.readRow = .unbuffered ∧ s.conn.status = .statementGetResult)

variable {s : Session Row}

theorem noStray_resetHandle (h : NoStray s) (clear : Bool) : NoStray (s.resetHandle clear) := by
  rw [resetHandle, if_neg h.1]
  exact ⟨by simp, by simp⟩

theorem resetHandle_lastError (s : Session Row) :
    (s.resetHandle false).stmt.lastError = s.stmt.lastError := by
  rw [resetHandle, flushPending]
  split_ifs <;> simp

theorem nextResult_cases (c : Connection Row) :
    c.nextResult = (.noMore, c) ∨
    (∃ c', c.nextResult = (.error, c') ∧ c'.status = c.status) ∨
    (∃ c', c.nextResult = (.ok, c') ∧
      (c'.hasFields = false ∧ c'.status = .ready ∨
        c'.hasFields = true ∧ c'.status = .getResult)) := by
  rw [nextResult]
  split_ifs with hstatus hmore
  · exact .inr (.inl ⟨c, rfl, rfl⟩)
  · rw [readQueryResult]
    match c.firstData with
    | [] | .error :: _ => exact .inr (.inl ⟨_, rfl, rfl⟩)
    | .ok :: _ => exact .inr (.inr ⟨_, rfl, .inl ⟨rfl, not_not.mp hstatus⟩⟩)
    | .rows _ _ :: _ => exact .inr (.inr ⟨_, rfl, .inr ⟨rfl, rfl⟩⟩)
  · exact .inl rfl

/-- What `mysql_stmt_next_result` leaves behind: nothing stray, or a result set that is complete
    and waits to be stored. -/
theorem stmtNextResult_cases (h : NoStray s) :
    (∃ s', s.stmtNextResult = (.noMore, s') ∧ NoStray s') ∨
    (∃ s', s.stmtNextResult = (.error, s') ∧ NoStray s') ∨
    (∃ s', s.stmtNextResult = (.ok, s') ∧ s'.stmt.state = .executeDone ∧
      (s'.stmt.hasFields = false ∧ NoStray s' ∨
        s'.stmt.hasFields = true ∧ s'.stmt.lastError = false ∧
          s'.conn.status = .statementGetResult)) := by
  by_cases herr : s.stmt.lastError = true
  · exact .inr (.inl ⟨s, by rw [stmtNextResult, if_pos herr], h⟩)
  -- `t` is the statement after the reset that an announced result calls for.
  obtain ⟨t, ht, hstray, herr'⟩ : ∃ t, (if s.conn.moreResults then s.resetHandle false else s) = t ∧
      NoStray t ∧ t.stmt.lastError = false := by
    refine ⟨_, rfl, ?_, ?_⟩
    · split_ifs
      exacts [noStray_resetHandle h false, h]
    · split_ifs
      · rw [resetHandle_lastError, Bool.eq_false_iff.mpr herr]
      · exact Bool.eq_false_iff.mpr herr
  rw [stmtNextResult, if_neg herr, ht, takeNextResult]
  rcases nextResult_cases t.conn with hn | ⟨c, hn, hc⟩ | ⟨c, hn, hc⟩
  · exact .inl ⟨t, by rw [hn], hstray⟩
  · refine .inr (.inl ⟨⟨c, { t.stmt with lastError := true }⟩, by rw [hn], hstray.1, ?_⟩)
    exact fun hs => hstray.2 ⟨hs.1, hc ▸ hs.2⟩
  · refine .inr (.inr ⟨⟨c.forStatement, { t.stmt with
      state := .executeDone, hasFields := c.hasFields,
      readRow := if c.hasFields then .unbuffered else t.stmt.readRow }⟩, by rw [hn], rfl, ?_⟩)
    rcases hc with ⟨hf, hs⟩ | ⟨hf, hs⟩
    · refine .inl ⟨hf, by simp, fun hu => ?_⟩
      have hstatus : c.forStatement.status = .ready := by simp [forStatement, hs]
      rw [hstatus] at hu
      exact absurd hu.2 (by decide)
    · exact .inr ⟨hf, herr', by simp [forStatement, hs]⟩

/-- A result set that waits is stored, and nothing stray stays behind. -/
theorem noStray_stmtStoreResult (hstate : s.stmt.state = .executeDone)
    (hfields : s.stmt.hasFields = true) (herr : s.stmt.lastError = false)
    (hstatus : s.conn.status = .statementGetResult) : NoStray (s.stmtStoreResult true).2 := by
  have hex : s.wasExecuted = true := by simp [wasExecuted, hstate]
  rw [stmtStoreResult]
  simp only [hfields, hex, herr, hstatus, Bool.not_true, Bool.false_eq_true, if_false, ne_eq,
    not_true_eq_false, decide_false, Bool.or_self]
  -- Reading the rows sets the status back, whether it succeeds or not.
  rcases hread : s.conn.readRows with ⟨ok, c⟩
  cases ok
  · exact ⟨by simp [hstate], by simp⟩
  · exact ⟨by simp [hstate], by simp⟩

/-- The run over the remaining results leaves nothing stray, however it ends. -/
theorem noStray_drainLoop (turns : ℕ) (h : NoStray s) :
    NoStray (drainLoop true turns s).2 := by
  induction turns generalizing s with
  | zero => exact h
  | succ turns ih =>
    rw [drainLoop]
    rcases stmtNextResult_cases h with ⟨s', hn, hs⟩ | ⟨s', hn, hs⟩ | ⟨s', hn, hstate, hs⟩
    · rw [hn]; exact hs
    · rw [hn]; exact hs
    · rw [hn]
      rcases hs with ⟨hf, hs⟩ | ⟨hf, herr, hstatus⟩
      · simp only [hf, Bool.not_false, if_true]
        exact ih hs
      · have hstore := noStray_stmtStoreResult hstate hf herr hstatus
        simp only [hf, Bool.not_true, Bool.false_eq_true, if_false]
        rcases hres : s'.stmtStoreResult true with ⟨ok, t⟩
        rw [hres] at hstore
        cases ok
        · exact hstore
        · exact ih (noStray_resetHandle hstore true)

/-! ### One fetch -/

/-- A statement that was executed and still reads its result: `rows` are owed, `delivered` were
    returned. -/
structure Fetching (h : Handle Row) (rows delivered : List Row) : Prop where
  executed : h.stmt.executed = true
  hasResult : h.stmt.hasResult = true
  state : h.stmt.stmt.state ≠ .initDone
  rest :
    -- The other rows are pending,
    (∃ rest failed, rows = delivered ++ rest ∧ h.conn.curData = some (rest, failed) ∧
      h.conn.status = .statementGetResult ∧ h.stmt.stmt.readRow = .unbuffered) ∨
    -- or a fetch failed, or there never was a result set,
    h.stmt.stmt.readRow = .noResultSet ∨
    -- or only later results are left.
    (rows = delivered ∧ NoStray h.session)

/-- A statement that has returned all its rows. -/
structure Finished (h : Handle Row) (rows delivered : List Row) : Prop where
  executed : h.stmt.executed = true
  hasResult : h.stmt.hasResult = false
  state : h.stmt.stmt.state ≠ .initDone
  all : rows = delivered

/-- The state a fetch leads to, by what it returns. -/
def FetchPost (rows delivered : List Row) : StepResult Row × Handle Row → Prop
  | (.done, h) => Finished h rows delivered
  | (result, h) => Fetching h rows (delivered ++ result.rows)

/-- The inputs of a step that do not break the promise. -/
def StepInput.Dependable (i : StepInput Row) : Prop :=
  i.setupAfter.succeeds = true ∧ (i.truncated = true → i.fetchColumns = true) ∧
    i.storeBind = true

variable {h : Handle Row} {rows delivered : List Row}

theorem fetchPost_error (hf : Fetching h rows delivered) :
    FetchPost rows delivered (.error, h) := by
  show Fetching h rows (delivered ++ [])
  rwa [List.append_nil]

theorem fetchPost_endOfRows (hex : h.stmt.executed = true) (hres : h.stmt.hasResult = true)
    (hs : NoStray h.session) : FetchPost rows rows (h.endOfRows true) := by
  have hdrain := noStray_drainLoop (h.conn.firstData.length + 1) hs
  rw [endOfRows, drainRemainingStatementResults]
  rcases hd : drainLoop true (h.conn.firstData.length + 1) h.session with ⟨ok, s⟩
  rw [hd] at hdrain
  simp only [session] at hd ⊢
  rw [hd]
  cases ok
  · exact fetchPost_error ⟨hex, hres, hdrain.1, .inr (.inr ⟨rfl, hdrain⟩)⟩
  · exact ⟨hex, rfl, hdrain.1, rfl⟩

/-- `mysql_stmt_fetch` while rows are pending. -/
theorem stmtFetch_pending {rest : List Row} {failed : Bool}
    (hdata : s.conn.curData = some (rest, failed)) (hstatus : s.conn.status = .statementGetResult)
    (hread : s.stmt.readRow = .unbuffered) (ok : Bool) :
    (∃ s', s.stmtFetch ok = (.error, s') ∧ s'.stmt.state ≠ .initDone ∧
      s'.stmt.readRow = .noResultSet) ∨
    (∃ s', s.stmtFetch ok = (.noData, s') ∧ rest = [] ∧ NoStray s') ∨
    (∃ row rest' s', s.stmtFetch ok = (.row row, s') ∧ rest = row :: rest' ∧
      s'.stmt.state ≠ .initDone ∧ s'.conn.curData = some (rest', failed) ∧
      s'.conn.status = .statementGetResult ∧ s'.stmt.readRow = .unbuffered) := by
  have hrow : s.readRowFunc ok = readRowUnbuffered s.conn ok := by
    rw [readRowFunc, hread]
  rw [stmtFetch, hrow, readRowUnbuffered, if_neg (not_not.mpr hstatus),
    unbufferedFetch, hdata]
  by_cases hfail : (failed || !ok) = true
  · simp only [hfail, if_true]
    exact .inl ⟨_, rfl, by simp, rfl⟩
  · simp only [hfail]
    cases rest with
    | nil => exact .inr (.inl ⟨_, rfl, rfl, by simp, by simp⟩)
    | cons row rest => exact .inr (.inr ⟨row, rest, _, rfl, rfl, by simp, rfl, hstatus, hread⟩)

/-- `mysql_stmt_fetch` while nothing is there to be fetched. -/
theorem stmtFetch_noStray
    (h : ¬(s.stmt.readRow = .unbuffered ∧ s.conn.status = .statementGetResult)) (ok : Bool) :
    (∃ s', s.stmtFetch ok = (.error, s') ∧ s'.stmt.state ≠ .initDone ∧
      s'.stmt.readRow = .noResultSet) ∨
    (∃ s', s.stmtFetch ok = (.noData, s') ∧ s.stmt.readRow = .noData ∧ NoStray s') := by
  rw [stmtFetch, readRowFunc]
  cases hread : s.stmt.readRow with
  | noResultSet => exact .inl ⟨_, rfl, by simp, rfl⟩
  | noData => exact .inr ⟨_, rfl, rfl, by simp, by simp⟩
  | unbuffered =>
    have hstatus : s.conn.status ≠ .statementGetResult := fun hs => h ⟨hread, hs⟩
    rw [readRowUnbuffered, if_pos hstatus]
    exact .inl ⟨_, rfl, by simp, rfl⟩

variable {i : StepInput Row}

/-- **Fetch.** A fetch returns the next row that is owed, or `MYLITE_DONE` when none is left, or
    an error. -/
theorem fetchPost_fetchBound (hf : Fetching h rows delivered) (hi : i.Dependable) :
    FetchPost rows delivered (h.fetchBound i) := by
  obtain ⟨hex, hres, hstate, hrest⟩ := hf
  obtain ⟨-, htrunc, hbind⟩ := hi
  rw [fetchBound, hbind]
  rcases hrest with ⟨rest, failed, rfl, hdata, hstatus, hread⟩ | hread | ⟨rfl, hstray⟩
  · rcases stmtFetch_pending (s := h.session) hdata hstatus hread i.fetch with
      ⟨s, hs, hst, hr⟩ | ⟨s, hs, rfl, hst⟩ | ⟨row, rest', s, hs, rfl, hst, hd, hstatus', hr⟩
    · rw [hs]
      exact fetchPost_error ⟨hex, hres, hst, .inr (.inl hr)⟩
    · rw [hs, List.append_nil]
      exact fetchPost_endOfRows hex hres hst
    · have hfits : ¬(i.truncated && !i.fetchColumns) = true := by simpa using htrunc
      rw [hs]
      show FetchPost _ _ ((h.withSession s).rowFetched i row)
      rw [rowFetched, if_neg hfits]
      refine ⟨hex, hres, hst, .inl ⟨rest', failed, ?_, hd, hstatus', hr⟩⟩
      rw [StepResult.rows, List.append_assoc, List.singleton_append]
  · -- There is no result set to read from, and there will be none.
    rcases stmtFetch_noStray (s := h.session) (fun hu => absurd (hread.symm.trans hu.1) (by decide))
      i.fetch with ⟨s, hs, hst, hr⟩ | ⟨s, -, hn, -⟩
    · rw [hs]
      exact fetchPost_error ⟨hex, hres, hst, .inr (.inl hr)⟩
    · exact absurd (hread.symm.trans hn) (by decide)
  · rcases stmtFetch_noStray hstray.2 i.fetch with ⟨s, hs, hst, hr⟩ | ⟨s, hs, -, hst⟩
    · rw [hs]
      exact fetchPost_error ⟨hex, hres, hst, .inr (.inl hr)⟩
    · rw [hs]
      exact fetchPost_endOfRows hex hres hst

theorem fetchPost_fetchStatementRow (hf : Fetching h rows delivered) (hi : i.Dependable) :
    FetchPost rows delivered (h.fetchStatementRow i) := by
  obtain ⟨hex, hres, hstate, hrest⟩ := hf
  rw [fetchStatementRow]
  split_ifs
  · -- The columns could not be bound again; nothing was read.
    exact fetchPost_error ⟨hex, hres, hstate, hrest⟩
  · exact fetchPost_fetchBound ⟨hex, hres, hstate, hrest⟩ hi

/-! ### One step -/

/-- A statement that waits to be executed. -/
structure Idle (h : Handle Row) : Prop where
  executed : h.stmt.executed = false
  state : h.stmt.stmt.state = .prepareDone
  status : h.conn.status = .ready

theorem idle_releaseStatementResults (hi : Idle h) : Idle h.releaseStatementResults := by
  obtain ⟨hex, hstate, hstatus⟩ := hi
  have hflush : h.session.flushPending = h.session := by
    rw [flushPending, if_neg]
    simp [wasExecuted, session, hstate]
  rw [releaseStatementResults]
  by_cases hr : h.stmt.hasResult = true
  · simp only [hr, if_true, freeResult, resetHandle, hflush]
    simp only [session, hstate, reduceCtorEq, if_false]
    exact ⟨hex, rfl, hstatus⟩
  · simp only [hr]
    exact ⟨hex, hstate, hstatus⟩

/-- `mysql_stmt_execute` of a statement that waits: it fails and the statement waits on, or the
    server's first answer is there. -/
theorem stmtExecute_cases (hstate : s.stmt.state = .prepareDone) (hstatus : s.conn.status = .ready)
    (answers : List (Answer Row)) :
    (∃ s', s.stmtExecute answers = (false, s') ∧ s'.stmt.state = .prepareDone ∧
      s'.conn.status = .ready) ∨
    (∃ s', s.stmtExecute answers = (true, s') ∧ s'.stmt.state = .executeDone ∧
      (firstRows answers = [] ∧ s'.stmt.readRow = .noResultSet ∧
          s'.stmt.hasFields = s.stmt.hasFields ∨
        (∃ failed, s'.conn.curData = some (firstRows answers, failed) ∧
          s'.conn.status = .statementGetResult ∧ s'.stmt.readRow = .unbuffered ∧
          s'.stmt.hasFields = true))) := by
  have hreset : s.resetHandle true =
      ⟨s.conn, { s.stmt with readRow := .noResultSet, lastError := false }⟩ := by
    rw [resetHandle, if_neg (by simp [hstate]), flushPending, if_neg]
    · simp [hstate]
    · simp [wasExecuted, hstate]
  simp only [stmtExecute, hreset, embStmtExecute, advancedCommand, clearDataList,
    hstatus, if_true, readQueryResult]
  match answers with
  | [] | .error :: _ => exact .inl ⟨_, rfl, hstate, rfl⟩
  | .ok :: _ =>
    refine .inr ⟨_, rfl, rfl, .inl ⟨rfl, ?_, ?_⟩⟩
    · simp
    · simp
  | .rows rows failed :: _ =>
    refine .inr ⟨_, rfl, rfl, .inr ⟨failed, ?_, ?_, ?_, ?_⟩⟩
    · simp [forStatement, firstRows]
    · simp [forStatement]
    · simp
    · simp

/-- Where `mylite_step` goes on after an execution. -/
def Executed (h : Handle Row) (rows : List Row) : Prop :=
  if h.stmt.hasResult then Fetching h rows [] else Finished h rows []

/-- Behind a successful execution the rows of its first answer are owed. -/
theorem executed_executionDone {i : Setup} (hi : i.succeeds = true)
    (hst : s.stmt.state = .executeDone)
    (hc : rows = [] ∧ s.stmt.readRow = .noResultSet ∧ s.stmt.hasFields = h.stmt.hasResult ∨
      (∃ failed, s.conn.curData = some (rows, failed) ∧ s.conn.status = .statementGetResult ∧
        s.stmt.readRow = .unbuffered ∧ s.stmt.hasFields = true)) :
    ∃ h', (h.withSession s).executionDone i = (none, h') ∧ Executed h' rows := by
  have hstate : s.stmt.state ≠ .initDone := by simp [hst]
  rw [executionDone]
  by_cases hlate : (!h.stmt.hasResult && s.stmt.hasFields) = true
  · -- The result was not known before: it is set up now, and that does not fail.
    have hrows : ∃ failed, s.conn.curData = some (rows, failed) ∧
        s.conn.status = .statementGetResult ∧ s.stmt.readRow = .unbuffered ∧
        s.stmt.hasFields = true := by
      rcases hc with ⟨-, -, hf⟩ | hc
      · simp [hf] at hlate
      · exact hc
    obtain ⟨failed, hdata, hstatus, hread, hf⟩ := hrows
    simp only [withSession, hlate, if_true, initializeStatementResults,
      Bool.false_eq_true, if_false]
    rcases setUpResults_cases ⟨s.conn, { h.stmt with stmt := s.stmt, executed := true }⟩ i
      with ⟨result, g, -, -, hbad, -⟩ | ⟨g, hs, hconn, hstmt, hexg, hres⟩
    · rw [hi] at hbad
      cases hbad
    · refine ⟨g, hs, ?_⟩
      rw [Executed, hres, if_pos hf]
      refine ⟨hexg, hres.trans hf, hstmt ▸ hstate, .inl ⟨rows, failed, rfl, ?_, ?_, ?_⟩⟩
      · rw [hconn]; exact hdata
      · rw [hconn]; exact hstatus
      · rw [hstmt]; exact hread
  · simp only [withSession, hlate]
    refine ⟨_, rfl, ?_⟩
    cases hres : h.stmt.hasResult with
    | false =>
      rcases hc with ⟨rfl, -, -⟩ | ⟨-, -, -, -, hf⟩
      · exact ⟨rfl, rfl, hstate, rfl⟩
      · simp [hres, hf] at hlate
    | true =>
      refine ⟨rfl, rfl, hstate, ?_⟩
      rcases hc with ⟨-, hread, -⟩ | ⟨failed, hdata, hstatus, hread, -⟩
      · exact .inr (.inl hread)
      · exact .inl ⟨rows, failed, rfl, hdata, hstatus, hread⟩

/-- The execution fails and the statement waits on, or its rows are owed. -/
theorem executeStatement_cases (hidle : Idle h) (hi : i.Dependable) :
    (∃ result h', h.executeStatement i = (some result, h') ∧ result.IsFailure ∧ Idle h') ∨
    (∃ h', h.executeStatement i = (none, h') ∧ Executed h' (firstRows i.answers)) := by
  rw [executeStatement]
  by_cases hbind : i.bindParameters = true
  swap
  · rw [if_pos (by simpa using hbind)]
    exact .inl ⟨.error, _, rfl, trivial, ⟨hidle.executed, hidle.state, hidle.status⟩⟩
  obtain ⟨hex, hstate, hstatus⟩ := idle_releaseStatementResults hidle
  rw [if_neg (by simpa using hbind), initializeStatementResults, if_pos rfl]
  rcases setUpResults_cases h.releaseStatementResults i.setup with
    ⟨result, g, hs, hfail, -, hconn, hexg, hstg⟩ | ⟨g, hs, hconn, hstmt, hexg, hres⟩
  · rw [hs]
    exact .inl ⟨result, g, rfl, hfail, hexg.trans hex, hstg.trans hstate, hconn ▸ hstatus⟩
  rw [hs]
  have hstate' : g.stmt.stmt.state = .prepareDone := by rw [hstmt, hstate]
  have hstatus' : g.conn.status = .ready := by rw [hconn, hstatus]
  rcases stmtExecute_cases (s := g.session) hstate' hstatus' i.answers with
    ⟨s, he, hst, hc⟩ | ⟨s, he, hst, hc⟩
  · simp only [he]
    exact .inl ⟨.error, _, rfl, trivial, hexg.trans hex, hst, hc⟩
  · simp only [he]
    refine .inr (executed_executionDone hi.1 hst ?_)
    rw [hres, ← hstmt]
    exact hc

/-! ### Whole runs -/

/-- What the observer can count on. -/
def Truthful (o : Observed Row) : Prop :=
  Idle o.handle ∧ o.owed = none ∨
    ∃ rows, o.owed = some rows ∧
      (Fetching o.handle rows o.delivered ∨ Finished o.handle rows o.delivered)

/-- The calls under which `MYLITE_DONE` can be believed: the set-up of results behind an execution
    succeeds, the columns of a truncated row are fetched, later results are stored,
    `mylite_reset` returns `MYLITE_OK`, and an execution and a reset find `cur_data` not stale. -/
def Dependable (o : Observed Row) : Call Row → Prop
  | .step i => i.Dependable ∧ (o.handle.stmt.executed = false → o.handle.conn.stale = false)
  | .reset answer => (o.handle.reset answer).1 = true ∧ o.handle.conn.stale = false

/-- `mylite_prepare` returns a statement, on a connection whose `cur_data` is not stale. -/
def Prepares (conn : Connection Row) (answers : List (Answer Row)) (stmt : MyliteStmt)
    (conn' : Connection Row) : Prop :=
  conn.stale = false ∧ prepare conn answers = (some stmt, conn')

/-- `MYLITE_DONE` was returned only where all rows that are owed had been returned. -/
def DoneIsTrue (o : Observed Row) : Prop :=
  o.last = some .done → o.owed = some o.delivered

theorem fetchPost_owed {result : StepResult Row} (hp : FetchPost rows delivered (result, h)) :
    (Fetching h rows (delivered ++ result.rows) ∨ Finished h rows (delivered ++ result.rows)) ∧
      (result = .done → rows = delivered ++ result.rows) := by
  cases result with
  | done =>
    have hp : Finished h rows delivered := hp
    simp only [StepResult.rows, List.append_nil]
    exact ⟨.inr hp, fun _ => hp.all⟩
  | row r | error | nomem => exact ⟨.inl hp, fun hd => by cases hd⟩

/-- `mylite_step` on a statement whose result is known, after an execution now or earlier. -/
theorem owed_continue (hi : i.Dependable) (hh : if h.stmt.hasResult then Fetching h rows delivered
      else Finished h rows delivered) :
    ∃ result h', (if h.stmt.hasResult then h.fetchStatementRow i else (.done, h)) = (result, h') ∧
      (Fetching h' rows (delivered ++ result.rows) ∨ Finished h' rows (delivered ++ result.rows)) ∧
      (result = .done → rows = delivered ++ result.rows) := by
  cases hres : h.stmt.hasResult with
  | true =>
    rw [hres, if_pos rfl] at hh
    have hpost := fetchPost_fetchStatementRow hh hi
    rcases hf : h.fetchStatementRow i with ⟨result, h'⟩
    rw [hf] at hpost
    exact ⟨result, h', by rw [if_pos rfl], fetchPost_owed hpost⟩
  | false =>
    rw [hres, if_neg Bool.false_ne_true] at hh
    exact ⟨.done, h, by rw [if_neg Bool.false_ne_true], fetchPost_owed hh⟩

/-- **Step.** A dependable step keeps the observer's notes right, and returns `MYLITE_DONE` only
    when all owed rows were returned. -/
theorem truthful_step {o : Observed Row} (ht : Truthful o) (hi : i.Dependable) :
    Truthful (o.call (.step i)) ∧ DoneIsTrue (o.call (.step i)) := by
  rcases ht with ⟨hidle, howed⟩ | ⟨rows, howed, hrows⟩
  · rcases executeStatement_cases hidle hi with ⟨result, h, he, hfail, hh⟩ | ⟨h, he, hh⟩
    · have hstep : o.handle.step i = (result, h) := by
        rw [step, hidle.executed, if_neg Bool.false_ne_true, he]
      simp only [Observed.call, hstep, hh.executed, Bool.and_false, Bool.false_eq_true, if_false]
      refine ⟨.inl ⟨hh, howed⟩, fun hd => ?_⟩
      obtain rfl : result = .done := Option.some.inj hd
      exact hfail.elim
    · obtain ⟨result, h', hcont, hpost, hdone⟩ := owed_continue hi hh
      have hstep : o.handle.step i = (result, h') := by
        rw [step, hidle.executed, if_neg Bool.false_ne_true, he]
        exact hcont
      have hex : h'.stmt.executed = true := hpost.elim Fetching.executed Finished.executed
      simp only [Observed.call, hstep, hidle.executed, hex, Bool.not_false, Bool.and_self, if_true]
      refine ⟨.inr ⟨_, rfl, hpost⟩, fun hd => ?_⟩
      exact congrArg some (hdone (Option.some.inj hd))
  · have hex : o.handle.stmt.executed = true := hrows.elim Fetching.executed Finished.executed
    have hh : if o.handle.stmt.hasResult then Fetching o.handle rows o.delivered
        else Finished o.handle rows o.delivered := by
      rcases hrows with hf | hf
      · rw [if_pos hf.hasResult]; exact hf
      · rw [if_neg (by simp [hf.hasResult])]; exact hf
    obtain ⟨result, h', hcont, hpost, hdone⟩ := owed_continue hi hh
    have hstep : o.handle.step i = (result, h') := by
      rw [step, hex, if_pos rfl]
      exact hcont
    simp only [Observed.call, hstep, hex, Bool.not_true, Bool.false_and, Bool.false_eq_true,
      if_false]
    refine ⟨.inr ⟨rows, howed, hpost⟩, fun hd => ?_⟩
    rw [← hdone (Option.some.inj hd)]
    exact howed

theorem releaseStatementResults_state (hstate : h.stmt.stmt.state ≠ .initDone) :
    h.releaseStatementResults.stmt.stmt.state ≠ .initDone := by
  rw [releaseStatementResults]
  split_ifs
  · have hsession : h.session.stmt.state ≠ .initDone := hstate
    show (h.session.resetHandle true).stmt.state ≠ .initDone
    rw [resetHandle, if_neg hsession]
    simp
  · exact hstate

/-- A command that gets to the server finds the connection ready, and leaves it so. -/
theorem advancedCommand_cases (c : Connection Row) (answers : List (Answer Row)) :
    (∃ c', c.advancedCommand answers = (false, c')) ∨
    (∃ c', c.advancedCommand answers = (true, c') ∧ c'.status = .ready ∧
      c'.firstData = answers) := by
  rw [advancedCommand]
  by_cases hs : c.clearDataList.status = .ready
  · rw [if_pos hs]
    exact .inr ⟨_, rfl, hs, rfl⟩
  · rw [if_neg hs]
    exact .inl ⟨_, rfl⟩

/-- A reset that succeeds leaves a statement that waits. -/
theorem idle_reset {answer : Answer Row} (hstate : h.stmt.stmt.state ≠ .initDone)
    (hok : (h.reset answer).1 = true) : Idle (h.reset answer).2 := by
  have hrel := releaseStatementResults_state hstate
  have hrel' : h.releaseStatementResults.session.stmt.state ≠ .initDone := hrel
  rw [reset, stmtReset, if_neg hrel'] at hok ⊢
  rcases advancedCommand_cases h.releaseStatementResults.session.resetAllBuffers.conn
    [answer] with
    ⟨c, hc⟩ | ⟨c, hc, hready, -⟩
  · simp [hc] at hok
  · simp only [hc, Bool.true_and] at hok ⊢
    cases herr : answer.isError with
    | true => simp [herr] at hok
    | false => exact ⟨rfl, rfl, hready⟩

theorem state_ne_initDone {o : Observed Row} (ht : Truthful o) :
    o.handle.stmt.stmt.state ≠ .initDone := by
  rcases ht with ⟨hidle, -⟩ | ⟨rows, -, hf | hf⟩
  · simp [hidle.state]
  · exact hf.state
  · exact hf.state

/-- A statement that was just prepared waits. -/
theorem idle_prepare {conn conn' : Connection Row} {answers : List (Answer Row)} {stmt : MyliteStmt}
    (h : prepare conn answers = (some stmt, conn')) : Idle (⟨conn', stmt⟩ : Handle Row) := by
  rw [prepare, stmtPrepare] at h
  rcases advancedCommand_cases conn answers with ⟨c, hc⟩ | ⟨c, hc, hready, -⟩
  · simp [hc] at h
  · simp only [hc] at h
    by_cases he : answers.isEmpty = true
    · simp only [he, if_true, Prod.mk.injEq, Option.some.injEq] at h
      obtain ⟨rfl, rfl⟩ := h
      exact ⟨rfl, rfl, hready⟩
    · simp only [he] at h
      rcases hq : c.readQueryResult with ⟨ok, c'⟩
      cases ok
      · simp [hq] at h
      · simp only [hq, Bool.false_eq_true, if_false, Prod.mk.injEq, Option.some.injEq] at h
        obtain ⟨rfl, rfl⟩ := h
        exact ⟨rfl, rfl, rfl⟩

/-- **Run.** As long as the calls are dependable, `MYLITE_DONE` means that the statement was
    executed since the last reset and that all rows of its first result set were returned, each
    once and in order. -/
theorem done_of_run (conn conn' : Connection Row) (answers : List (Answer Row))
    (stmt : MyliteStmt) (hprepare : Prepares conn answers stmt conn')
    (calls : List (Call Row)) (o : Observed Row)
    (hrun : Run (Restrict Dependable (ofFun Observed.call))
      { handle := ⟨conn', stmt⟩ } calls o) :
    DoneIsTrue o := by
  refine (hrun.invariant (fun o => Truthful o ∧ DoneIsTrue o) ?_ ?_).2
  · exact ⟨.inl ⟨idle_prepare hprepare.2, rfl⟩, fun hd => by cases hd⟩
  · rintro o c o' ⟨ht, -⟩ ⟨hc, rfl⟩
    cases c with
    | step i => exact truthful_step ht hc.1
    | reset answer =>
      refine ⟨.inl ⟨idle_reset (state_ne_initDone ht) hc.1, rfl⟩, fun hd => ?_⟩
      cases hd

/-- A statement like `SHOW`, whose columns are not known before it is executed, on a fresh
    connection. -/
def showStatement : Observed ℕ where
  handle := ⟨{}, { stmt := { state := .prepareDone } }⟩

theorem done_of_showStatement :
    let o := (showStatement.call (.step { answers := [.rows [10] false] })).call
      (.step { answers := [] })
    o.last = some .done ∧ o.owed = some [10] ∧ o.delivered = [10] := by
  intro o
  have hdone : DoneIsTrue o := by
    refine done_of_run {} {} [] { stmt := { state := .prepareDone } }
      ⟨rfl, rfl⟩ [.step { answers := [.rows [10] false] }, .step { answers := [] }] o ?_
    exact .cons ⟨⟨⟨rfl, by simp, rfl⟩, fun _ => rfl⟩, rfl⟩
      (.cons ⟨⟨⟨rfl, by simp, rfl⟩, fun _ => rfl⟩, rfl⟩ (.nil _))
  have howed := hdone rfl
  exact ⟨rfl, rfl, Option.some.inj (howed.symm.trans rfl)⟩

/-- The columns of a `SHOW` cannot be bound behind its execution: that step fails, and the next
    one returns `MYLITE_DONE` although both rows are still owed. -/
theorem not_doneIsTrue_failedSetup :
    let o := (showStatement.call (.step
      { answers := [.rows [10, 20] false], setupAfter := { bind := false } })).call
      (.step { answers := [] })
    o.last = some .done ∧ o.owed = some [10, 20] ∧ o.delivered = [] ∧ ¬DoneIsTrue o := by
  refine ⟨rfl, rfl, rfl, fun hdone => ?_⟩
  exact absurd (hdone rfl) (by decide)

end MyLite.Prepared

import MyLite.Prepared.Done
import MyLite.Prepared.Parameters

namespace MyLite.Prepared

open MyLite.Client Connection

/-!
# The rows of an execution, one after another

What a step returns when it does not fail, whatever happened to the statement and its connection
before: behind an execution the first row of the answer, and while rows wait the next of them.

* `Pending` — the rows that wait to be fetched.
* `delivers_step` — a step while rows wait.
* `delivers_step_of_not_executed` — a step that executes the statement.
-/

variable {Row : Type}

/-- The rows `rest` wait to be fetched. -/
structure Pending (h : Handle Row) (rest : List Row) : Prop where
  executed : h.stmt.executed = true
  hasResult : h.stmt.hasResult = true
  data : ∃ failed, h.conn.curData = some (rest, failed)
  status : h.conn.status = .statementGetResult
  readRow : h.stmt.stmt.readRow = .unbuffered

/-- A result where `rest` is to be delivered: the next row, or the end if there is none. -/
def Delivers (rest : List Row) : StepResult Row × Handle Row → Prop
  | (.row r, h) => ∃ rest', rest = r :: rest' ∧ Pending h rest'
  | (.done, _) => rest = []
  | _ => True

theorem delivers_endOfRows (h : Handle Row) (storeBind : Bool) :
    Delivers [] (h.endOfRows storeBind) := by
  unfold Handle.endOfRows Handle.drainRemainingStatementResults
  dsimp only
  rcases Handle.drainLoop storeBind _ _ with ⟨ok, s⟩
  cases ok with
  | false => trivial
  | true => rfl

variable {h : Handle Row} {rest : List Row}

/-- **A fetch while rows wait.** -/
theorem delivers_fetchStatementRow (hp : Pending h rest) (i : StepInput Row) :
    Delivers rest (h.fetchStatementRow i) := by
  obtain ⟨hexecuted, hresult, ⟨failed, hdata⟩, hstatus, hread⟩ := hp
  unfold Handle.fetchStatementRow
  split_ifs
  · trivial
  · unfold Handle.fetchBound
    rcases stmtFetch_pending
        (s := Handle.session { h with stmt := { h.stmt with resultBindsDirty := false } })
        hdata hstatus hread i.fetch with
      ⟨s, hs, -⟩ | ⟨s, hs, rfl, -⟩ | ⟨row, rest', s, hs, rfl, -, hdata', hstatus', hread'⟩
    · rw [hs]
      trivial
    · rw [hs]
      exact delivers_endOfRows _ i.storeBind
    · rw [hs]
      unfold Handle.rowFetched
      dsimp only
      split_ifs
      · trivial
      · exact ⟨rest', rfl, hexecuted, hresult, ⟨failed, hdata'⟩, hstatus', hread'⟩

/-- A fetch that finds no pending result set returns no row. -/
theorem delivers_fetchStatementRow_nil
    (hnone : ¬(h.stmt.stmt.readRow = .unbuffered ∧ h.conn.status = .statementGetResult))
    (i : StepInput Row) : Delivers [] (h.fetchStatementRow i) := by
  unfold Handle.fetchStatementRow
  split_ifs
  · trivial
  · unfold Handle.fetchBound
    rcases stmtFetch_noStray
        (s := Handle.session { h with stmt := { h.stmt with resultBindsDirty := false } })
        hnone i.fetch with ⟨s, hs, -⟩ | ⟨s, hs, -⟩
    · rw [hs]
      trivial
    · rw [hs]
      exact delivers_endOfRows _ i.storeBind

/-- **A step while rows wait.** -/
theorem delivers_step (hp : Pending h rest) (i : StepInput Row) :
    Delivers rest (h.step i) := by
  unfold Handle.step
  rw [if_pos hp.executed]
  dsimp only
  rw [if_pos hp.hasResult]
  exact delivers_fetchStatementRow hp i

/-! ### Executions -/

theorem hasFields_resetHandle (s : Session Row) :
    (s.resetHandle true).stmt.hasFields = s.stmt.hasFields := by
  unfold Session.resetHandle Session.flushPending
  split_ifs <;> rfl

/-- What a successful `mysql_stmt_execute` leaves, in whatever state it was called: the rows of the
    first answer wait, or there is no result set. -/
theorem stmtExecute_ok {s s' : Session Row} {answers : List (Answer Row)}
    (h : s.stmtExecute answers = (true, s')) :
    (∃ rest, answers = .ok :: rest ∧ s'.conn.status = .ready ∧
        s'.stmt.hasFields = s.stmt.hasFields) ∨
      ∃ rows failed rest, answers = .rows rows failed :: rest ∧
        s'.conn.curData = some (rows, failed) ∧ s'.conn.status = .statementGetResult ∧
        s'.stmt.readRow = .unbuffered ∧ s'.stmt.hasFields = true := by
  rw [← hasFields_resetHandle s]
  unfold Session.stmtExecute Session.embStmtExecute advancedCommand at h
  dsimp only at h
  generalize s.resetHandle true = t at h ⊢
  by_cases hready : t.conn.clearDataList.status = .ready
  · rw [if_pos hready] at h
    match answers with
    | [] | .error :: _ => cases h
    | .ok :: rest =>
      obtain rfl := (Prod.mk.inj h).2
      refine .inl ⟨rest, rfl, ?_⟩
      show (forStatement _).status = _ ∧ (t.stmt.hasFields || (forStatement _).hasFields) = _
      unfold forStatement
      rw [if_neg (by rw [hready]; decide)]
      exact ⟨hready, Bool.or_false _⟩
    | .rows rows failed :: rest =>
      obtain rfl := (Prod.mk.inj h).2
      exact .inr ⟨rows, failed, rest, rfl, rfl, rfl, rfl, Bool.or_true _⟩
  · rw [if_neg hready] at h
    cases h

/-- What `mylite_step` finds behind an execution: the rows wait, or no row can be fetched. -/
def Begun (rows : List Row) (h : Handle Row) : Prop :=
  Pending h rows ∨ rows = [] ∧
    ¬(h.stmt.stmt.readRow = .unbuffered ∧ h.conn.status = .statementGetResult)

theorem begun_executionDone {h' : Handle Row} {rows : List Row} {i : Setup}
    (hc : (rows = [] ∧ h.conn.status = .ready) ∨
      ((∃ failed, h.conn.curData = some (rows, failed)) ∧ h.conn.status = .statementGetResult ∧
        h.stmt.stmt.readRow = .unbuffered ∧ h.stmt.stmt.hasFields = true))
    (hdone : h.executionDone i = (none, h')) : Begun rows h' := by
  have hparts : h'.conn = h.conn ∧ h'.stmt.stmt = h.stmt.stmt ∧ h'.stmt.executed = true ∧
      (h.stmt.stmt.hasFields = true → h'.stmt.hasResult = true) := by
    unfold Handle.executionDone at hdone
    dsimp only at hdone
    split_ifs at hdone with hlate
    · rcases setUpResults_cases { h with stmt := { h.stmt with executed := true } } i with
        ⟨result, g, heq, -⟩ | ⟨g, heq, hconn, hstmt, hexecuted, hresult⟩
      · cases heq.symm.trans hdone
      · obtain rfl : g = h' := (Prod.mk.inj (heq.symm.trans hdone)).2
        exact ⟨hconn, hstmt, hexecuted, fun hf => hresult.trans hf⟩
    · obtain rfl := (Prod.mk.inj hdone).2
      refine ⟨rfl, rfl, rfl, fun hf => ?_⟩
      show h.stmt.hasResult = true
      simpa [hf] using hlate
  obtain ⟨hconn, hstmt, hexecuted, hresult⟩ := hparts
  rcases hc with ⟨hrows, hready⟩ | ⟨hdata, hstatus, hread, hf⟩
  · refine .inr ⟨hrows, fun hstray => ?_⟩
    rw [hconn, hready] at hstray
    cases hstray.2
  · refine .inl ⟨hexecuted, hresult hf, ?_, ?_, ?_⟩
    · rw [hconn]
      exact hdata
    · rw [hconn]
      exact hstatus
    · rw [hstmt]
      exact hread

theorem begun_executeStatement {h' : Handle Row} {i : StepInput Row}
    (hdone : h.executeStatement i = (none, h')) : Begun (firstRows i.answers) h' := by
  unfold Handle.executeStatement at hdone
  split_ifs at hdone
  · cases hdone
  · rcases hsetup : h.initializeStatementResults true i.setup with ⟨result, g⟩
    rw [hsetup] at hdone
    cases result with
    | some result => cases hdone
    | none =>
      dsimp only at hdone
      rcases hexecute : g.session.stmtExecute i.answers with ⟨ok, s⟩
      rw [hexecute] at hdone
      cases ok with
      | false => cases hdone
      | true =>
        rcases stmtExecute_ok hexecute with ⟨rest, heq, hready, -⟩ |
          ⟨rows, failed, rest, heq, hdata, hwaits⟩
        · rw [heq]
          exact begun_executionDone (.inl ⟨rfl, hready⟩) hdone
        · rw [heq]
          exact begun_executionDone (.inr ⟨⟨failed, hdata⟩, hwaits⟩) hdone

/-- **A step that executes the statement** returns the first row of the answer, or the end if there
    is none. -/
theorem delivers_step_of_not_executed (hnew : h.stmt.executed = false) (i : StepInput Row) :
    Delivers (firstRows i.answers) (h.step i) := by
  unfold Handle.step
  rw [if_neg (by rw [hnew]; decide)]
  rcases Handle.executeStatement_outcome hnew i with
    ⟨result, h', heq, hfail⟩ | ⟨h', heq, -⟩
  · rw [heq]
    cases result with
    | row r | done => exact hfail.elim
    | error | nomem => trivial
  · have hbegun := begun_executeStatement heq
    rw [heq]
    dsimp only
    rcases hbegun with hp | ⟨hrows, hnone⟩
    · rw [if_pos hp.hasResult]
      exact delivers_fetchStatementRow hp i
    · rw [hrows]
      split_ifs
      · exact delivers_fetchStatementRow_nil hnone i
      · rfl

/-- A result without failure begins with the first row that is to be delivered. -/
theorem Delivers.head {result : StepResult Row} (hd : Delivers rest (result, h))
    (hok : ¬result.IsFailure) : result.rows.head? = rest.head? := by
  cases result with
  | row r =>
    obtain ⟨rest', rfl, -⟩ := hd
    rfl
  | done =>
    obtain rfl : rest = [] := hd
    rfl
  | error | nomem => exact absurd trivial hok

namespace BoundStmt

variable {s : BoundStmt Row}

theorem delivers_step_new (hnew : s.handle.stmt.executed = false) (i : StepInput Row) :
    Delivers (firstRows i.answers) ((s.step i).1, (s.step i).2.handle) :=
  delivers_step_of_not_executed hnew (s.stepInput i)

theorem delivers_step_pending (hp : Pending s.handle rest) (i : StepInput Row) :
    Delivers rest ((s.step i).1, (s.step i).2.handle) :=
  delivers_step hp (s.stepInput i)

/-- A statement that counts as executed is not run by a step. -/
theorem runs_step_executed (hold : s.handle.stmt.executed = true) (i : StepInput Row) :
    (s.step i).2.runs = s.runs := by
  show (if s.handle.sendsExecute (s.stepInput i) then _ else _) = _
  rw [if_neg]
  unfold Handle.sendsExecute
  rw [hold]
  simp

/-- **A step that does not fail** runs the statement exactly if it does not count as executed. -/
theorem length_runs_step {i : StepInput Row} (hok : ¬(s.step i).1.IsFailure) :
    (s.step i).2.runs.length = s.runs.length + 1 ↔ s.handle.stmt.executed = false := by
  cases hexecuted : s.handle.stmt.executed with
  | false =>
    rw [(runs_step hexecuted hok).1, List.length_append]
    exact iff_of_true rfl rfl
  | true =>
    rw [runs_step_executed hexecuted]
    simp

/-- An executed statement without a result is at its end. -/
theorem step_of_released (hold : s.handle.stmt.executed = true)
    (hresult : s.handle.stmt.hasResult = false) (i : StepInput Row) :
    (s.step i).1 = .done := by
  show (s.handle.step (s.stepInput i)).1 = _
  unfold Handle.step
  rw [if_pos hold]
  dsimp only
  rw [hresult]
  rfl

end BoundStmt

end MyLite.Prepared

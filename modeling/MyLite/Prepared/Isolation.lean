import MyLite.Lib.Sharing
import MyLite.Prepared.Step

namespace MyLite.Prepared

open MyLite.Lib MyLite.Client Connection

/-!
# Statements that share a connection

All statements of a handle, and `mylite_exec` and `mylite_warning` on the handle itself, use one
connection.  They are clients of it in the sense of `Lib.Sharing`: the connection is idle when no
result is pending, and otherwise it belongs to the client that used it last.

* `sharing` — every call on a handle, as an operation on the connection.
* `lawful_sharing` — on an idle connection no call can tell what happened before.
* `steps_eq_alone` — where no call uses the connection while a result is pending for another
  statement, and no command is sent while `cur_data` is stale, every statement returns what it
  returns alone.
-/

variable {Row : Type}

/-! ### Calls on a handle -/

/-- The loop of `drain_remaining_query_results`. -/
def drainQueryLoop : ℕ → Connection Row → Bool × Connection Row
  | 0, c => (true, c)
  | turns + 1, c =>
    match c.nextResult with
    | (.noMore, c) => (true, c)
    | (.error, c) => (false, c)
    | (.ok, c) =>
      match c.storeResult with
      | (some false, c) => (false, c)
      | (_, c) => drainQueryLoop turns c

/-- `mylite_exec` of a text the policy lets through; `callbackOk` is `false` where the caller's
    callback stops it. -/
def exec (c : Connection Row) (answers : List (Answer Row)) (callbackOk : Bool) :
    Bool × Connection Row :=
  match c.query answers with
  | (false, c) => (false, c)
  | (true, c) =>
    match c.storeResult with
    | (some false, c) => (false, c)
    | (_, c) =>
      let (ok, c) := drainQueryLoop (c.firstData.length + 1) c
      (ok && callbackOk, c)

/-- `mylite_warning` for an index in range. -/
def warning (c : Connection Row) (answers : List (Answer Row)) : Bool × Connection Row :=
  match c.query answers with
  | (false, c) => (false, c)
  | (true, c) =>
    match c.storeResult with
    | (some ok, c) => (ok, c)
    | (none, c) => (false, c)

/-- The calls on one handle.  A text that the policy rejects and a warning that is out of range
    never get to the connection. -/
inductive HandleCall (Row : Type)
  | prepare (rejected : Bool) (answers : List (Answer Row))
  | step (i : StepInput Row)
  | reset (answer : Answer Row)
  | finalize
  | exec (rejected : Bool) (answers : List (Answer Row)) (callbackOk : Bool)
  | warning (inRange : Bool) (answers : List (Answer Row))

/-- What a call returns. -/
inductive Reply (Row : Type)
  | step (result : StepResult Row)
  | code (ok : Bool)
  deriving DecidableEq

/-- Who makes a call: the handle itself, or a statement. -/
abbrev Caller := Option ℕ

/-- A call on a handle.  A call on a statement that is not prepared does nothing. -/
def handleCall : Caller → Connection Row → Option MyliteStmt → HandleCall Row →
    Reply Row × Connection Row × Option MyliteStmt
  | some _, c, none, .prepare rejected answers =>
    if rejected then (.code false, c, none)
    else
      let (stmt, c) := prepare c answers
      (.code stmt.isSome, c, stmt)
  | some _, c, some stmt, .step i =>
    let (result, h) := Handle.step ⟨c, stmt⟩ i
    (.step result, h.conn, some h.stmt)
  | some _, c, some stmt, .reset answer =>
    let (ok, h) := Handle.reset ⟨c, stmt⟩ answer
    (.code ok, h.conn, some h.stmt)
  | some _, c, some stmt, .finalize => (.code true, Handle.finalize ⟨c, stmt⟩, none)
  | none, c, s, .exec rejected answers callbackOk =>
    if rejected then (.code false, c, s)
    else
      let (ok, c) := exec c answers callbackOk
      (.code ok, c, s)
  | none, c, s, .warning inRange answers =>
    if inRange then
      let (ok, c) := warning c answers
      (.code ok, c, s)
    else (.code false, c, s)
  | _, c, s, _ => (.code false, c, s)

/-- No result is pending. -/
def IsIdle (c : Connection Row) : Prop := c.status = .ready ∧ c.moreResults = false

/-- The calls that use the connection: all but a step of a statement that has returned
    `MYLITE_DONE`, and what never gets there. -/
def usesConnection : Caller → Option MyliteStmt → HandleCall Row → Bool
  | some _, none, .prepare rejected _ => !rejected
  | some _, some stmt, .step _ => !stmt.executed || stmt.hasResult
  | some _, some _, .reset _ => true
  | some _, some _, .finalize => true
  | none, _, .exec rejected _ _ => !rejected
  | none, _, .warning inRange _ => inRange
  | _, _, _ => false

/-- The calls that send a command: all that use the connection but a fetch. -/
def sendsCommand : Caller → Option MyliteStmt → HandleCall Row → Bool
  | some _, some stmt, .step _ => !stmt.executed
  | k, s, i => usesConnection k s i

/-- A handle as clients of its connection. -/
def sharing (Row : Type) :
    Sharing Caller (Connection Row) (Option MyliteStmt) (HandleCall Row) (Reply Row) where
  op := handleCall
  idle := IsIdle
  uses := fun k s i => usesConnection k s i = true
  intact := fun k c s i => sendsCommand k s i = true → c.stale = false

instance (k : Caller) (s : Option MyliteStmt) (i : HandleCall Row) :
    Decidable ((sharing Row).uses k s i) :=
  inferInstanceAs (Decidable (_ = true))

/-! ### An idle connection has no memory -/

section Idle

open Handle Session

variable {c : Connection Row}

/-- Behind a command an idle connection is like a new one. -/
theorem IsIdle.advancedCommand (h : IsIdle c) (answers : List (Answer Row)) :
    c.advancedCommand answers = Connection.advancedCommand {} answers := by
  simp [Connection.advancedCommand, clearDataList, h.1, h.2]

theorem IsIdle.flushPending (h : IsIdle c) (m : Stmt) :
    Session.flushPending ⟨c, m⟩ = ⟨c, m⟩ := by
  rw [Session.flushPending, if_neg]
  simp [h.1]

/-- Resetting a statement does not touch an idle connection, nor depend on it. -/
theorem IsIdle.resetHandle (h : IsIdle c) (m : Stmt) (clear : Bool) :
    resetHandle ⟨c, m⟩ clear = ⟨c, if m.state = .initDone then m else
      { m with
        readRow := .noResultSet, state := .prepareDone, lastError := m.lastError && !clear }⟩ := by
  simp only [Session.resetHandle, h.flushPending]
  split_ifs <;> rfl

theorem IsIdle.resetAllBuffers (h : IsIdle c) (m : Stmt) :
    resetAllBuffers ⟨c, m⟩ =
      ⟨c, if m.state = .initDone then m else { m with readRow := .noResultSet }⟩ := by
  simp only [Session.resetAllBuffers, h.flushPending, Session.skipResults, h.2,
    Bool.false_eq_true, if_false, ite_self]
  split_ifs <;> rfl

theorem IsIdle.stmtNextResult (h : IsIdle c) (m : Stmt) :
    Session.stmtNextResult ⟨c, m⟩ = (if m.lastError then .error else .noMore, ⟨c, m⟩) := by
  rw [Session.stmtNextResult, Session.takeNextResult]
  simp only [h.1, h.2, nextResult, Bool.false_eq_true, if_false, ne_eq, not_true_eq_false]
  split_ifs <;> rfl

theorem IsIdle.drainLoop (h : IsIdle c) (m : Stmt) (bind : Bool) (turns : ℕ) :
    Handle.drainLoop bind (turns + 1) ⟨c, m⟩ = (!m.lastError, ⟨c, m⟩) := by
  rw [Handle.drainLoop, h.stmtNextResult]
  cases m.lastError <;> rfl

/-- On an idle connection there is nothing to fetch. -/
theorem stmtFetch_idle (Row : Type) (m : Stmt) (ok : Bool) :
    ∃ f m', (∀ row : Row, f ≠ .row row) ∧
      ∀ c : Connection Row, IsIdle c → stmtFetch ⟨c, m⟩ ok = (f, ⟨c, m'⟩) := by
  have herror : ∀ row : Row, Fetched.error ≠ .row row := fun _ h => by cases h
  have hnoData : ∀ row : Row, Fetched.noData ≠ .row row := fun _ h => by cases h
  have hrow : ∀ c : Connection Row, IsIdle c → readRowUnbuffered c ok = (.error, c) := by
    intro c hc
    rw [readRowUnbuffered, if_pos (by simp [hc.1])]
  cases hread : m.readRow with
  | noData =>
    refine ⟨.noData, { m with state := .prepareDone, readRow := .noData }, hnoData, fun c _ => ?_⟩
    simp only [stmtFetch, readRowFunc, hread]
  | noResultSet =>
    refine ⟨.error, { m with
      state := .prepareDone, readRow := .noResultSet, lastError := true }, herror, fun c _ => ?_⟩
    simp only [stmtFetch, readRowFunc, hread]
  | unbuffered =>
    refine ⟨.error, { m with
      state := .prepareDone, readRow := .noResultSet, lastError := true }, herror, fun c hc => ?_⟩
    simp only [stmtFetch, readRowFunc, hread, hrow c hc]

variable (m : MyliteStmt)

theorem fetchBound_idle (i : StepInput Row) :
    ∃ r m', ∀ c : Connection Row, IsIdle c → fetchBound ⟨c, m⟩ i = (r, ⟨c, m'⟩) := by
  obtain ⟨f, t, hrow, hf⟩ := stmtFetch_idle Row m.stmt i.fetch
  cases f with
  | row row => exact absurd rfl (hrow row)
  | error =>
    refine ⟨.error, { m with stmt := t }, fun c hc => ?_⟩
    simp only [fetchBound, session, hf c hc, withSession]
  | noData =>
    refine ⟨if t.lastError then .error else .done, { m with
      stmt := t, hasRow := false, hasResult := m.hasResult && t.lastError }, fun c hc => ?_⟩
    simp only [fetchBound, session, hf c hc, withSession, endOfRows,
      drainRemainingStatementResults, hc.drainLoop]
    cases t.lastError <;> simp

theorem fetchStatementRow_idle (i : StepInput Row) :
    ∃ r m', ∀ c : Connection Row, IsIdle c → fetchStatementRow ⟨c, m⟩ i = (r, ⟨c, m'⟩) := by
  by_cases hdirty : (m.resultBindsDirty && !i.refreshBinds) = true
  · refine ⟨.error, { m with stmt := { m.stmt with lastError := true } }, fun c _ => ?_⟩
    rw [fetchStatementRow, if_pos hdirty, withError]
  · obtain ⟨r, m', hr⟩ := fetchBound_idle { m with resultBindsDirty := false } i
    refine ⟨r, m', fun c hc => ?_⟩
    rw [fetchStatementRow, if_neg hdirty, hr c hc]

theorem releaseStatementResults_idle (Row : Type) (m : MyliteStmt) :
    ∃ m', ∀ c : Connection Row, IsIdle c → releaseStatementResults ⟨c, m⟩ = ⟨c, m'⟩ := by
  cases hres : m.hasResult with
  | false =>
    refine ⟨{ m with resultBindsDirty := false, hasResult := false, hasRow := false },
      fun c _ => ?_⟩
    simp only [releaseStatementResults, hres, Bool.false_eq_true, if_false]
  | true =>
    refine ⟨{ m with
      stmt := if m.stmt.state = .initDone then m.stmt else { m.stmt with
        readRow := .noResultSet, state := .prepareDone, lastError := false }
      resultBindsDirty := false, hasResult := false, hasRow := false }, fun c hc => ?_⟩
    simp only [releaseStatementResults, hres, if_true, withSession, session,
      freeResult, hc.resetHandle, Bool.not_true, Bool.and_false]

theorem setUpResults_conn (Row : Type) (m : MyliteStmt) (i : Setup) :
    ∃ r m', ∀ c : Connection Row, setUpResults ⟨c, m⟩ i = (r, ⟨c, m'⟩) := by
  refine ⟨(setUpResults (⟨{}, m⟩ : Handle Row) i).1,
    (setUpResults (⟨{}, m⟩ : Handle Row) i).2.stmt, fun c => ?_⟩
  simp only [setUpResults]
  split_ifs <;> rfl

/-- An execution on an idle connection starts from a new one. -/
theorem IsIdle.stmtExecute (h : IsIdle c) (m : Stmt) (answers : List (Answer Row)) :
    stmtExecute ⟨c, m⟩ answers = stmtExecute ⟨{}, m⟩ answers := by
  have hnew : IsIdle ({} : Connection Row) := ⟨rfl, rfl⟩
  simp only [Session.stmtExecute, h.resetHandle, hnew.resetHandle, Session.embStmtExecute,
    h.advancedCommand]

theorem executeStatement_idle (i : StepInput Row) :
    (∃ r m', ∀ c : Connection Row, IsIdle c →
      executeStatement ⟨c, m⟩ i = (some r, ⟨c, m'⟩)) ∨
    (∃ x : Option (StepResult Row) × Handle Row, ∀ c : Connection Row, IsIdle c →
      executeStatement ⟨c, m⟩ i = x) := by
  by_cases hbind : i.bindParameters = true
  swap
  · refine .inl ⟨.error, { m with stmt := { m.stmt with lastError := true } }, fun c _ => ?_⟩
    rw [executeStatement, if_pos (by simpa using hbind), withError]
  obtain ⟨m₁, hrel⟩ := releaseStatementResults_idle Row m
  obtain ⟨r, m₂, hset⟩ := setUpResults_conn Row m₁ i.setup
  have hinit : ∀ c : Connection Row, IsIdle c →
      initializeStatementResults ⟨c, m⟩ true i.setup = (r, ⟨c, m₂⟩) := by
    intro c hc
    rw [initializeStatementResults, if_pos rfl, hrel c hc, hset]
  have hnot : ¬(!i.bindParameters) = true := by simpa using hbind
  cases r with
  | some r =>
    refine .inl ⟨r, m₂, fun c hc => ?_⟩
    rw [executeStatement, if_neg hnot, hinit c hc]
  | none =>
    -- The command goes out, and what comes back depends on the answers only.
    rcases he : stmtExecute ⟨({} : Connection Row), m₂.stmt⟩ i.answers with ⟨ok, s⟩
    have hsame : ∀ c : Connection Row, IsIdle c →
        (⟨c, m₂⟩ : Handle Row).session.stmtExecute i.answers = (ok, s) :=
      fun c hc => (hc.stmtExecute m₂.stmt i.answers).trans he
    cases ok
    · refine .inr ⟨(some .error, ⟨s.conn, { m₂ with stmt := s.stmt }⟩), fun c hc => ?_⟩
      rw [executeStatement, if_neg hnot, hinit c hc]
      simp only [hsame c hc]
      rfl
    · refine .inr ⟨executionDone ⟨s.conn, { m₂ with stmt := s.stmt }⟩ i.setupAfter,
        fun c hc => ?_⟩
      rw [executeStatement, if_neg hnot, hinit c hc]
      simp only [hsame c hc]
      rfl

/-- What the law of sharing asks of a call: on an idle connection it leaves the connection alone,
    or forgets what it was like, and what it returns is the same on all of them. -/
def Forgets {α : Type} (f : Connection Row → α × Connection Row) : Prop :=
  (∃ a, ∀ c, IsIdle c → f c = (a, c)) ∨ ∃ a c', ∀ c, IsIdle c → f c = (a, c')

theorem forgets_step (i : StepInput Row) :
    Forgets fun c =>
      (((step ⟨c, m⟩ i).1, (step ⟨c, m⟩ i).2.stmt),
        (step ⟨c, m⟩ i).2.conn) := by
  cases hex : m.executed with
  | true =>
    cases hres : m.hasResult with
    | true =>
      obtain ⟨r, m', hr⟩ := fetchStatementRow_idle m i
      refine .inl ⟨(r, m'), fun c hc => ?_⟩
      simp only [step, hex, hres, if_true, hr c hc]
    | false =>
      refine .inl ⟨(.done, m), fun c _ => ?_⟩
      simp only [step, hex, hres, if_true, Bool.false_eq_true, if_false]
  | false =>
    rcases executeStatement_idle m i with ⟨r, m', hr⟩ | ⟨⟨r, h⟩, hx⟩
    · refine .inl ⟨(r, m'), fun c hc => ?_⟩
      simp only [step, hex, Bool.false_eq_true, if_false, hr c hc]
    · cases r with
      | some r =>
        refine .inr ⟨(r, h.stmt), h.conn, fun c hc => ?_⟩
        simp only [step, hex, Bool.false_eq_true, if_false, hx c hc]
      | none =>
        cases hres : h.stmt.hasResult with
        | true =>
          refine .inr ⟨((h.fetchStatementRow i).1, (h.fetchStatementRow i).2.stmt),
            (h.fetchStatementRow i).2.conn, fun c hc => ?_⟩
          simp only [step, hex, Bool.false_eq_true, if_false, hx c hc, hres, if_true]
        | false =>
          refine .inr ⟨(.done, h.stmt), h.conn, fun c hc => ?_⟩
          simp only [step, hex, Bool.false_eq_true, if_false, hx c hc, hres]

theorem stmtReset_idle (m : Stmt) (answer : Answer Row) :
    (∃ ok m', ∀ c : Connection Row, IsIdle c →
      stmtReset ⟨c, m⟩ answer = (ok, ⟨c, m'⟩)) ∨
    (∃ x : Bool × Session Row, ∀ c : Connection Row, IsIdle c →
      stmtReset ⟨c, m⟩ answer = x) := by
  by_cases hinit : m.state = .initDone
  · refine .inl ⟨true, m, fun c _ => ?_⟩
    simp only [stmtReset, hinit, if_true]
  · have hnew : IsIdle ({} : Connection Row) := ⟨rfl, rfl⟩
    refine .inr ⟨stmtReset ⟨{}, m⟩ answer, fun c hc => ?_⟩
    simp only [stmtReset, hinit, if_false, hc.resetAllBuffers, hnew.resetAllBuffers,
      hc.advancedCommand]

theorem forgets_reset (answer : Answer Row) :
    Forgets fun c =>
      (((reset ⟨c, m⟩ answer).1, (reset ⟨c, m⟩ answer).2.stmt),
        (reset ⟨c, m⟩ answer).2.conn) := by
  obtain ⟨m₁, hrel⟩ := releaseStatementResults_idle Row m
  rcases stmtReset_idle m₁.stmt answer with ⟨ok, t, hr⟩ | ⟨⟨ok, s⟩, hr⟩
  · cases ok with
    | false =>
      refine .inl ⟨(false, { m₁ with stmt := t }), fun c hc => ?_⟩
      simp only [reset, hrel c hc, session, hr c hc, withSession]
    | true =>
      refine .inl ⟨(true, { m₁ with
        stmt := t, executed := false, hasResult := false, hasRow := false }), fun c hc => ?_⟩
      simp only [reset, hrel c hc, session, hr c hc, withSession]
  · cases ok with
    | false =>
      refine .inr ⟨(false, { m₁ with stmt := s.stmt }), s.conn, fun c hc => ?_⟩
      simp only [reset, hrel c hc, session, hr c hc, withSession]
    | true =>
      refine .inr ⟨(true, { m₁ with
        stmt := s.stmt, executed := false, hasResult := false, hasRow := false }), s.conn,
        fun c hc => ?_⟩
      simp only [reset, hrel c hc, session, hr c hc, withSession]

theorem forgets_finalize :
    Forgets fun c : Connection Row => ((), finalize ⟨c, m⟩) := by
  obtain ⟨m₁, hrel⟩ := releaseStatementResults_idle Row m
  by_cases hinit : m₁.stmt.state = .initDone
  · refine .inl ⟨(), fun c hc => ?_⟩
    simp only [finalize, hrel c hc, session, stmtClose, hinit, if_true]
  · refine .inr ⟨(), (Connection.advancedCommand {} []).2, fun c hc => ?_⟩
    simp only [finalize, hrel c hc, session, stmtClose, hinit, if_false,
      hc.resetAllBuffers, hc.advancedCommand]

theorem forgets_prepare (answers : List (Answer Row)) :
    Forgets fun c => prepare c answers := by
  refine .inr ⟨(prepare {} answers).1, (prepare {} answers).2, fun c hc => ?_⟩
  simp only [prepare, stmtPrepare, hc.advancedCommand]

theorem forgets_exec (answers : List (Answer Row)) (callbackOk : Bool) :
    Forgets fun c => exec c answers callbackOk := by
  refine .inr ⟨(exec {} answers callbackOk).1, (exec {} answers callbackOk).2, fun c hc => ?_⟩
  simp only [exec, query, hc.advancedCommand]

theorem forgets_warning (answers : List (Answer Row)) :
    Forgets fun c => warning c answers := by
  refine .inr ⟨(warning {} answers).1, (warning {} answers).2, fun c hc => ?_⟩
  simp only [warning, query, hc.advancedCommand]

end Idle

/-! ### Isolation -/

/-- A call does on idle connections what the part of it does that works on the connection. -/
theorem Forgets.idle_op {α : Type} {k : Caller} {s : Option MyliteStmt} {i : HandleCall Row}
    {f : Connection Row → α × Connection Row} (hf : Forgets f) (reply : α → Reply Row)
    (next : α → Option MyliteStmt)
    (h : ∀ c, handleCall k c s i = (reply (f c).1, (f c).2, next (f c).1)) :
    (∃ o s', ∀ c, IsIdle c → handleCall k c s i = (o, c, s')) ∨
    (∃ o c' s', ∀ c, IsIdle c → handleCall k c s i = (o, c', s')) := by
  rcases hf with ⟨a, ha⟩ | ⟨a, c', ha⟩
  · exact .inl ⟨reply a, next a, fun c hc => by rw [h, ha c hc]⟩
  · exact .inr ⟨reply a, c', next a, fun c hc => by rw [h, ha c hc]⟩

/-- A call that does not use the connection is the same on all connections. -/
theorem handleCall_of_not_uses {k : Caller} {s : Option MyliteStmt} {i : HandleCall Row}
    (h : usesConnection k s i = false) : ∃ o s', ∀ c, handleCall k c s i = (o, c, s') := by
  cases k with
  | none =>
    cases i with
    | exec rejected answers callbackOk =>
      have hr : rejected = true := by simpa [usesConnection] using h
      exact ⟨.code false, s, fun c => by simp [handleCall, hr]⟩
    | warning inRange answers =>
      have hr : inRange = false := h
      exact ⟨.code false, s, fun c => by simp [handleCall, hr]⟩
    | _ => exact ⟨.code false, s, fun c => rfl⟩
  | some id =>
    cases s with
    | none =>
      cases i with
      | prepare rejected answers =>
        have hr : rejected = true := by simpa [usesConnection] using h
        exact ⟨.code false, none, fun c => by simp [handleCall, hr]⟩
      | _ => exact ⟨.code false, none, fun c => rfl⟩
    | some m =>
      cases i with
      | step i =>
        obtain ⟨hex, hres⟩ : m.executed = true ∧ m.hasResult = false := by
          simpa [usesConnection] using h
        exact ⟨.step .done, some m, fun c => by simp [handleCall, Handle.step, hex, hres]⟩
      | reset answer | finalize => cases h
      | _ => exact ⟨.code false, some m, fun c => rfl⟩

theorem handleCall_idle (k : Caller) (s : Option MyliteStmt) (i : HandleCall Row) :
    (∃ o s', ∀ c, IsIdle c → handleCall k c s i = (o, c, s')) ∨
    (∃ o c' s', ∀ c, IsIdle c → handleCall k c s i = (o, c', s')) := by
  by_cases hu : usesConnection k s i = false
  · obtain ⟨o, s', ho⟩ := handleCall_of_not_uses hu
    exact .inl ⟨o, s', fun c _ => ho c⟩
  cases k with
  | none =>
    cases i with
    | exec rejected answers callbackOk =>
      have hr : rejected = false := by simpa [usesConnection] using hu
      exact (forgets_exec answers callbackOk).idle_op (fun ok => .code ok) (fun _ => s)
        fun c => by simp [handleCall, hr]
    | warning inRange answers =>
      have hr : inRange = true := by simpa [usesConnection] using hu
      exact (forgets_warning answers).idle_op (fun ok => .code ok) (fun _ => s)
        fun c => by simp [handleCall, hr]
    | _ => exact absurd rfl hu
  | some id =>
    cases s with
    | none =>
      cases i with
      | prepare rejected answers =>
        have hr : rejected = false := by simpa [usesConnection] using hu
        exact (forgets_prepare answers).idle_op (fun m => .code m.isSome) (fun m => m)
          fun c => by simp [handleCall, hr]
      | _ => exact absurd rfl hu
    | some m =>
      cases i with
      | step i =>
        exact (forgets_step m i).idle_op (fun a => .step a.1) (fun a => some a.2) fun c => rfl
      | reset answer =>
        exact (forgets_reset m answer).idle_op (fun a => .code a.1) (fun a => some a.2)
          fun c => rfl
      | finalize =>
        exact (forgets_finalize m).idle_op (fun _ => .code true) (fun _ => none) fun c => rfl
      | _ => exact absurd rfl hu

/-- **Law.** The calls on a handle use its connection in turns. -/
theorem lawful_sharing (Row : Type) : (sharing Row).Lawful where
  idle_op := handleCall_idle
  not_uses _ _ _ h := handleCall_of_not_uses (Bool.eq_false_iff.mpr h)

/-- **Isolation.** As long as no call uses the connection while a result is pending for another
    client, the one that used it last, and none sends a command while `cur_data` is stale (a result
    was read to its end, and only answers without rows followed it), every statement returns exactly
    what it returns when it is alone on the connection: the same rows, in the same order, and
    `MYLITE_DONE` at the same place. -/
theorem steps_eq_alone (calls : List (Caller × HandleCall Row)) (id : ℕ)
    (h : (sharing Row).Orderly ⟨{}, fun _ => none, none⟩ calls) :
    (sharing Row).outputs (some id) ⟨{}, fun _ => none, none⟩ calls =
      (sharing Row).solo (some id) {} none (Sharing.callsOf (some id) calls) :=
  Sharing.outputs_eq_solo (lawful_sharing Row) (some id) calls ⟨rfl, rfl⟩ h

/-- Two queries are prepared and the first is stepped once: it has returned 10 and owes 20. -/
def twoQueries : List (Caller × HandleCall ℕ) :=
  [(some 1, .prepare false [.rows [] false]), (some 2, .prepare false [.rows [] false]),
    (some 1, .step { answers := [.rows [10, 20] false] })]

/-- The first query is finished before the second one starts. -/
theorem steps_eq_alone_inTurns :
    (sharing ℕ).outputs (some 1) ⟨{}, fun _ => none, none⟩
        (twoQueries ++ [(some 1, .step { answers := [] }), (some 1, .step { answers := [] }),
          (some 2, .step { answers := [.rows [7] false] })]) =
      [.code true, .step (.row 10), .step (.row 20), .step .done] := by
  refine (steps_eq_alone _ 1 ?_).trans rfl
  -- Each call finds the connection idle, or its own.
  exact ⟨fun _ => rfl, fun _ => .inl ⟨rfl, rfl⟩, fun _ => rfl, fun _ => .inl ⟨rfl, rfl⟩,
    fun _ => rfl, fun _ => .inl ⟨rfl, rfl⟩, fun _ => rfl, fun _ => .inr rfl, fun _ => rfl,
    fun _ => .inr rfl, fun _ => rfl, fun _ => .inl ⟨rfl, rfl⟩, trivial⟩

/-- The second query is stepped while a row of the first is pending.  That step fails, but it has
    thrown the row away: the first query returns `MYLITE_DONE` next. -/
theorem steps_ne_alone_interleaved :
    let calls := twoQueries ++
      [(some 2, .step { answers := [.rows [7] false] }), (some 1, .step { answers := [] })]
    (sharing ℕ).outputs (some 1) ⟨{}, fun _ => none, none⟩ calls =
        [.code true, .step (.row 10), .step .done] ∧
      (sharing ℕ).solo (some 1) {} none (Sharing.callsOf (some 1) calls) =
        [.code true, .step (.row 10), .step (.row 20)] :=
  ⟨rfl, rfl⟩

end MyLite.Prepared

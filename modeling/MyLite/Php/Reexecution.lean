import MyLite.Php.Statements
import MyLite.Prepared.Pending

namespace MyLite.Php

open MyLite.Client MyLite.Lib MyLite.Prepared MyLite.Sql

/-!
# Executions that report success

Each of the PHP extensions has its own way to bring a statement back before it is executed again,
and then calls `mylite_step`, which executes the statement only if it does not count as executed.
Where the way back fails or is not taken, the call reports success and goes on with the rows of the
execution before.

* `MysqliStmt.executeImpl` — `mysqli_stmt::execute`, which collects all rows.
* `PdoCursor` — a PDO statement with the row its columns show.
* `Honest` — an execution that reports success has run the statement once, and what is fetched from
  then on begins with the first row of its answer.
* `Ready` — the statement does not count as executed when `mylite_step` is called, or the call
  does not report success.
* `honest_iff_ready` — in all three extensions these are the same.
-/

variable {Row : Type}

/-- `bind` stores a value, or it changes nothing. -/
theorem bind_frame (s : BoundStmt Row) (index : ℕ) (parameter : ParameterBinding) :
    ∃ parameters, (s.bind index parameter).2 = s.withParameters parameters := by
  unfold BoundStmt.bind
  split_ifs
  · exact ⟨s.parameters, rfl⟩
  · exact ⟨_, rfl⟩

/-! ### mysqli -/

/-- `mylite_column_count` is positive behind a step: the columns are set up in front of a fetch,
    and without them the fields of the client library's statement are counted. -/
def columnsBehindStep (h : Handle Row) (i : StepInput Row) : Bool :=
  (if h.stmt.executed then h else (h.executeStatement i).2).stmt.hasResult
    || (h.step i).2.stmt.stmt.hasFields

/-- `php_mylite_mysqli_bind_zval`. -/
def phpMyliteMysqliBindZval (s : BoundStmt Row) (index : ℕ) (value : Zval) :
    Bool × BoundStmt Row :=
  bindZval s index value

/-- `php_mylite_mysqli_stmt`. -/
structure MysqliStmt (Row : Type) where
  stmt : BoundStmt Row
  boundValues : List Zval := []
  rows : List Row := []
  hasRows : Bool := false

namespace MysqliStmt

variable (s : MysqliStmt Row)

/-- `mysqli_stmt::bind_param`; `false` is an exception. -/
def bindParam (types : Text) (params : List Zval) : Bool × MysqliStmt Row :=
  if params.length ≠ types.length then (false, s) else (true, { s with boundValues := params })

/-- The loop of `php_mylite_mysqli_stmt_execute_impl` over the values. -/
def bindValues (stmt : BoundStmt Row) : ℕ → List Zval → Bool × BoundStmt Row
  | _, [] => (true, stmt)
  | index, value :: values =>
    match phpMyliteMysqliBindZval stmt (index + 1) value with
    | (false, stmt) => (false, stmt)
    | (true, stmt) => bindValues stmt (index + 1) values

/-- The loop over the rows, with the backend's part in each further step. -/
def fetchRows (inputs : ℕ → StepInput Row) :
    ℕ → StepResult Row × BoundStmt Row → List Row → StepResult Row × BoundStmt Row × List Row
  | turns + 1, (.row r, stmt), rows =>
    fetchRows inputs turns (stmt.step (inputs turns)) (rows ++ [r])
  | _, (result, stmt), rows => (result, stmt, rows)

/-- A bound for the turns of the loop: every row but the first waits on the connection. -/
def turns (stmt : BoundStmt Row) : ℕ :=
  match stmt.handle.conn.curData with
  | none => 1
  | some (rows, _) => rows.length + 1

/-- `php_mylite_mysqli_stmt_execute_impl` behind the values: the rows of the last execution are
    dropped, and all rows are fetched. -/
def collectRows (i : StepInput Row) (inputs : ℕ → StepInput Row) : Bool × MysqliStmt Row :=
  match fetchRows inputs (turns (s.stmt.step i).2) (s.stmt.step i) [] with
  | (.done, stmt, rows) => (true, { s with
      stmt := stmt, rows := rows
      hasRows := columnsBehindStep s.stmt.handle (s.stmt.stepInput i) })
  | (_, stmt, rows) => (false, { s with stmt := stmt, rows := rows, hasRows := false })

/-- `php_mylite_mysqli_stmt_execute_impl`.  The results of `mylite_reset` and
    `mylite_clear_bindings` are not looked at. -/
def executeImpl (answer : Answer Row) (i : StepInput Row) (inputs : ℕ → StepInput Row) :
    Bool × MysqliStmt Row :=
  match bindValues (s.stmt.reset answer).2.clearBindings.2 0 s.boundValues with
  | (false, stmt) => (false, { s with stmt := stmt })
  | (true, stmt) => collectRows { s with stmt := stmt } i inputs

/-- `mysqli_stmt::get_result`: the rows the result object then returns one by one. -/
def getResult : Option (List Row) := if s.hasRows then some s.rows else none

/-- The statement on the connection as others have left it. -/
def onConnection (conn : Connection Row) : MysqliStmt Row :=
  { s with stmt := s.stmt.onConnection conn }

end MysqliStmt

/-- The calls of a script on a mysqli statement, with what they find. -/
inductive MysqliCall (Row : Type)
  | bindParam (types : Text) (params : List Zval)
  | execute (conn : Connection Row) (answer : Answer Row) (i : StepInput Row)
      (inputs : ℕ → StepInput Row)
  | getResult

namespace MysqliStmt

/-- The state behind a call. -/
def next (s : MysqliStmt Row) : MysqliCall Row → MysqliStmt Row
  | .bindParam types params => (s.bindParam types params).2
  | .execute conn answer i inputs => ((s.onConnection conn).executeImpl answer i inputs).2
  | .getResult => s

/-- An execution that reports success has run the statement once, and the rows are those of its
    answer. -/
def Honest (s : MysqliStmt Row) : MysqliCall Row → Prop
  | .execute conn answer i inputs =>
    ((s.onConnection conn).executeImpl answer i inputs).1 = true →
      (s.next (.execute conn answer i inputs)).stmt.runs.length = s.stmt.runs.length + 1
        ∧ (s.next (.execute conn answer i inputs)).getResult.getD [] = firstRows i.answers
  | _ => True

/-- The statement does not count as executed, or it is reset, or the first value is refused. -/
def Ready (s : MysqliStmt Row) : MysqliCall Row → Prop
  | .execute conn answer _ _ =>
    s.stmt.handle.stmt.executed = true → s.boundValues = [] →
      ((s.stmt.onConnection conn).reset answer).1 = true
  | _ => True

theorem bindValues_frame (stmt : BoundStmt Row) (index : ℕ) (values : List Zval) :
    ∃ parameters, (bindValues stmt index values).2 = stmt.withParameters parameters := by
  induction values generalizing stmt index with
  | nil => exact ⟨stmt.parameters, rfl⟩
  | cons value values ih =>
    obtain ⟨parameters, hbind⟩ := bind_frame stmt (index + 1) value.parameter
    rw [bindValues, phpMyliteMysqliBindZval, bindZval_eq]
    generalize stmt.bind (index + 1) value.parameter = p at hbind ⊢
    obtain ⟨ok, stmt'⟩ := p
    obtain rfl : stmt' = stmt.withParameters parameters := hbind
    cases ok with
    | false => exact ⟨parameters, rfl⟩
    | true =>
      obtain ⟨parameters', hrest⟩ := ih (stmt.withParameters parameters) (index + 1)
      exact ⟨parameters', hrest⟩

variable {stmt : BoundStmt Row}

theorem bindValues_of_executed (hold : stmt.handle.stmt.executed = true) {values : List Zval}
    (hne : values ≠ []) : (bindValues stmt 0 values).1 = false := by
  cases values with
  | nil => exact absurd rfl hne
  | cons value values =>
    rw [bindValues, phpMyliteMysqliBindZval, bindZval_eq, BoundStmt.bind_of_executed hold]

theorem clearBindings_frame (stmt : BoundStmt Row) :
    ∃ parameters, stmt.clearBindings.2 = stmt.withParameters parameters := by
  unfold BoundStmt.clearBindings
  split_ifs
  · exact ⟨stmt.parameters, rfl⟩
  · exact ⟨_, rfl⟩

theorem fetchRows_of_not_row (inputs : ℕ → StepInput Row) (turns : ℕ)
    {result : StepResult Row} (h : result.rows = []) (stmt : BoundStmt Row) (rows : List Row) :
    fetchRows inputs turns (result, stmt) rows = (result, stmt, rows) := by
  cases result with
  | row r => cases h
  | done | error | nomem => cases turns <;> rfl

/-- **The loop** ends, and where it ends with `MYLITE_DONE` it has collected all rows. -/
theorem fetchRows_spec (inputs : ℕ → StepInput Row) (turns : ℕ) {rest : List Row}
    (hp : Pending stmt.handle rest) (hturns : rest.length < turns) (r : Row) (rows : List Row) :
    ((fetchRows inputs turns (.row r, stmt) rows).1 = .done →
      (fetchRows inputs turns (.row r, stmt) rows).2.2 = rows ++ r :: rest)
    ∧ (fetchRows inputs turns (.row r, stmt) rows).2.1.runs = stmt.runs
    ∧ ∀ r', (fetchRows inputs turns (.row r, stmt) rows).1 ≠ .row r' := by
  induction turns generalizing stmt rest r rows with
  | zero => cases hturns
  | succ turns ih =>
    have hd := BoundStmt.delivers_step_pending hp (inputs turns)
    have hruns := BoundStmt.runs_step_executed hp.executed (inputs turns)
    rw [fetchRows]
    generalize stmt.step (inputs turns) = p at hd hruns ⊢
    obtain ⟨result, stmt'⟩ := p
    cases result with
    | row r' =>
      obtain ⟨rest', rfl, hp'⟩ := hd
      have hless : rest'.length < turns := Nat.lt_of_succ_lt_succ hturns
      obtain ⟨hrows, hruns', hends⟩ := ih hp' hless r' (rows ++ [r])
      refine ⟨fun hdone => ?_, hruns'.trans hruns, hends⟩
      rw [hrows hdone, List.append_assoc]
      rfl
    | done =>
      obtain rfl : rest = [] := hd
      rw [fetchRows_of_not_row inputs turns rfl]
      exact ⟨fun _ => rfl, hruns, nofun⟩
    | error | nomem =>
      rw [fetchRows_of_not_row inputs turns rfl]
      exact ⟨nofun, hruns, nofun⟩

theorem columnsBehindStep_of_row {h : Handle Row} {i : StepInput Row} {r : Row}
    (hrow : (h.step i).1 = .row r) : columnsBehindStep h i = true := by
  unfold columnsBehindStep
  suffices hresult : (if h.stmt.executed then h else (h.executeStatement i).2).stmt.hasResult
      = true by
    rw [hresult, Bool.true_or]
  by_contra hnot
  unfold Handle.step at hrow
  cases hexecuted : h.stmt.executed with
  | true =>
    rw [hexecuted] at hrow hnot
    simp only [if_true] at hrow hnot
    rw [if_neg hnot] at hrow
    cases hrow
  | false =>
    rw [hexecuted] at hrow hnot
    simp only [Bool.false_eq_true, if_false] at hrow hnot
    rcases Handle.executeStatement_outcome hexecuted i with
      ⟨result, h', heq, hfail⟩ | ⟨h', heq, -⟩
    · rw [heq] at hrow
      obtain rfl : result = .row r := hrow
      exact hfail
    · rw [heq] at hrow hnot
      dsimp only at hrow hnot
      rw [if_neg hnot] at hrow
      cases hrow

/-- **An execution of a statement that does not count as executed** collects the rows of its
    answer. -/
theorem fetchRows_new (hnew : stmt.handle.stmt.executed = false) (i : StepInput Row)
    (inputs : ℕ → StepInput Row)
    (hdone : (fetchRows inputs (turns (stmt.step i).2) (stmt.step i) []).1 = .done) :
    (fetchRows inputs (turns (stmt.step i).2) (stmt.step i) []).2.1.runs.length
        = stmt.runs.length + 1
    ∧ (fetchRows inputs (turns (stmt.step i).2) (stmt.step i) []).2.2
        = firstRows i.answers
    ∧ (firstRows i.answers ≠ [] → ∃ r, (stmt.step i).1 = .row r) := by
  have hd := BoundStmt.delivers_step_new hnew i
  have hruns : ¬(stmt.step i).1.IsFailure →
      (stmt.step i).2.runs.length = stmt.runs.length + 1 :=
    fun hok => (BoundStmt.length_runs_step hok).mpr hnew
  generalize stmt.step i = p at hd hruns hdone ⊢
  obtain ⟨result, stmt'⟩ := p
  cases result with
  | row r =>
    obtain ⟨rest, hfirst, hp⟩ := hd
    obtain ⟨failed, hdata⟩ := hp.data
    have hturns : rest.length < turns stmt' := by
      unfold turns
      rw [hdata]
      exact Nat.lt_succ_self _
    obtain ⟨hrows, hruns', -⟩ := fetchRows_spec inputs _ hp hturns r []
    refine ⟨?_, ?_, fun _ => ⟨r, rfl⟩⟩
    · rw [hruns']
      exact hruns fun hfail => hfail
    · rw [hrows hdone, hfirst]
      rfl
  | done =>
    have hnil : firstRows i.answers = [] := hd
    rw [fetchRows_of_not_row inputs _ rfl]
    exact ⟨hruns fun hfail => hfail, hnil.symm, fun hne => absurd hnil hne⟩
  | error | nomem =>
    rw [fetchRows_of_not_row inputs _ rfl] at hdone
    cases hdone

theorem collectRows_new {s : MysqliStmt Row} (hnew : s.stmt.handle.stmt.executed = false)
    {i : StepInput Row} {inputs : ℕ → StepInput Row}
    (hsuccess : (s.collectRows i inputs).1 = true) :
    (s.collectRows i inputs).2.stmt.runs.length = s.stmt.runs.length + 1
      ∧ (s.collectRows i inputs).2.getResult.getD [] = firstRows i.answers := by
  have hfetched := fetchRows_new hnew i inputs
  unfold collectRows at hsuccess ⊢
  generalize fetchRows inputs (turns (s.stmt.step i).2) (s.stmt.step i) [] = p
    at hsuccess hfetched ⊢
  obtain ⟨result, stmt, rows⟩ := p
  cases result with
  | done =>
    obtain ⟨hruns, hrows, hrow⟩ := hfetched rfl
    refine ⟨hruns, ?_⟩
    show (if columnsBehindStep s.stmt.handle (s.stmt.stepInput i) then some rows
      else none).getD [] = _
    by_cases hnil : firstRows i.answers = []
    · rw [show rows = [] from hrows.trans hnil, hnil]
      split_ifs
      · rfl
      · rfl
    · obtain ⟨r, hr⟩ := hrow hnil
      rw [if_pos (columnsBehindStep_of_row hr)]
      exact hrows
  | row r | error | nomem => cases hsuccess

/-- Where the flag is set and the result is gone, the loop ends at once. -/
theorem collectRows_released {s : MysqliStmt Row} (hold : s.stmt.handle.stmt.executed = true)
    (hreleased : s.stmt.handle.stmt.hasResult = false) (i : StepInput Row)
    (inputs : ℕ → StepInput Row) :
    (s.collectRows i inputs).1 = true
      ∧ (s.collectRows i inputs).2.stmt.runs = s.stmt.runs := by
  have hdone := BoundStmt.step_of_released hold hreleased i
  have hruns := BoundStmt.runs_step_executed hold i
  unfold collectRows
  generalize s.stmt.step i = p at hdone hruns
  obtain ⟨result, stmt⟩ := p
  obtain rfl : result = .done := hdone
  rw [fetchRows_of_not_row inputs _ rfl]
  exact ⟨rfl, hruns⟩

/-- What `mylite_clear_bindings` and the values leave of the statement. -/
theorem bindValues_clearBindings (stmt : BoundStmt Row) (values : List Zval) :
    (∃ parameters, (bindValues stmt.clearBindings.2 0 values).2 = stmt.withParameters parameters)
      ∧ (stmt.handle.stmt.executed = true → values ≠ [] →
        (bindValues stmt.clearBindings.2 0 values).1 = false) := by
  obtain ⟨cleared, hclear⟩ := clearBindings_frame stmt
  rw [hclear]
  obtain ⟨parameters, hbind⟩ := bindValues_frame (stmt.withParameters cleared) 0 values
  exact ⟨⟨parameters, hbind⟩, fun hold hne =>
    @bindValues_of_executed _ (stmt.withParameters cleared) hold _ hne⟩

/-- **An execution**, on the connection as it is. -/
theorem executeImpl_honest_iff (s : MysqliStmt Row) (answer : Answer Row) (i : StepInput Row)
    (inputs : ℕ → StepInput Row) :
    ((s.executeImpl answer i inputs).1 = true →
      (s.executeImpl answer i inputs).2.stmt.runs.length = s.stmt.runs.length + 1
        ∧ (s.executeImpl answer i inputs).2.getResult.getD [] = firstRows i.answers) ↔
      (s.stmt.handle.stmt.executed = true → s.boundValues = [] →
        (s.stmt.reset answer).1 = true) := by
  obtain ⟨hflag, hreleased⟩ := Handle.reset_leaves s.stmt.handle answer
  obtain ⟨⟨parameters, hbound⟩, hrefused⟩ :=
    bindValues_clearBindings (s.stmt.reset answer).2 s.boundValues
  unfold executeImpl
  rcases hbind : bindValues (s.stmt.reset answer).2.clearBindings.2 0 s.boundValues with ⟨ok, stmt⟩
  rw [hbind] at hbound hrefused
  obtain rfl : stmt = (s.stmt.reset answer).2.withParameters parameters := hbound
  cases ok with
  | false =>
    -- Without values nothing can be refused.
    refine iff_of_true nofun fun _ hnil => ?_
    rw [hnil, bindValues] at hbind
    cases hbind
  | true =>
    cases hnew : (s.stmt.reset answer).2.handle.stmt.executed with
    | false =>
      refine iff_of_true (fun hsuccess => collectRows_new hnew hsuccess) fun hold _ => ?_
      have hflag' : (s.stmt.handle.stmt.executed && !(s.stmt.reset answer).1) = false :=
        hflag.symm.trans hnew
      rw [hold, Bool.true_and, Bool.not_eq_false'] at hflag'
      exact hflag'
    | true =>
      -- The reset failed: the result is gone, but the flag is still set.
      have hflag' : (s.stmt.handle.stmt.executed && !(s.stmt.reset answer).1) = true :=
        hflag.symm.trans hnew
      rw [Bool.and_eq_true, Bool.not_eq_true'] at hflag'
      refine iff_of_false (fun hhonest => ?_) fun hready => ?_
      · obtain ⟨hsuccess, hruns⟩ := collectRows_released
          (s := { s with stmt := (s.stmt.reset answer).2.withParameters parameters })
          hnew hreleased i inputs
        have hlength := (hhonest hsuccess).1
        rw [hruns] at hlength
        exact absurd hlength (Nat.succ_ne_self _).symm
      · have hnil : s.boundValues = [] := by
          by_contra hne
          cases hrefused hnew hne
        rw [hready hflag'.1 hnil] at hflag'
        cases hflag'.2

theorem honest_iff_ready (s : MysqliStmt Row) (c : MysqliCall Row) :
    s.Honest c ↔ s.Ready c := by
  cases c with
  | bindParam types params | getResult => exact Iff.rfl
  | execute conn answer i inputs => exact (s.onConnection conn).executeImpl_honest_iff answer i inputs

end MysqliStmt

/-- **A step without failure** runs the statement and returns the first row of the answer exactly if
    the statement does not count as executed. -/
theorem honest_step {t : BoundStmt Row} {i : StepInput Row}
    (hok : ¬(t.step i).1.IsFailure) :
    ((t.step i).2.runs.length = t.runs.length + 1
        ∧ (t.step i).1.rows.head? = (firstRows i.answers).head?)
      ↔ t.handle.stmt.executed = false := by
  constructor
  · exact fun hhonest => (BoundStmt.length_runs_step hok).mp hhonest.1
  · intro hnew
    exact ⟨(BoundStmt.length_runs_step hok).mpr hnew,
      (BoundStmt.delivers_step_new hnew i).head hok⟩

/-! ### PDO -/

/-- What `mylite_step` returns in a call, if it is called. -/
def PdoStmt.stepped (s : PdoStmt Row) : PdoCall Row → Option (StepResult Row)
  | .execute conn parameters answer i =>
    match (s.onConnection conn).dispatchParamEvent 0 parameters with
    | (false, _) => none
    | (true, s) => some ((s.resetExecuted answer).step i).1
  | .fetch conn i =>
    if s.executed && !s.done && !s.prefetched then some ((s.stmt.onConnection conn).step i).1
    else none

/-- A PDO statement, and the row its columns show: that of the last `mylite_step`. -/
structure PdoCursor (Row : Type) where
  pdo : PdoStmt Row
  row : Option Row := none

namespace PdoCursor

variable {parameters : List Zval}

/-- The state behind a call. -/
def next (c : PdoCursor Row) (call : PdoCall Row) : PdoCursor Row where
  pdo := c.pdo.next call
  row := match c.pdo.stepped call with
    | none => c.row
    | some result => result.rows.head?

/-- The row a script gets from `PDOStatement::fetch`. -/
def fetched (c : PdoCursor Row) (conn : Connection Row) (i : StepInput Row) : Option Row :=
  if (c.pdo.call (.fetch conn i)).1 then (c.next (.fetch conn i)).row else none

/-- An execution that reports success has run the statement once, and the next fetch returns the
    first row of its answer. -/
def Honest (c : PdoCursor Row) : PdoCall Row → Prop
  | .execute conn parameters answer i =>
    (c.pdo.call (.execute conn parameters answer i)).1 = true →
      (c.next (.execute conn parameters answer i)).pdo.stmt.runs.length
          = c.pdo.stmt.runs.length + 1
        ∧ ∀ conn' j, (c.next (.execute conn parameters answer i)).fetched conn' j
          = (firstRows i.answers).head?
  | .fetch _ _ => True

/-- The statement does not count as executed, or a value is refused; otherwise it is reset if the
    PDO core takes it for executed, and if not, the step fails. -/
def Ready (c : PdoCursor Row) : PdoCall Row → Prop
  | .execute conn parameters answer i =>
    c.pdo.stmt.handle.stmt.executed = true → parameters = [] →
      if c.pdo.executed then ((c.pdo.stmt.onConnection conn).reset answer).1 = true
      else ((c.pdo.stmt.onConnection conn).step i).1.IsFailure
  | .fetch _ _ => True

theorem dispatchParamEvent_frame (s : PdoStmt Row) (n : ℕ) (parameters : List Zval) :
    ∃ stored, (s.dispatchParamEvent n parameters).2 = s.withParameters stored := by
  induction parameters generalizing s n with
  | nil => exact ⟨s.stmt.parameters, rfl⟩
  | cons parameter parameters ih =>
    have hhook : ∃ stored, (s.paramHook n parameter).2 = s.withParameters stored := by
      unfold PdoStmt.paramHook pdoMyliteBindZval
      split_ifs
      · exact ⟨s.stmt.parameters, rfl⟩
      · obtain ⟨stored, hbind⟩ :=
          bind_frame s.stmt ((n : Int).toNat + 1) parameter.parameter
        refine ⟨stored, ?_⟩
        rw [bindZval_eq]
        exact congrArg (fun stmt => { s with stmt := stmt }) hbind
    rw [PdoStmt.dispatchParamEvent]
    generalize s.paramHook n parameter = p at hhook ⊢
    obtain ⟨ok, s'⟩ := p
    obtain ⟨stored, rfl⟩ : ∃ stored, s' = s.withParameters stored := hhook
    cases ok with
    | false => exact ⟨stored, rfl⟩
    | true =>
      obtain ⟨stored', hrest⟩ := ih (s.withParameters stored) (n + 1)
      exact ⟨stored', hrest⟩

variable {s' : PdoStmt Row} {answer : Answer Row} {i : StepInput Row}

/-- The executer reports success with `mylite_step`. -/
theorem execute_of_dispatch {s : PdoStmt Row}
    (hdispatch : s.dispatchParamEvent 0 parameters = (true, s')) :
    (((s'.resetExecuted answer).step i).1.IsFailure → (s.execute parameters answer i).1 = false) ∧
    (¬((s'.resetExecuted answer).step i).1.IsFailure → s.execute parameters answer i = (true, {
      stmt := ((s'.resetExecuted answer).step i).2, executed := true
      prefetched := !((s'.resetExecuted answer).step i).1.rows.isEmpty
      done := ((s'.resetExecuted answer).step i).1.rows.isEmpty })) := by
  unfold PdoStmt.execute PdoStmt.pdoMyliteStmtExecute
  rw [hdispatch]
  dsimp only
  generalize (s'.resetExecuted answer).step i = p
  obtain ⟨result, stmt⟩ := p
  cases result with
  | row r | done => exact ⟨False.elim, fun _ => rfl⟩
  | error | nomem => exact ⟨fun _ => rfl, fun hok => absurd trivial hok⟩

/-- The fetch behind an execution shows the row of its step. -/
theorem fetched_of_executed {c : PdoCursor Row} {result : StepResult Row}
    (hexecuted : c.pdo.executed = true) (hprefetched : c.pdo.prefetched = !result.rows.isEmpty)
    (hdone : c.pdo.done = result.rows.isEmpty) (hrow : c.row = result.rows.head?)
    (conn : Connection Row) (j : StepInput Row) : c.fetched conn j = result.rows.head? := by
  unfold fetched next
  have hcall : (c.pdo.call (.fetch conn j)).1 = !result.rows.isEmpty := by
    show ((c.pdo.onConnection conn).fetch j).1 = _
    unfold PdoStmt.fetch PdoStmt.pdoMyliteStmtFetch
    rw [if_pos (show (c.pdo.onConnection conn).executed = true from hexecuted)]
    rw [show (c.pdo.onConnection conn).done = _ from hdone,
      show (c.pdo.onConnection conn).prefetched = _ from hprefetched]
    cases hempty : result.rows.isEmpty with
    | true | false => rfl
  have hstepped : c.pdo.stepped (.fetch conn j) = none := by
    unfold PdoStmt.stepped
    rw [hexecuted, hprefetched, hdone]
    cases result.rows.isEmpty with
    | true | false => rfl
  rw [hcall, hstepped]
  cases hrows : result.rows with
  | nil => rfl
  | cons r rows =>
    dsimp only
    rw [hrow, hrows]
    rfl

/-- What an execution does, by the statement whose step it makes. -/
theorem honest_iff_of_dispatch {c : PdoCursor Row} {conn : Connection Row}
    (hdispatch : (c.pdo.onConnection conn).dispatchParamEvent 0 parameters = (true, s'))
    (hruns : (s'.resetExecuted answer).runs = c.pdo.stmt.runs) :
    c.Honest (.execute conn parameters answer i) ↔
      (¬((s'.resetExecuted answer).step i).1.IsFailure →
        (s'.resetExecuted answer).handle.stmt.executed = false) := by
  by_cases hok : ((s'.resetExecuted answer).step i).1.IsFailure
  · refine iff_of_true (fun hsuccess => ?_) fun hnot => absurd hok hnot
    have hfalse : (c.pdo.call (.execute conn parameters answer i)).1 = false :=
      (execute_of_dispatch hdispatch).1 hok
    cases hfalse.symm.trans hsuccess
  · have hcall : c.pdo.call (.execute conn parameters answer i) = _ :=
      (execute_of_dispatch hdispatch).2 hok
    have hpdo : (c.next (.execute conn parameters answer i)).pdo = _ := congrArg Prod.snd hcall
    have hrow : (c.next (.execute conn parameters answer i)).row
        = ((s'.resetExecuted answer).step i).1.rows.head? := by
      rw [next, PdoStmt.stepped, hdispatch]
    have hfetched := fetched_of_executed (congrArg PdoStmt.executed hpdo)
      (congrArg PdoStmt.prefetched hpdo) (congrArg PdoStmt.done hpdo) hrow
    rw [← honest_step hok, hruns, Honest, hcall, hpdo]
    constructor
    · intro hhonest _
      obtain ⟨hlength, hfirst⟩ := hhonest rfl
      exact ⟨hlength, (hfetched conn i).symm.trans (hfirst conn i)⟩
    · intro hstep _
      obtain ⟨hlength, hfirst⟩ := hstep hok
      exact ⟨hlength, fun conn' j => (hfetched conn' j).trans hfirst⟩

theorem honest_iff_ready (c : PdoCursor Row) (call : PdoCall Row) :
    c.Honest call ↔ c.Ready call := by
  cases call with
  | fetch conn i => exact Iff.rfl
  | execute conn parameters answer i =>
    obtain ⟨hflag, hreleased⟩ := Handle.reset_leaves (c.pdo.stmt.onConnection conn).handle answer
    obtain ⟨stored, hframe⟩ :=
      dispatchParamEvent_frame (c.pdo.onConnection conn) 0 parameters
    rcases hdispatch : (c.pdo.onConnection conn).dispatchParamEvent 0 parameters with ⟨ok, s'⟩
    rw [hdispatch] at hframe
    obtain rfl : s' = (c.pdo.onConnection conn).withParameters stored := hframe
    cases ok with
    | false =>
      refine iff_of_true (fun hsuccess => ?_) fun _ hnil => ?_
      · have hfalse : (c.pdo.call (.execute conn parameters answer i)).1 = false := by
          show ((c.pdo.onConnection conn).execute parameters answer i).1 = false
          unfold PdoStmt.execute
          rw [hdispatch]
        cases hfalse.symm.trans hsuccess
      · rw [hnil, PdoStmt.dispatchParamEvent] at hdispatch
        cases hdispatch
    | true =>
      -- A value is refused by a statement that counts as executed, so there was none.
      have hnone : c.pdo.stmt.handle.stmt.executed = true → parameters = [] := by
        intro hold
        by_contra hne
        have hrefused :=
          PdoStmt.dispatchParamEvent_of_executed (s := c.pdo.onConnection conn) hold hne 0
        rw [hdispatch] at hrefused
        cases hrefused
      set s' := (c.pdo.onConnection conn).withParameters stored with hs'
      have hruns : (s'.resetExecuted answer).runs = c.pdo.stmt.runs := by
        unfold PdoStmt.resetExecuted
        split_ifs
        · rfl
        · rfl
      cases hcore : c.pdo.executed with
      | true =>
        have hreset : s'.resetExecuted answer = (s'.stmt.reset answer).2 := if_pos hcore
        rw [honest_iff_of_dispatch hdispatch hruns, hreset, Ready, hcore, if_pos rfl]
        have hflag' : (s'.stmt.reset answer).2.handle.stmt.executed
            = (c.pdo.stmt.handle.stmt.executed
              && !((c.pdo.stmt.onConnection conn).reset answer).1) := hflag
        rw [hflag']
        constructor
        · intro hnew hold _
          by_contra hfailed
          rw [Bool.not_eq_true] at hfailed
          rw [hold, hfailed] at hnew hflag'
          have hdone := BoundStmt.step_of_released hflag' hreleased i
          rw [hdone] at hnew
          cases hnew fun hfail => hfail
        · intro hready _
          cases hold : c.pdo.stmt.handle.stmt.executed with
          | false => rfl
          | true =>
            rw [hready hold (hnone hold)]
            rfl
      | false =>
        have hreset : s'.resetExecuted answer = s'.stmt :=
          if_neg (by rw [show s'.executed = _ from hcore]; decide)
        rw [honest_iff_of_dispatch hdispatch hruns, hreset, Ready, hcore,
          if_neg Bool.false_ne_true]
        have hsame : parameters = [] → s'.stmt = c.pdo.stmt.onConnection conn := by
          intro hnil
          rw [hnil, PdoStmt.dispatchParamEvent] at hdispatch
          exact congrArg PdoStmt.stmt (Prod.mk.inj hdispatch).2.symm
        constructor
        · intro hnew hold hnil
          by_contra hok
          rw [← hsame hnil] at hok
          cases hold.symm.trans (hnew hok)
        · intro hready hok
          cases hold : c.pdo.stmt.handle.stmt.executed with
          | false => exact hold
          | true =>
            rw [hsame (hnone hold)] at hok
            exact absurd (hready hold (hnone hold)) hok

end PdoCursor

/-! ### `MyLite\Statement` -/

namespace Statement

/-- The state behind a call. -/
def next (s : Statement Row) : StatementCall Row → Statement Row
  | .bindValue index value => (s.bindValue index value).2
  | .execute conn answer i => ((s.onConnection conn).execute answer i).2
  | .fetchAssociative conn i => ((s.onConnection conn).fetchAssociative i).2

/-- An execution that does not throw has run the statement once, and the next fetch returns the
    first row of its answer. -/
def Honest (s : Statement Row) : StatementCall Row → Prop
  | .execute conn answer i =>
    ((s.onConnection conn).execute answer i).1 = true →
      (s.next (.execute conn answer i)).stmt.runs.length = s.stmt.runs.length + 1
        ∧ ∀ conn' j,
          (((s.next (.execute conn answer i)).onConnection conn').fetchAssociative j).1
            = (firstRows i.answers).head?
  | _ => True

/-- The statement does not count as executed, or the last step did not fail and the statement is
    therefore reset, or the step fails. -/
def Ready (s : Statement Row) : StatementCall Row → Prop
  | .execute conn _ i =>
    s.stmt.handle.stmt.executed = true → s.stepResult.IsFailure →
      ((s.stmt.onConnection conn).step i).1.IsFailure
  | _ => True

theorem stepStatement_eq (s : Statement Row) (i : StepInput Row) :
    (s.stepStatement i).2 = ⟨(s.stmt.step i).2, (s.stmt.step i).1⟩
      ∧ ((s.stepStatement i).1 = true ↔ ¬(s.stmt.step i).1.IsFailure) := by
  unfold stepStatement
  generalize s.stmt.step i = p
  obtain ⟨result, stmt⟩ := p
  cases result with
  | row r | done => exact ⟨rfl, iff_of_true rfl fun hfail => hfail⟩
  | error | nomem => exact ⟨rfl, iff_of_false Bool.false_ne_true fun hok => hok trivial⟩

theorem fetchAssociative_fst (s : Statement Row) (i : StepInput Row) :
    (s.fetchAssociative i).1 = s.stepResult.rows.head? := by
  unfold fetchAssociative
  cases s.stepResult with
  | row r | done | error | nomem => rfl

/-- The step of an execution, made on `t`. -/
theorem honest_stepStatement {t : Statement Row} {i : StepInput Row} :
    ((t.stepStatement i).1 = true → (t.stepStatement i).2.stmt.runs.length
        = t.stmt.runs.length + 1 ∧ ∀ conn' j,
          (((t.stepStatement i).2.onConnection conn').fetchAssociative j).1
            = (firstRows i.answers).head?)
      ↔ (¬(t.stmt.step i).1.IsFailure → t.stmt.handle.stmt.executed = false) := by
  obtain ⟨hstate, hsuccess⟩ := t.stepStatement_eq i
  rw [hstate, hsuccess]
  refine imp_congr_right fun hok => ?_
  rw [← honest_step hok]
  refine and_congr_right fun _ => ?_
  constructor
  · intro hfirst
    exact (fetchAssociative_fst _ i).symm.trans (hfirst t.stmt.handle.conn i)
  · intro hfirst conn' j
    exact (fetchAssociative_fst _ j).trans hfirst

/-- **How an execution goes.** A reset fails and is reported; or the last step failed, and a step
    is made without a reset; or a step is made on the statement as a reset left it. -/
theorem execute_cases (s : Statement Row) (answer : Answer Row) (i : StepInput Row) :
    (¬s.stepResult.IsFailure ∧ (s.execute answer i).1 = false)
    ∨ (s.stepResult.IsFailure ∧ s.execute answer i = s.stepStatement i)
    ∨ (¬s.stepResult.IsFailure ∧ ∃ t : Statement Row, s.execute answer i = t.stepStatement i
        ∧ t.stmt.runs = s.stmt.runs ∧ t.stmt.handle.stmt.executed = false) := by
  have hexecuted : (s.stmt.reset answer).1 = true →
      (s.stmt.reset answer).2.handle.stmt.executed = false := fun hok => Handle.executed_reset hok
  have hruns : (s.stmt.reset answer).2.runs = s.stmt.runs := rfl
  unfold execute
  cases hresult : s.stepResult with
  | error | nomem => exact .inr (.inl ⟨trivial, rfl⟩)
  | row r | done =>
    dsimp only
    generalize s.stmt.reset answer = p at hexecuted hruns ⊢
    obtain ⟨ok, stmt⟩ := p
    cases ok with
    | false => exact .inl ⟨fun hfail => hfail, rfl⟩
    | true =>
      exact .inr (.inr ⟨fun hfail => hfail, { s with stmt := stmt }, rfl, hruns, hexecuted rfl⟩)

theorem honest_iff_ready (s : Statement Row) (c : StatementCall Row) :
    s.Honest c ↔ s.Ready c := by
  cases c with
  | bindValue index value | fetchAssociative conn i => exact Iff.rfl
  | execute conn answer i =>
    rw [Honest, next, Ready]
    rcases (s.onConnection conn).execute_cases answer i with
      ⟨hok, hthrown⟩ | ⟨hfail, hexecute⟩ | ⟨hok, t, hexecute, hruns, hnew⟩
    · refine iff_of_true (fun hsuccess => ?_) fun _ hfail => absurd hfail hok
      cases hthrown.symm.trans hsuccess
    · rw [hexecute]
      refine (honest_stepStatement (t := s.onConnection conn)).trans ?_
      constructor
      · intro hnew hold _
        by_contra hok
        cases hold.symm.trans (hnew hok)
      · intro hready hok
        cases hold : s.stmt.handle.stmt.executed with
        | false => exact hold
        | true => exact absurd (hready hold hfail) hok
    · refine iff_of_true ?_ fun _ hfail => absurd hfail hok
      rw [hexecute, show s.stmt.runs = t.stmt.runs from hruns.symm]
      exact honest_stepStatement.mpr fun _ => hnew

end Statement

/-- **A successful execution has executed.** In all three extensions, and in every sequence of calls
    from any state, every execution that reports success has run the statement exactly once and what
    is fetched begins with its first row, exactly if every call finds the statement ready. -/
theorem along_honest_iff :
    (∀ (s : MysqliStmt Row) (calls : List (MysqliCall Row)),
      Along MysqliStmt.next MysqliStmt.Honest s calls
        ↔ Along MysqliStmt.next MysqliStmt.Ready s calls)
    ∧ (∀ (c : PdoCursor Row) (calls : List (PdoCall Row)),
      Along PdoCursor.next PdoCursor.Honest c calls
        ↔ Along PdoCursor.next PdoCursor.Ready c calls)
    ∧ (∀ (s : Statement Row) (calls : List (StatementCall Row)),
      Along Statement.next Statement.Honest s calls
        ↔ Along Statement.next Statement.Ready s calls) :=
  ⟨along_congr MysqliStmt.honest_iff_ready, along_congr PdoCursor.honest_iff_ready,
    along_congr Statement.honest_iff_ready⟩

/-- A connection on which the rows `rest` of a statement wait. -/
def waiting (rest : List ℕ) : Connection ℕ where
  status := .statementGetResult
  curData := some (rest, false)
  hasFields := true

/-- mysqli and PDO report success for an execution in front of which the reset failed, and
    `MyLite\Statement` for one that goes on behind a row that could not be read. -/
theorem not_along_honest :
    ¬Along MysqliStmt.next MysqliStmt.Honest
      { stmt := .prepared ({} : Connection ℕ) { state := .prepareDone } 0 }
      [.execute {} .ok { answers := [.ok] } fun _ => { answers := [] },
        .execute {} .error { answers := [.ok] } fun _ => { answers := [] }]
    ∧ ¬Along PdoCursor.next PdoCursor.Honest
      { pdo := .prepared ({} : Connection ℕ) { state := .prepareDone } 0 }
      [.execute {} [] .ok { answers := [.ok] }, .execute {} [] .error { answers := [.ok] }]
    ∧ ¬Along Statement.next Statement.Honest
      { stmt := .prepared {} { state := .prepareDone, hasFields := true } 0 }
      [.execute {} .ok { answers := [.rows [1, 2, 3] false] },
        .fetchAssociative (waiting [2, 3])
          { answers := [], truncated := true, fetchColumns := false },
        .execute (waiting [3]) .ok { answers := [.rows [1, 2, 3] false] }] := by
  refine ⟨?_, ?_, ?_⟩
  · rintro ⟨-, hsecond, -⟩
    exact absurd (hsecond rfl).1 (by decide)
  · rintro ⟨-, hsecond, -⟩
    exact absurd (hsecond rfl).1 (by decide)
  · rintro ⟨-, -, hthird, -⟩
    exact absurd (hthird rfl).1 (by decide)

end MyLite.Php

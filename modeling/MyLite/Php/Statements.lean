import MyLite.Lib.Run
import MyLite.Prepared.Parameters

namespace MyLite.Php

open MyLite.Client MyLite.Lib MyLite.Prepared MyLite.Sql List

/-!
# Prepared statements of the PHP extensions

A PDO statement binds its values in a hook that the PDO core calls in front of the executer, and
only the executer resets the statement; `MyLite\Statement` has a method that binds a value and
resets the statement when it is executed again.  In both, a value that is bound between an
execution and the next reset is refused.

* `PdoStmt.execute`, `PdoStmt.fetch` — the callbacks of the driver, in the order in which the PDO
  core calls them.
* `PdoStmt.runsEach_iff` — a PDO statement with placeholders can be executed once.
* `Statement.bindValue`, `Statement.execute`, `Statement.fetchAssociative` — the methods.
* `Scripted.runsEach_iff_bindsFirst` — a `MyLite\Statement` works as long as all values are bound
  before it is first executed.
-/

/-! ### Values of a script -/

/-- A PHP string; its length is less than `SIZE_MAX`. -/
abbrev PhpString := { s : Text // s.length < ulongMax }

/-- A `zval`, by the type the binding code looks at: everything else is converted to a string. -/
inductive Zval
  | null
  | bool (value : Bool)
  | long (value : Int64)
  | double (bits : UInt64)
  | string (value : PhpString)
  deriving DecidableEq

/-- The value a script means. -/
def Zval.value : Zval → Value
  | .null => .null
  | .bool false => .int64 0
  | .bool true => .int64 1
  | .long value => .int64 value
  | .double bits => .double bits
  | .string value => .text value

variable {Row : Type}

/-- What `php_mylite_bind_zval` and `pdo_mylite_bind_zval` do. -/
def bindZval (s : BoundStmt Row) (index : ℕ) : Zval → Bool × BoundStmt Row
  | .null => s.bindNullValue index
  | .bool false => s.bindInt64 index 0
  | .bool true => s.bindInt64 index 1
  | .long value => s.bindInt64 index value
  | .double bits => s.bindDouble index bits
  | .string value => s.bindText index value

/-- `php_mylite_bind_zval`. -/
def phpMyliteBindZval (s : BoundStmt Row) (index : ℕ) (value : Zval) : Bool × BoundStmt Row :=
  bindZval s index value

/-- `pdo_mylite_bind_zval`. -/
def pdoMyliteBindZval (s : BoundStmt Row) (index : ℕ) (value : Zval) : Bool × BoundStmt Row :=
  bindZval s index value

/-- The parameter a value is stored as. -/
def Zval.parameter : Zval → ParameterBinding
  | .null => .null
  | .bool false => .int64Value 0
  | .bool true => .int64Value 1
  | .long value => .int64Value value
  | .double bits => .doubleValue bits
  | .string value => bytesParameter false value

theorem value_parameter (value : Zval) : value.parameter.value = value.value := by
  cases value with
  | null => rfl
  | bool b => cases b <;> rfl
  | long value | double bits => rfl
  | string value => exact value_bytesParameter value

theorem bindZval_eq (s : BoundStmt Row) (index : ℕ) (value : Zval) :
    bindZval s index value = s.bind index value.parameter := by
  cases value with
  | null => rfl
  | bool b => cases b <;> rfl
  | long value | double bits => rfl
  | string value =>
    have hlt : (value : Text).length < ulongMax := value.2
    have hne : (value : Text).length ≠ ulongMax := ne_of_lt hlt
    show s.bindText index value = s.bind index (bytesParameter false value)
    unfold BoundStmt.bindText BoundStmt.bindBytes
    rw [if_neg hne, if_neg (by omega)]

/-- `UINT32_MAX`. -/
def uint32Max : ℕ := 2 ^ 32 - 1

/-! ### PDO -/

/-- `pdo_mylite_stmt`, with the `executed` flag of the PDO core. -/
structure PdoStmt (Row : Type) where
  stmt : BoundStmt Row
  executed : Bool := false
  prefetched : Bool := false
  done : Bool := false

namespace PdoStmt

/-- `pdo_mylite_stmt_param_hook` on `PDO_PARAM_EVT_EXEC_PRE`. -/
def paramHook (s : PdoStmt Row) (paramno : Int) (parameter : Zval) : Bool × PdoStmt Row :=
  if paramno < 0 || (uint32Max : Int) ≤ paramno then (false, s)
  else match pdoMyliteBindZval s.stmt (paramno.toNat + 1) parameter with
    | (ok, stmt) => (ok, { s with stmt := stmt })

/-- The PDO core fires `PDO_PARAM_EVT_EXEC_PRE` for each parameter, and stops where the hook
    fails. -/
def dispatchParamEvent (s : PdoStmt Row) : ℕ → List Zval → Bool × PdoStmt Row
  | _, [] => (true, s)
  | paramno, parameter :: parameters =>
    match s.paramHook paramno parameter with
    | (false, s) => (false, s)
    | (true, s) => s.dispatchParamEvent (paramno + 1) parameters

/-- The reset in `pdo_mylite_stmt_execute`. -/
def resetExecuted (s : PdoStmt Row) (answer : Answer Row) : BoundStmt Row :=
  if s.executed then (s.stmt.reset answer).2 else s.stmt

/-- `pdo_mylite_stmt_execute`. -/
def pdoMyliteStmtExecute (s : PdoStmt Row) (answer : Answer Row) (i : StepInput Row) :
    Bool × PdoStmt Row :=
  match (s.resetExecuted answer).step i with
  | (.row _, stmt) => (true, { s with stmt := stmt, prefetched := true, done := false })
  | (.done, stmt) => (true, { s with stmt := stmt, prefetched := false, done := true })
  | (_, stmt) => (false, { s with stmt := stmt, prefetched := false, done := false })

/-- `PDOStatement::execute`: the hooks, the executer, and the flag. -/
def execute (s : PdoStmt Row) (parameters : List Zval) (answer : Answer Row)
    (i : StepInput Row) : Bool × PdoStmt Row :=
  match s.dispatchParamEvent 0 parameters with
  | (false, s) => (false, s)
  | (true, s) =>
    match s.pdoMyliteStmtExecute answer i with
    | (false, s) => (false, s)
    | (true, s) => (true, { s with executed := true })

/-- `pdo_mylite_stmt_fetch`. -/
def pdoMyliteStmtFetch (s : PdoStmt Row) (i : StepInput Row) : Bool × PdoStmt Row :=
  if s.done then (false, s)
  else if s.prefetched then (true, { s with prefetched := false })
  else match s.stmt.step i with
    | (.row _, stmt) => (true, { s with stmt := stmt })
    | (.done, stmt) => (false, { s with stmt := stmt, done := true })
    | (_, stmt) => (false, { s with stmt := stmt })

/-- `PDOStatement::fetch`: the PDO core asks the driver only about an executed statement. -/
def fetch (s : PdoStmt Row) (i : StepInput Row) : Bool × PdoStmt Row :=
  if s.executed then s.pdoMyliteStmtFetch i else (false, s)

/-- The statement on the connection as others have left it. -/
def onConnection (s : PdoStmt Row) (conn : Connection Row) : PdoStmt Row :=
  { s with stmt := s.stmt.onConnection conn }

/-- A statement as `pdo_mylite_handle_preparer` leaves it. -/
def prepared (conn : Connection Row) (stmt : Stmt) (count : ℕ) : PdoStmt Row :=
  { stmt := .prepared conn stmt count }

end PdoStmt

/-- The calls of a script on a PDO statement, with what they find: the connection, and the
    backend's part. -/
inductive PdoCall (Row : Type)
  | execute (conn : Connection Row) (parameters : List Zval) (answer : Answer Row)
      (i : StepInput Row)
  | fetch (conn : Connection Row) (i : StepInput Row)

/-- The call executes the statement. -/
def PdoCall.isExecute : PdoCall Row → Bool
  | .execute _ _ _ _ => true
  | .fetch _ _ => false

/-- An execution has a value for each placeholder. -/
def PdoCall.HasValues (count : ℕ) : PdoCall Row → Prop
  | .execute _ parameters _ _ => parameters.length = count
  | .fetch _ _ => True

namespace PdoStmt

/-- A call of a script. -/
def call (s : PdoStmt Row) : PdoCall Row → Bool × PdoStmt Row
  | .execute conn parameters answer i => (s.onConnection conn).execute parameters answer i
  | .fetch conn i => (s.onConnection conn).fetch i

/-- The state behind a call. -/
def next (s : PdoStmt Row) (c : PdoCall Row) : PdoStmt Row := (s.call c).2

/-- No call of `mylite_reset` or `mylite_step` fails; `mylite_step` fails only where a call into
    the backend does. -/
def BackendSucceeds (s : PdoStmt Row) : PdoCall Row → Prop
  | .execute conn _ answer i =>
    (s.executed = true → ((s.onConnection conn).stmt.reset answer).1 = true)
      ∧ ¬(((s.onConnection conn).resetExecuted answer).step i).1.IsFailure
  | .fetch conn i =>
    s.executed = true → s.done = false → s.prefetched = false →
      ¬((s.onConnection conn).stmt.step i).1.IsFailure

/-- An execution succeeds, and runs the statement with its own values. -/
def RunsEach (s : PdoStmt Row) : PdoCall Row → Prop
  | .execute conn parameters answer i =>
    (s.call (.execute conn parameters answer i)).1 = true
      ∧ (s.call (.execute conn parameters answer i)).2.stmt.runs
        = s.stmt.runs ++ [parameters.map Zval.value]
  | .fetch _ _ => True

/-! ### Binding in front of the executer -/

/-- The statement with other values. -/
def withParameters (s : PdoStmt Row) (parameters : List ParameterBinding) : PdoStmt Row :=
  { s with stmt := s.stmt.withParameters parameters }

theorem take_add_one_set {α : Type*} {l : List α} {n : ℕ} (h : n < l.length) (a : α) :
    (l.set n a).take (n + 1) = l.take n ++ [a] := by
  rw [take_add_one, take_set_of_le le_rfl, List.getElem?_set_self h]
  rfl

/-- The hooks store the values in order, on a statement that may be bound. -/
theorem dispatchParamEvent_of_not_executed (parameters : List Zval) (n : ℕ) (s : PdoStmt Row)
    (hnew : s.stmt.handle.stmt.executed = false)
    (hlength : n + parameters.length = s.stmt.parameters.length)
    (hcount : s.stmt.parameters.length ≤ uint32Max) :
    s.dispatchParamEvent n parameters
      = (true, s.withParameters (s.stmt.parameters.take n ++ parameters.map Zval.parameter)) := by
  induction parameters generalizing s n with
  | nil =>
    rw [length_nil, Nat.add_zero] at hlength
    rw [dispatchParamEvent, map_nil, append_nil, take_of_length_le hlength.ge]
    rfl
  | cons parameter parameters ih =>
    rw [length_cons] at hlength
    have hn : n < s.stmt.parameters.length := by omega
    set s' := s.withParameters (s.stmt.parameters.set n parameter.parameter) with hs'
    have hhook : s.paramHook n parameter = (true, s') := by
      unfold paramHook pdoMyliteBindZval
      rw [if_neg (by simp; omega), Int.toNat_natCast, bindZval_eq,
        BoundStmt.bind_of_not_executed hnew (by omega) (by omega)]
      rfl
    have hset : s'.stmt.parameters.length = s.stmt.parameters.length := length_set
    have htake : s'.stmt.parameters.take (n + 1)
        = s.stmt.parameters.take n ++ [parameter.parameter] := take_add_one_set hn _
    rw [dispatchParamEvent, hhook]
    show s'.dispatchParamEvent (n + 1) parameters = _
    rw [ih (n + 1) s' hnew (by omega) (by omega), htake, append_assoc]
    rfl

variable {s : PdoStmt Row}

variable {parameters : List Zval}

/-- An executed statement refuses the first value. -/
theorem dispatchParamEvent_of_executed (hold : s.stmt.handle.stmt.executed = true)
    (hne : parameters ≠ []) (n : ℕ) : (s.dispatchParamEvent n parameters).1 = false := by
  cases parameters with
  | nil => exact absurd rfl hne
  | cons parameter parameters =>
    have hhook : (s.paramHook n parameter).1 = false := by
      unfold paramHook pdoMyliteBindZval
      rw [bindZval_eq, BoundStmt.bind_of_executed hold]
      split_ifs
      · rfl
      · rfl
    rw [dispatchParamEvent, show s.paramHook n parameter = (false, _) from Prod.ext hhook rfl]

/-! ### One execution -/

/-- A statement that has not been executed. -/
structure Fresh (count : ℕ) (s : PdoStmt Row) : Prop where
  executed : s.executed = false
  new : s.stmt.handle.stmt.executed = false
  count : s.stmt.parameters.length = count

variable {answer : Answer Row}

/-- The executer succeeds with `mylite_step`. -/
theorem pdoMyliteStmtExecute_ok {i : StepInput Row}
    (hok : ¬((s.resetExecuted answer).step i).1.IsFailure) :
    ∃ s', s.pdoMyliteStmtExecute answer i = (true, s')
      ∧ s'.stmt = ((s.resetExecuted answer).step i).2 := by
  unfold pdoMyliteStmtExecute
  generalize (s.resetExecuted answer).step i = p at hok ⊢
  obtain ⟨result, stmt⟩ := p
  cases result with
  | row r | done => exact ⟨_, rfl, rfl⟩
  | error | nomem => exact absurd trivial hok

theorem map_value_parameter (parameters : List Zval) :
    (parameters.map Zval.parameter).map ParameterBinding.value = parameters.map Zval.value := by
  rw [map_map]
  exact map_congr_left fun parameter _ => value_parameter parameter

/-- The first execution works, and leaves the statement executed. -/
theorem runsEach_of_fresh {count : ℕ} (hs : Fresh count s) (hcount : count ≤ uint32Max)
    {conn : Connection Row} {i : StepInput Row} (hlength : parameters.length = count)
    (hok : BackendSucceeds s (.execute conn parameters answer i)) :
    RunsEach s (.execute conn parameters answer i)
      ∧ (s.next (.execute conn parameters answer i)).stmt.handle.stmt.executed = true := by
  set bound := (s.onConnection conn).withParameters (parameters.map Zval.parameter) with hbound
  have hlen : 0 + parameters.length = (s.onConnection conn).stmt.parameters.length := by
    rw [Nat.zero_add, hlength]
    exact hs.count.symm
  have hdispatch : (s.onConnection conn).dispatchParamEvent 0 parameters = (true, bound) :=
    dispatchParamEvent_of_not_executed parameters 0 _ hs.new hlen (hs.count.trans_le hcount)
  have hreset : ∀ t : PdoStmt Row, t.executed = s.executed → t.resetExecuted answer = t.stmt :=
    fun t ht => if_neg (by rw [ht, hs.executed]; decide)
  -- The hooks change the values, not how many there are, so the step returns the same.
  have hstep : ¬(bound.stmt.step i).1.IsFailure := by
    have hsame : (bound.stmt.step i).1 = ((s.onConnection conn).stmt.step i).1 := by
      refine BoundStmt.result_step_withParameters ?_ i
      rw [length_map, ← hlen, Nat.zero_add]
    rw [hsame, ← hreset (s.onConnection conn) rfl]
    exact hok.2
  rw [← hreset bound rfl] at hstep
  obtain ⟨s', hexecute, hstmt⟩ := pdoMyliteStmtExecute_ok hstep
  rw [hreset bound rfl] at hstmt hstep
  obtain ⟨hruns, hexecuted⟩ := BoundStmt.runs_step (s := bound.stmt) hs.new hstep
  have hcall : s.call (.execute conn parameters answer i)
      = (true, { s' with executed := true }) := by
    show (s.onConnection conn).execute parameters answer i = _
    unfold execute
    rw [hdispatch]
    dsimp only
    rw [hexecute]
  refine ⟨⟨by rw [hcall], ?_⟩, ?_⟩
  · rw [hcall]
    show s'.stmt.runs = _
    rw [hstmt, hruns, ← map_value_parameter]
    rfl
  · show (s.call (.execute conn parameters answer i)).2.stmt.handle.stmt.executed = true
    rw [hcall]
    show s'.stmt.handle.stmt.executed = true
    rw [hstmt, hexecuted]

/-! ### Runs -/

/-- A fetch never makes the statement ready for other values. -/
theorem executed_fetch (hold : s.stmt.handle.stmt.executed = true) (i : StepInput Row) :
    (s.fetch i).2.stmt.handle.stmt.executed = true := by
  have hstep : (s.stmt.step i).2.handle.stmt.executed = true :=
    Handle.executed_step hold (s.stmt.stepInput i)
  unfold fetch pdoMyliteStmtFetch
  split_ifs
  · exact hold
  · exact hold
  · generalize s.stmt.step i = p at hstep ⊢
    obtain ⟨result, stmt⟩ := p
    cases result with
    | row r | done | error | nomem => exact hstep
  · exact hold

/-- Behind an execution, everything works as long as there is no other one. -/
theorem runsEach_of_executed {count : ℕ} (hpos : 0 < count) {calls : List (PdoCall Row)}
    (hold : s.stmt.handle.stmt.executed = true) (hvalues : ∀ c ∈ calls, c.HasValues count) :
    Along next RunsEach s calls ↔ calls.countP PdoCall.isExecute = 0 := by
  induction calls generalizing s with
  | nil => exact ⟨fun _ => rfl, fun _ => trivial⟩
  | cons c calls ih =>
    rw [forall_mem_cons] at hvalues
    cases c with
    | execute conn parameters answer i =>
      have hne : parameters ≠ [] := by
        intro hnil
        have hlength : parameters.length = count := hvalues.1
        rw [hnil, length_nil] at hlength
        omega
      have hfails : (s.call (.execute conn parameters answer i)).1 = false := by
        show ((s.onConnection conn).execute parameters answer i).1 = false
        have hdispatch : (s.onConnection conn).dispatchParamEvent 0 parameters = (false, _) :=
          Prod.ext (dispatchParamEvent_of_executed (s := s.onConnection conn) hold hne 0) rfl
        rw [execute, hdispatch]
      constructor
      · rintro ⟨⟨hsuccess, -⟩, -⟩
        cases hfails.symm.trans hsuccess
      · intro hzero
        rw [countP_cons_of_pos rfl] at hzero
        omega
    | fetch conn i =>
      rw [countP_cons_of_neg Bool.false_ne_true]
      exact (and_iff_right trivial).trans
        (ih (executed_fetch (s := s.onConnection conn) hold i) hvalues.2)

/-- **PDO statements.** Where no call into the backend fails, every execution of a statement with
    placeholders succeeds with its own values exactly if there is at most one. -/
theorem runsEach_iff {conn : Connection Row} {stmt : Stmt} {count : ℕ}
    (hpos : 0 < count) (hcount : count ≤ uint32Max) {calls : List (PdoCall Row)}
    (hvalues : ∀ c ∈ calls, c.HasValues count)
    (hok : Along next BackendSucceeds (prepared conn stmt count) calls) :
    Along next RunsEach (prepared conn stmt count) calls
      ↔ calls.countP PdoCall.isExecute ≤ 1 := by
  have hfresh : Fresh count (prepared conn stmt count) :=
    ⟨rfl, rfl, length_replicate⟩
  generalize prepared conn stmt count = s at hok hfresh ⊢
  induction calls generalizing s with
  | nil => exact ⟨fun _ => Nat.zero_le 1, fun _ => trivial⟩
  | cons c calls ih =>
    rw [forall_mem_cons] at hvalues
    cases c with
    | execute conn parameters answer i =>
      obtain ⟨hworks, hexecuted⟩ := runsEach_of_fresh hfresh hcount hvalues.1 hok.1
      rw [countP_cons_of_pos rfl]
      refine (and_iff_right hworks).trans ((runsEach_of_executed hpos hexecuted hvalues.2).trans ?_)
      omega
    | fetch conn i =>
      rw [countP_cons_of_neg Bool.false_ne_true]
      have hnext : s.next (.fetch conn i) = s.onConnection conn := by
        show ((s.onConnection conn).fetch i).2 = _
        unfold fetch
        rw [if_neg (by rw [show (s.onConnection conn).executed = s.executed from rfl,
          hfresh.executed]; decide)]
      refine (and_iff_right trivial).trans ?_
      refine ih hvalues.2 _ hok.2 ?_
      rw [hnext]
      exact ⟨hfresh.executed, hfresh.new, hfresh.count⟩

/-- An `INSERT` with one placeholder, on a connection that is ready. -/
def insertStatement : PdoStmt ℕ := prepared {} { state := .prepareDone } 1

/-- An execution of it that the server answers with OK. -/
def insertValue (value : Zval) : PdoCall ℕ := .execute {} [value] .ok { answers := [.ok] }

theorem runsEach_insertOnce :
    Along next RunsEach insertStatement [insertValue (.long 7)] := by
  refine (runsEach_iff (by decide) (by decide) ?_ ?_).mpr (by decide)
  · intro c hc
    rw [mem_singleton] at hc
    subst hc
    rfl
  · exact ⟨⟨nofun, id⟩, trivial⟩

/-- The second execution fails, although nothing in the backend does. -/
theorem not_runsEach_insertTwice :
    Along next BackendSucceeds insertStatement [insertValue (.long 7), insertValue (.long 8)]
      ∧ ¬Along next RunsEach insertStatement
        [insertValue (.long 7), insertValue (.long 8)] := by
  refine ⟨⟨⟨nofun, id⟩, ⟨fun _ => rfl, id⟩, trivial⟩, ?_⟩
  rintro ⟨-, ⟨hsecond, -⟩, -⟩
  exact absurd hsecond (by decide)

end PdoStmt

/-! ### `MyLite\Statement` -/

/-- `php_mylite_statement`. -/
structure Statement (Row : Type) where
  stmt : BoundStmt Row
  stepResult : StepResult Row := .done

namespace Statement

/-- `MyLite\Statement::bindValue`; `false` is an exception. -/
def bindValue (s : Statement Row) (index : Int) (value : Zval) : Bool × Statement Row :=
  if index ≤ 0 || (uint32Max : Int) < index then (false, s)
  else match phpMyliteBindZval s.stmt index.toNat value with
    | (ok, stmt) => (ok, { s with stmt := stmt })

/-- The step in `MyLite\Statement::execute`. -/
def stepStatement (s : Statement Row) (i : StepInput Row) : Bool × Statement Row :=
  match s.stmt.step i with
  | (.row r, stmt) => (true, ⟨stmt, .row r⟩)
  | (.done, stmt) => (true, ⟨stmt, .done⟩)
  | (result, stmt) => (false, ⟨stmt, result⟩)

/-- `MyLite\Statement::execute`; `false` is an exception. -/
def execute (s : Statement Row) (answer : Answer Row) (i : StepInput Row) :
    Bool × Statement Row :=
  match s.stepResult with
  | .row _ | .done =>
    match s.stmt.reset answer with
    | (false, stmt) => (false, { s with stmt := stmt })
    | (true, stmt) => Statement.stepStatement { s with stmt := stmt } i
  | _ => s.stepStatement i

/-- `MyLite\Statement::fetchAssociative`: the row of the last step. -/
def fetchAssociative (s : Statement Row) (i : StepInput Row) :
    Option Row × Statement Row :=
  match s.stepResult with
  | .row r =>
    match s.stmt.step i with
    | (result, stmt) => (some r, ⟨stmt, result⟩)
  | _ => (none, s)

/-- The statement on the connection as others have left it. -/
def onConnection (s : Statement Row) (conn : Connection Row) : Statement Row :=
  { s with stmt := s.stmt.onConnection conn }

/-- The statement with other values. -/
def withParameters (s : Statement Row) (parameters : List ParameterBinding) : Statement Row :=
  { s with stmt := s.stmt.withParameters parameters }

end Statement

/-- The calls of a script on a `MyLite\Statement`, with what they find. -/
inductive StatementCall (Row : Type)
  | bindValue (index : ℕ) (value : Zval)
  | execute (conn : Connection Row) (answer : Answer Row) (i : StepInput Row)
  | fetchAssociative (conn : Connection Row) (i : StepInput Row)

namespace StatementCall

/-- The call executes the statement. -/
def isExecute : StatementCall Row → Bool
  | .execute _ _ _ => true
  | _ => false

/-- The call binds a value. -/
def isBindValue : StatementCall Row → Bool
  | .bindValue _ _ => true
  | _ => false

/-- A value is bound to a placeholder that exists. -/
def HasIndex (count : ℕ) : StatementCall Row → Prop
  | .bindValue index _ => 0 < index ∧ index ≤ count
  | _ => True

/-- No value is bound behind an execution. -/
def bindsFirst (calls : List (StatementCall Row)) : Bool :=
  (calls.dropWhile fun c => !c.isExecute).all fun c => !c.isBindValue

end StatementCall

/-- A statement, and the value that was last given for each placeholder. -/
structure Scripted (Row : Type) where
  statement : Statement Row
  bound : List Zval

namespace Scripted

/-- A statement as `MyLite\Connection::prepare` returns it. -/
def prepared (conn : Connection Row) (stmt : Stmt) (count : ℕ) : Scripted Row where
  statement := { stmt := .prepared conn stmt count }
  bound := List.replicate count .null

/-- The state behind a call. -/
def next (s : Scripted Row) : StatementCall Row → Scripted Row
  | .bindValue index value => ⟨(s.statement.bindValue index value).2, s.bound.set (index - 1) value⟩
  | .execute conn answer i => ⟨((s.statement.onConnection conn).execute answer i).2, s.bound⟩
  | .fetchAssociative conn i =>
    ⟨((s.statement.onConnection conn).fetchAssociative i).2, s.bound⟩

/-- No call of `mylite_reset` or `mylite_step` fails. -/
def BackendSucceeds (s : Scripted Row) : StatementCall Row → Prop
  | .bindValue _ _ => True
  | .execute conn answer i =>
    (s.statement.stepResult.IsFailure →
      ¬((s.statement.stmt.onConnection conn).step i).1.IsFailure)
    ∧ (¬s.statement.stepResult.IsFailure →
      ((s.statement.stmt.onConnection conn).reset answer).1 = true
        ∧ ¬(((s.statement.stmt.onConnection conn).reset answer).2.step i).1.IsFailure)
  | .fetchAssociative conn i =>
    ∀ r, s.statement.stepResult = .row r →
      ¬((s.statement.stmt.onConnection conn).step i).1.IsFailure

/-- A value is bound, and an execution runs the statement with the values last bound. -/
def RunsEach (s : Scripted Row) : StatementCall Row → Prop
  | .bindValue index value => (s.statement.bindValue index value).1 = true
  | .execute conn answer i =>
    (s.next (.execute conn answer i)).statement.stmt.runs
      = s.statement.stmt.runs ++ [s.bound.map Zval.value]
  | .fetchAssociative _ _ => True

/-- The statement has the values that were last bound, and none of its steps has failed. -/
structure Bound (count : ℕ) (s : Scripted Row) : Prop where
  succeeded : ¬s.statement.stepResult.IsFailure
  values : s.statement.stmt.parameters.map ParameterBinding.value = s.bound.map Zval.value
  count : s.statement.stmt.parameters.length = count

variable {i : StepInput Row}

variable {answer : Answer Row}

/-- An execution resets the statement and runs it with the values it has. -/
theorem execute_eq {s : Statement Row} (hs : ¬s.stepResult.IsFailure)
    (hreset : (s.stmt.reset answer).1 = true)
    (hstep : ¬((s.stmt.reset answer).2.step i).1.IsFailure) :
    s.execute answer i = (true, ⟨((s.stmt.reset answer).2.step i).2,
      ((s.stmt.reset answer).2.step i).1⟩) := by
  have hreset' : s.stmt.reset answer = (true, (s.stmt.reset answer).2) :=
    Prod.ext hreset rfl
  have hexecute : s.execute answer i
      = Statement.stepStatement { s with stmt := (s.stmt.reset answer).2 } i := by
    unfold Statement.execute
    rw [hreset']
    cases hresult : s.stepResult with
    | row r | done => rfl
    | error | nomem => exact absurd (hresult.symm ▸ trivial) hs
  rw [hexecute, Statement.stepStatement]
  dsimp only
  generalize (s.stmt.reset answer).2.step i = p at hstep ⊢
  obtain ⟨result, stmt⟩ := p
  cases result with
  | row r | done => rfl
  | error | nomem => exact absurd trivial hstep

variable {s : Scripted Row} {count : ℕ}

variable {conn : Connection Row}

/-- **Executing.** The statement runs with the values last bound, and is executed afterwards. -/
theorem Bound.execute (hs : s.Bound count) (hok : BackendSucceeds s (.execute conn answer i)) :
    RunsEach s (.execute conn answer i) ∧ (s.next (.execute conn answer i)).Bound count
      ∧ (s.next (.execute conn answer i)).statement.stmt.handle.stmt.executed = true := by
  obtain ⟨hreset, hstep⟩ := hok.2 hs.succeeded
  have hnew : ((s.statement.stmt.onConnection conn).reset answer).2.handle.stmt.executed = false :=
    Handle.executed_reset hreset
  obtain ⟨hruns, hexecuted⟩ := BoundStmt.runs_step hnew hstep
  have hnext : s.next (.execute conn answer i)
      = ⟨⟨(((s.statement.stmt.onConnection conn).reset answer).2.step i).2,
        (((s.statement.stmt.onConnection conn).reset answer).2.step i).1⟩, s.bound⟩ := by
    show Scripted.mk ((s.statement.onConnection conn).execute answer i).2 s.bound = _
    rw [execute_eq (s := s.statement.onConnection conn) hs.succeeded hreset hstep]
    rfl
  refine ⟨?_, ?_, ?_⟩
  · show (s.next (.execute conn answer i)).statement.stmt.runs = _
    rw [hnext, hruns, ← hs.values]
    rfl
  · rw [hnext]
    exact ⟨hstep, hs.values, hs.count⟩
  · rw [hnext]
    exact hexecuted

theorem fetchAssociative_row {s : Statement Row} {r : Row} (h : s.stepResult = .row r)
    (i : StepInput Row) : s.fetchAssociative i
      = (some r, ⟨(s.stmt.step i).2, (s.stmt.step i).1⟩) := by
  unfold Statement.fetchAssociative
  rw [h]

theorem fetchAssociative_of_not_row {s : Statement Row} (h : ∀ r, s.stepResult ≠ .row r)
    (i : StepInput Row) : s.fetchAssociative i = (none, s) := by
  unfold Statement.fetchAssociative
  cases hresult : s.stepResult with
  | row r => exact absurd hresult (h r)
  | done | error | nomem => rfl

/-- **Fetching.** The values stay, and an executed statement stays executed. -/
theorem Bound.fetchAssociative (hs : s.Bound count)
    (hok : BackendSucceeds s (.fetchAssociative conn i)) :
    (s.next (.fetchAssociative conn i)).Bound count
      ∧ (s.statement.stmt.handle.stmt.executed = true →
        (s.next (.fetchAssociative conn i)).statement.stmt.handle.stmt.executed = true) := by
  have hnext : s.next (.fetchAssociative conn i)
      = ⟨((s.statement.onConnection conn).fetchAssociative i).2, s.bound⟩ := rfl
  by_cases hrow : ∃ r, s.statement.stepResult = .row r
  · obtain ⟨r, hr⟩ := hrow
    rw [hnext, fetchAssociative_row (s := s.statement.onConnection conn) hr]
    refine ⟨⟨hok r hr, hs.values, hs.count⟩, fun hold => ?_⟩
    exact Handle.executed_step (h := (s.statement.stmt.onConnection conn).handle) hold _
  · rw [hnext, fetchAssociative_of_not_row (s := s.statement.onConnection conn)
      (fun r hr => hrow ⟨r, hr⟩)]
    exact ⟨⟨hs.succeeded, hs.values, hs.count⟩, fun hold => hold⟩

/-- **Binding.** A statement that has not been executed takes the value. -/
theorem Bound.bindValue (hs : s.Bound count) (hnew : s.statement.stmt.handle.stmt.executed = false)
    (hcount : count ≤ uint32Max) {index : ℕ} (value : Zval) (hpos : 0 < index)
    (hle : index ≤ count) :
    RunsEach s (.bindValue index value) ∧ (s.next (.bindValue index value)).Bound count
      ∧ (s.next (.bindValue index value)).statement = s.statement.withParameters
        (s.statement.stmt.parameters.set (index - 1) value.parameter) := by
  have hbind : s.statement.bindValue index value = (true, s.statement.withParameters
      (s.statement.stmt.parameters.set (index - 1) value.parameter)) := by
    unfold Statement.bindValue phpMyliteBindZval
    rw [if_neg (by simp; omega), Int.toNat_natCast, bindZval_eq,
      BoundStmt.bind_of_not_executed hnew hpos (hs.count ▸ hle)]
    rfl
  have hnext : s.next (.bindValue index value)
      = ⟨(s.statement.bindValue index value).2, s.bound.set (index - 1) value⟩ := rfl
  refine ⟨congrArg Prod.fst hbind, ?_, ?_⟩
  · rw [hnext, hbind]
    refine ⟨hs.succeeded, ?_, length_set.trans hs.count⟩
    show (s.statement.stmt.parameters.set (index - 1) value.parameter).map ParameterBinding.value
      = (s.bound.set (index - 1) value).map Zval.value
    rw [map_set, map_set, hs.values, value_parameter]
  · rw [hnext, hbind]

/-- An executed statement refuses a value. -/
theorem not_runsEach_bindValue (hold : s.statement.stmt.handle.stmt.executed = true) (index : ℕ)
    (value : Zval) : ¬RunsEach s (.bindValue index value) := by
  intro hworks
  change (s.statement.bindValue index value).1 = true at hworks
  unfold Statement.bindValue phpMyliteBindZval at hworks
  rw [bindZval_eq, BoundStmt.bind_of_executed hold] at hworks
  split_ifs at hworks

/-- Behind an execution, everything works as long as no value is bound. -/
theorem runsEach_of_executed {calls : List (StatementCall Row)} (hs : s.Bound count)
    (hold : s.statement.stmt.handle.stmt.executed = true)
    (hok : Along next BackendSucceeds s calls) :
    Along next RunsEach s calls ↔ calls.all (fun c => !c.isBindValue) = true := by
  induction calls generalizing s with
  | nil => exact ⟨fun _ => rfl, fun _ => trivial⟩
  | cons c calls ih =>
    rw [all_cons, Bool.and_eq_true]
    cases c with
    | bindValue index value =>
      constructor
      · exact fun hworks => absurd hworks.1 (not_runsEach_bindValue hold index value)
      · exact fun hall => absurd hall.1 Bool.false_ne_true
    | execute conn answer i =>
      obtain ⟨hworks, hbound, hexecuted⟩ := hs.execute hok.1
      exact and_congr (iff_of_true hworks rfl) (ih hbound hexecuted hok.2)
    | fetchAssociative conn i =>
      obtain ⟨hbound, hexecuted⟩ := hs.fetchAssociative hok.1
      exact and_congr (iff_of_true trivial rfl) (ih hbound (hexecuted hold) hok.2)

/-- **`MyLite\Statement`.** Where no call into the backend fails, every value is bound and every
    execution runs with the values last bound exactly if no value is bound behind an execution. -/
theorem runsEach_iff_bindsFirst {conn : Connection Row} {stmt : Stmt} {count : ℕ}
    (hcount : count ≤ uint32Max) {calls : List (StatementCall Row)}
    (hindex : ∀ c ∈ calls, c.HasIndex count)
    (hok : Along next BackendSucceeds (prepared conn stmt count) calls) :
    Along next RunsEach (prepared conn stmt count) calls
      ↔ StatementCall.bindsFirst calls = true := by
  have hbound : (prepared conn stmt count).Bound count := by
    refine ⟨fun hfailed => hfailed, ?_, length_replicate⟩
    show (List.replicate count ParameterBinding.null).map ParameterBinding.value
      = (List.replicate count Zval.null).map Zval.value
    rw [map_replicate, map_replicate]
    rfl
  have hnew : (prepared conn stmt count).statement.stmt.handle.stmt.executed = false
      ∧ (prepared conn stmt count).statement.stepResult = .done := ⟨rfl, rfl⟩
  generalize prepared conn stmt count = s at hok hbound hnew ⊢
  induction calls generalizing s with
  | nil => exact ⟨fun _ => rfl, fun _ => trivial⟩
  | cons c calls ih =>
    rw [forall_mem_cons] at hindex
    cases c with
    | bindValue index value =>
      obtain ⟨hworks, hbound', hnext⟩ :=
        hbound.bindValue hnew.1 hcount value hindex.1.1 hindex.1.2
      refine (and_iff_right hworks).trans (ih hindex.2 _ hok.2 hbound' ?_)
      rw [hnext]
      exact hnew
    | execute conn answer i =>
      obtain ⟨hworks, hbound', hexecuted⟩ := hbound.execute hok.1
      exact (and_iff_right hworks).trans (runsEach_of_executed hbound' hexecuted hok.2)
    | fetchAssociative conn i =>
      obtain ⟨hbound', -⟩ := hbound.fetchAssociative hok.1
      refine (and_iff_right trivial).trans (ih hindex.2 _ hok.2 hbound' ?_)
      have hsame : (s.next (.fetchAssociative conn i)).statement
          = s.statement.onConnection conn := by
        show ((s.statement.onConnection conn).fetchAssociative i).2 = _
        rw [fetchAssociative_of_not_row (s := s.statement.onConnection conn)
          (fun r hr => nomatch hnew.2.symm.trans hr)]
      rw [hsame]
      exact hnew

/-- An `INSERT` with one placeholder, on a connection that is ready. -/
def insertStatement : Scripted ℕ := prepared {} { state := .prepareDone } 1

/-- An execution of it that the server answers with OK. -/
def insertRow : StatementCall ℕ := .execute {} .ok { answers := [.ok] }

theorem runsEach_insertTwice :
    Along next RunsEach insertStatement [.bindValue 1 (.long 7), insertRow, insertRow] := by
  refine (runsEach_iff_bindsFirst (by decide) ?_ ?_).mpr rfl
  · intro c hc
    rcases mem_cons.mp hc with rfl | hc
    · exact ⟨by decide, by decide⟩
    · rcases mem_cons.mp hc with rfl | hc
      · trivial
      · rw [mem_singleton.mp hc]
        trivial
  · exact ⟨trivial, ⟨nofun, fun _ => ⟨rfl, id⟩⟩, ⟨nofun, fun _ => ⟨rfl, id⟩⟩, trivial⟩

/-- A value bound for a second row is refused, although nothing in the backend fails. -/
theorem not_runsEach_insertOther :
    Along next BackendSucceeds insertStatement
        [.bindValue 1 (.long 7), insertRow, .bindValue 1 (.long 8), insertRow]
      ∧ ¬Along next RunsEach insertStatement
        [.bindValue 1 (.long 7), insertRow, .bindValue 1 (.long 8), insertRow] := by
  refine ⟨⟨trivial, ⟨nofun, fun _ => ⟨rfl, id⟩⟩, trivial, ⟨nofun, fun _ => ⟨rfl, id⟩⟩, trivial⟩, ?_⟩
  rintro ⟨-, -, hsecond, -⟩
  exact not_runsEach_bindValue rfl 1 (.long 8) hsecond

end Scripted

end MyLite.Php

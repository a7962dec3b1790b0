import MyLite.Prepared.Columns

namespace MyLite.Prepared

open MyLite.Client MyLite.Sql

/-!
# Parameters of a statement

The values that are bound to the placeholders of a statement, and the values each execution reads.
A value can only be bound to a statement that has not been executed since it was prepared or reset;
`mylite_reset` keeps the values.

* `ParameterBinding` — a parameter, and the value the server reads from it.
* `BoundStmt` — a statement with its parameters and a record of its executions.
* `bind_of_executed`, `bind_of_not_executed` — when a value can be bound.
* `Handle.step_outcome` — a step that does not fail has executed the statement.
-/

/-! ### Values -/

/-- What the server gets for a placeholder.  A `double` is given by its bits. -/
inductive Value
  | null
  | int64 (value : Int64)
  | uint64 (value : UInt64)
  | double (bits : UInt64)
  | text (bytes : Text)
  | blob (bytes : Text)
  deriving DecidableEq

/-- `ParameterBinding`: the member `bind.buffer` points to, with its type. -/
inductive ParameterBinding
  | null
  | int64Value (value : Int64)
  | uint64Value (value : UInt64)
  | doubleValue (bits : UInt64)
  | bytes (isBlob : Bool) (buffer : Text) (length : ℕ)
  deriving DecidableEq

/-- What the server reads through a bind. -/
def ParameterBinding.value : ParameterBinding → Value
  | .null => .null
  | .int64Value value => .int64 value
  | .uint64Value value => .uint64 value
  | .doubleValue bits => .double bits
  | .bytes false buffer length => .text (buffer.take length)
  | .bytes true buffer length => .blob (buffer.take length)

/-- The parameter `bind_bytes` makes of a value; a buffer is never empty. -/
def bytesParameter (isBlob : Bool) (value : Text) : ParameterBinding :=
  .bytes isBlob (if value.isEmpty then [0] else value) value.length

theorem value_bytesParameter (value : Text) : (bytesParameter false value).value = .text value := by
  unfold bytesParameter
  by_cases hempty : value.isEmpty = true
  · rw [List.isEmpty_iff] at hempty
    subst hempty
    rfl
  · rw [if_neg hempty]
    exact congrArg Value.text List.take_length

/-! ### Statements -/

variable {Row : Type}

/-- A statement with its parameters.  `runs` records the values that every `mysql_stmt_execute`
    has read. -/
structure BoundStmt (Row : Type) where
  handle : Handle Row
  parameters : List ParameterBinding
  runs : List (List Value) := []

namespace BoundStmt

variable (s : BoundStmt Row) (index : ℕ) (value : Text)

/-- The check and the assignment that the bind functions share; `false` is `MYLITE_MISUSE`. -/
def bind (parameter : ParameterBinding) : Bool × BoundStmt Row :=
  if index = 0 || s.parameters.length < index || s.handle.stmt.executed then (false, s)
  else (true, { s with parameters := s.parameters.set (index - 1) parameter })

/-- `bind_null_value`, `mylite_bind_null`. -/
def bindNullValue : Bool × BoundStmt Row := s.bind index .null

/-- `mylite_bind_int64`. -/
def bindInt64 (value : Int64) : Bool × BoundStmt Row :=
  s.bind index (.int64Value value)

/-- `mylite_bind_uint64`. -/
def bindUint64 (value : UInt64) : Bool × BoundStmt Row :=
  s.bind index (.uint64Value value)

/-- `mylite_bind_double`. -/
def bindDouble (bits : UInt64) : Bool × BoundStmt Row :=
  s.bind index (.doubleValue bits)

/-- `bind_bytes`. -/
def bindBytes (isBlob : Bool) : Bool × BoundStmt Row :=
  if ulongMax < value.length then (false, s) else s.bind index (bytesParameter isBlob value)

/-- `mylite_bind_text`; a length of `MYLITE_NUL_TERMINATED` asks for the bytes up to the first
    zero. -/
def bindText : Bool × BoundStmt Row :=
  s.bindBytes index (if value.length = ulongMax then value.takeWhile (· != 0) else value) false

/-- `mylite_bind_blob`. -/
def bindBlob : Bool × BoundStmt Row :=
  if value.length = ulongMax then (false, s) else s.bindBytes index value true

end BoundStmt

/-- `mylite_step` comes to `mysql_stmt_execute`. -/
def Handle.sendsExecute (h : Handle Row) (i : StepInput Row) : Bool :=
  !h.stmt.executed && i.bindParameters && (h.initializeStatementResults true i.setup).1.isNone

namespace BoundStmt

/-- What `bind_parameters` makes of the backend's part: a statement without parameters has
    nothing to bind. -/
def stepInput (s : BoundStmt Row) (i : StepInput Row) : StepInput Row :=
  { i with bindParameters := s.parameters.isEmpty || i.bindParameters }

/-- `mylite_step`. -/
def step (s : BoundStmt Row) (i : StepInput Row) : StepResult Row × BoundStmt Row :=
  match s.handle.step (s.stepInput i) with
  | (result, h) =>
    (result, { s with
      handle := h
      runs := if s.handle.sendsExecute (s.stepInput i)
        then s.runs ++ [s.parameters.map ParameterBinding.value] else s.runs })

/-- `mylite_reset`. -/
def reset (s : BoundStmt Row) (answer : Answer Row) : Bool × BoundStmt Row :=
  ((s.handle.reset answer).1, { s with handle := (s.handle.reset answer).2 })

/-- A statement with `count` placeholders as `mylite_prepare` returns it: every parameter is
    `NULL`. -/
def prepared (conn : Connection Row) (stmt : Stmt) (count : ℕ) : BoundStmt Row where
  handle := ⟨conn, { stmt := stmt }⟩
  parameters := List.replicate count .null

/-- The statement on the connection as others have left it. -/
def onConnection (s : BoundStmt Row) (conn : Connection Row) : BoundStmt Row :=
  { s with handle := { s.handle with conn := conn } }

end BoundStmt

/-! ### Steps and resets -/

namespace Handle

variable (h : Handle Row)

theorem executed_endOfRows (storeBind : Bool) :
    (h.endOfRows storeBind).2.stmt.executed = h.stmt.executed := by
  unfold endOfRows drainRemainingStatementResults
  dsimp only
  rcases drainLoop storeBind _ _ with ⟨ok, s⟩
  cases ok with
  | false | true => rfl

/-- A fetch does not touch the flag. -/
theorem executed_fetchStatementRow (i : StepInput Row) :
    (h.fetchStatementRow i).2.stmt.executed = h.stmt.executed := by
  unfold fetchStatementRow
  split_ifs
  · rfl
  · unfold fetchBound
    dsimp only
    rcases Session.stmtFetch _ i.fetch with ⟨fetched, s⟩
    cases fetched with
    | noData => exact executed_endOfRows _ i.storeBind
    | error => rfl
    | row row =>
      unfold rowFetched
      dsimp only
      split_ifs
      · rfl
      · rfl

theorem executionDone_cases (i : Setup) :
    (∃ result h', h.executionDone i = (some result, h') ∧ result.IsFailure)
      ∨ ∃ h', h.executionDone i = (none, h') ∧ h'.stmt.executed = true := by
  unfold executionDone
  dsimp only
  split_ifs
  · rcases setUpResults_cases { h with stmt := { h.stmt with executed := true } } i with
      ⟨result, h', heq, hfail, -⟩ | ⟨h', heq, -, -, hexecuted, -⟩
    · exact .inl ⟨result, h', heq, hfail⟩
    · exact .inr ⟨h', heq, hexecuted⟩
  · exact .inr ⟨_, rfl, rfl⟩

/-- The execution fails, or `mysql_stmt_execute` has been called and the statement counts as
    executed. -/
theorem executeStatement_outcome {h : Handle Row} (hnew : h.stmt.executed = false)
    (i : StepInput Row) :
    (∃ result h', h.executeStatement i = (some result, h') ∧ result.IsFailure)
      ∨ ∃ h', h.executeStatement i = (none, h') ∧ h'.stmt.executed = true
        ∧ h.sendsExecute i = true := by
  unfold executeStatement sendsExecute
  by_cases hbind : i.bindParameters = true
  · rw [if_neg (by rw [hbind]; decide), hnew, hbind]
    rcases hsetup : h.initializeStatementResults true i.setup with ⟨r, h'⟩
    cases r with
    | some result =>
      left
      rcases setUpResults_cases h.releaseStatementResults i.setup with
        ⟨result', g, heq, hfail, -⟩ | ⟨g, heq, -⟩
      · obtain ⟨hr, -⟩ := Prod.mk.inj (heq.symm.trans hsetup)
        exact ⟨result, h', rfl, Option.some.inj hr ▸ hfail⟩
      · exact absurd (Prod.mk.inj (heq.symm.trans hsetup)).1 nofun
    | none =>
      dsimp only
      rcases h'.session.stmtExecute i.answers with ⟨ok, s⟩
      cases ok with
      | false => exact .inl ⟨.error, _, rfl, trivial⟩
      | true =>
        rcases executionDone_cases (h'.withSession s) i.setupAfter with
          ⟨result, g, heq, hfail⟩ | ⟨g, heq, hexecuted⟩
        · exact .inl ⟨result, g, heq, hfail⟩
        · exact .inr ⟨g, heq, hexecuted, rfl⟩
  · rw [if_pos (by rw [Bool.eq_false_iff.mpr hbind]; rfl)]
    exact .inl ⟨.error, _, rfl, trivial⟩

/-- Only a reset makes an executed statement ready for another execution. -/
theorem executed_step {h : Handle Row} (hold : h.stmt.executed = true)
    (i : StepInput Row) : (h.step i).2.stmt.executed = true := by
  unfold step
  rw [if_pos hold]
  dsimp only
  split_ifs
  · exact (executed_fetchStatementRow h i).trans hold
  · exact hold

/-- Behind a step that does not fail the statement is executed, and if it was not before, the
    step has executed it. -/
theorem step_outcome (i : StepInput Row) (hok : ¬(h.step i).1.IsFailure) :
    (h.step i).2.stmt.executed = true ∧ (h.stmt.executed = false → h.sendsExecute i = true) := by
  by_cases hold : h.stmt.executed = true
  · exact ⟨executed_step hold i, fun hnew => absurd (hnew.symm.trans hold) Bool.false_ne_true⟩
  · unfold step at hok ⊢
    rw [if_neg hold] at hok ⊢
    rcases executeStatement_outcome (Bool.eq_false_iff.mpr hold) i with
      ⟨result, h', heq, hfail⟩ | ⟨h', heq, hexecuted, hsends⟩
    · rw [heq] at hok
      exact absurd hfail hok
    · rw [heq]
      dsimp only
      refine ⟨?_, fun _ => hsends⟩
      split_ifs
      · exact (executed_fetchStatementRow h' i).trans hexecuted
      · exact hexecuted

/-- A reset drops the result, and where it succeeds it clears the flag. -/
theorem reset_leaves (answer : Answer Row) :
    (h.reset answer).2.stmt.executed = (h.stmt.executed && !(h.reset answer).1)
      ∧ (h.reset answer).2.stmt.hasResult = false := by
  have hrelease : h.releaseStatementResults.stmt.executed = h.stmt.executed
      ∧ h.releaseStatementResults.stmt.hasResult = false := by
    unfold releaseStatementResults
    dsimp only
    split_ifs
    · exact ⟨rfl, rfl⟩
    · exact ⟨rfl, rfl⟩
  unfold reset
  dsimp only
  rcases h.releaseStatementResults.session.stmtReset answer with ⟨ok, s⟩
  cases ok with
  | false => exact ⟨hrelease.1.trans (Bool.and_true _).symm, hrelease.2⟩
  | true => exact ⟨(Bool.and_false _).symm, rfl⟩

/-- A reset that succeeds makes the statement ready for other values. -/
theorem executed_reset {h : Handle Row} {answer : Answer Row}
    (hok : (h.reset answer).1 = true) : (h.reset answer).2.stmt.executed = false := by
  rw [(reset_leaves h answer).1, hok]
  exact Bool.and_false _

end Handle

namespace BoundStmt

/-- The statement with other values. -/
def withParameters (s : BoundStmt Row) (parameters : List ParameterBinding) : BoundStmt Row :=
  { s with parameters := parameters }

/-- `mylite_clear_bindings`, on values. -/
def clearBindings (t : BoundStmt Row) : Bool × BoundStmt Row :=
  if t.handle.stmt.executed then (false, t)
  else (true, t.withParameters (List.replicate t.parameters.length .null))

/-- What a step returns does not depend on the values, only on whether there are any. -/
theorem result_step_withParameters {s : BoundStmt Row} {parameters : List ParameterBinding}
    (h : parameters.length = s.parameters.length) (i : StepInput Row) :
    ((s.withParameters parameters).step i).1 = (s.step i).1 := by
  have hempty : parameters.isEmpty = s.parameters.isEmpty := by
    rw [Bool.eq_iff_iff, List.isEmpty_iff_length_eq_zero, List.isEmpty_iff_length_eq_zero, h]
  have hinput : (s.withParameters parameters).stepInput i = s.stepInput i := by
    unfold stepInput withParameters
    rw [hempty]
  show (s.handle.step ((s.withParameters parameters).stepInput i)).1 = _
  rw [hinput]
  rfl

/-- A step that does not fail runs a statement that has not been executed. -/
theorem runs_step {s : BoundStmt Row} (hnew : s.handle.stmt.executed = false)
    {i : StepInput Row} (hok : ¬(s.step i).1.IsFailure) :
    (s.step i).2.runs = s.runs ++ [s.parameters.map ParameterBinding.value]
      ∧ (s.step i).2.handle.stmt.executed = true := by
  obtain ⟨hexecuted, hsends⟩ := Handle.step_outcome s.handle (s.stepInput i) hok
  refine ⟨?_, hexecuted⟩
  show (if s.handle.sendsExecute (s.stepInput i) then _ else _) = _
  rw [if_pos (hsends hnew)]

/-! ### Binding -/

theorem bind_of_executed {s : BoundStmt Row} (h : s.handle.stmt.executed = true) (index : ℕ)
    (parameter : ParameterBinding) : s.bind index parameter = (false, s) := by
  unfold bind
  rw [h, Bool.or_true, if_pos rfl]

theorem bind_of_not_executed {s : BoundStmt Row} (h : s.handle.stmt.executed = false) {index : ℕ}
    (hpos : 0 < index) (hle : index ≤ s.parameters.length) (parameter : ParameterBinding) :
    s.bind index parameter
      = (true, s.withParameters (s.parameters.set (index - 1) parameter)) := by
  unfold bind
  have hzero : index ≠ 0 := by omega
  have hlt : ¬s.parameters.length < index := by omega
  rw [if_neg (by simp [h, hzero, hlt])]
  rfl

end BoundStmt

end MyLite.Prepared

import MyLite.Lib.Run
import MyLite.Prepared.Buffers

namespace MyLite.Prepared

open MyLite.Client MyLite.Lib MyLite.Sql

/-!
# What a caller reads from a row

One statement is stepped and reset in any order; other statements may use its connection in
between, so every call starts from some connection, and the backend fails wherever it likes.  An
observer notes the row that the last step returned.

* `Watched.call` — a call, with the observer's note.
* `reads_of_run` — behind `MYLITE_ROW` the accessors give the whole row.
* `KeepsFetching` — no fetch fails while a row can be read.
* `live_of_run` — under these calls, a value that is read belongs to the row of the last step.
-/

/-- The calls on one statement, with the connection they find. -/
inductive ValueCall
  | step (conn : Connection Row) (i : StepInput Row) (j : ColumnInput)
  | reset (conn : Connection Row) (answer : Answer Row)

namespace ValueHandle

/-- The statement on the connection as others have left it. -/
def onConnection (h : ValueHandle) (conn : Connection Row) : ValueHandle :=
  { h with handle := { h.handle with conn := conn } }

/-- A statement as `mylite_prepare` returns it. -/
def prepared (conn : Connection Row) (stmt : Stmt) : ValueHandle := ⟨⟨conn, { stmt := stmt }⟩, {}⟩

/-- `mylite_column_count` of a statement that has columns. -/
def columnCount (h : ValueHandle) : ℕ := h.cols.columns.length

/-- Some accessor gives a value other than `NULL` or zero for a column. -/
def Yields (h : ValueHandle) (column : ℕ) : Prop :=
  h.columnBlob column ≠ none ∨ h.columnText column ≠ none ∨ h.columnBytes column ≠ 0
    ∨ ∃ (α : Type) (_ : Zero α) (parse : Text → α), h.columnNumber parse column ≠ 0

/-- Every accessor gives the value `value` for a column. -/
structure Reads (h : ValueHandle) (column : ℕ) (value : Text) : Prop where
  blob : ∃ bytes, h.columnBlob column = some bytes ∧ bytes.take value.length = value
    ∧ bytes[value.length]? = some 0
  bytes : h.columnBytes column = value.length
  text : h.columnText column = some (value.takeWhile (· != 0))
  number : ∀ (α : Type) [Zero α] (parse : Text → α),
    h.columnNumber parse column = parse (value.takeWhile (· != 0))

/-! ### The invariant -/

/-- What the flags of a statement say about its columns. -/
structure Ready (h : ValueHandle) : Prop where
  sound : h.handle.stmt.hasResult = true → h.cols.Sound
  registered : h.handle.stmt.hasResult = true → h.handle.stmt.resultBindsDirty = false →
    h.cols.Registered
  executed : h.handle.stmt.hasRow = true →
    h.handle.stmt.executed = true ∧ h.handle.stmt.hasResult = true

/-- The buffers have the values of a row. -/
def Shows (h : ValueHandle) (row : Row) : Prop :=
  ∀ n c, h.cols.columns[n]? = some c → Terminated h.cols.memory c (row n)

theorem ready_prepared (conn : Connection Row) (stmt : Stmt) : (prepared conn stmt).Ready :=
  ⟨nofun, nofun, nofun⟩

/-- The result of a part of `mylite_step` that leaves no row behind. -/
structure Idle (r : Option (StepResult Row) × ValueHandle) : Prop where
  ready : r.2.Ready
  hasRow : r.2.handle.stmt.hasRow = false
  result : ∀ row, r.1 ≠ some (.row row)

/-- The result of a fetch: a row that is returned can be read. -/
structure Delivered (r : StepResult Row × ValueHandle) : Prop where
  ready : r.2.Ready
  shows : ∀ row, r.1 = .row row → r.2.handle.stmt.hasRow = true ∧ r.2.Shows row

variable {h : ValueHandle} {r : Option (StepResult Row)}

theorem idle_of_no_result (hresult : h.handle.stmt.hasResult = false)
    (hrow : h.handle.stmt.hasRow = false) (hr : ∀ row, r ≠ some (.row row)) : Idle (r, h) := by
  refine ⟨⟨fun h' => ?_, fun h' => ?_, fun h' => ?_⟩, hrow, hr⟩
  · cases hresult.symm.trans h'
  · cases hresult.symm.trans h'
  · cases hrow.symm.trans h'

theorem setUpResults_idle (hresult : h.handle.stmt.hasResult = false)
    (hrow : h.handle.stmt.hasRow = false) (i : Setup) (fields : List ℕ) (allocated : ℕ) :
    Idle (h.setUpResults i fields allocated) := by
  unfold setUpResults Handle.setUpResults
  split_ifs with hfields hmetadata hbuffers hbind
  · exact idle_of_no_result rfl hrow nofun
  · exact idle_of_no_result hresult hrow nofun
  · exact idle_of_no_result hresult hrow nofun
  · exact idle_of_no_result hresult hrow nofun
  · have hcols : h.cols.setUp h.handle.stmt.stmt.hasFields i fields allocated
        = (h.cols.configure fields).register := by
      unfold Columns.setUp
      simp [hfields, hmetadata, hbuffers, hbind]
    refine ⟨⟨fun _ => ?_, fun _ _ => ?_, fun h' => absurd (hrow.symm.trans h') Bool.false_ne_true⟩,
      hrow, nofun⟩
    · show (h.cols.setUp _ i fields allocated).Sound
      rw [hcols]
      exact (Columns.Sound.configure h.cols fields).register
    · show (h.cols.setUp _ i fields allocated).Registered
      rw [hcols]
      exact Columns.registered_register _

theorem setUpResults_executed (h : ValueHandle) (i : Setup) (fields : List ℕ) (allocated : ℕ) :
    (h.setUpResults i fields allocated).2.handle.stmt.executed = h.handle.stmt.executed := by
  unfold setUpResults Handle.setUpResults
  split_ifs
  · rfl
  · rfl
  · rfl
  · rfl
  · rfl

/-- A call into the client library leaves the flags and the columns alone. -/
theorem Idle.withSession (hidle : Idle (r, h)) (s : Session Row) (r' : Option (StepResult Row))
    (hr : ∀ row, r' ≠ some (.row row)) : Idle (r', h.withSession s) :=
  ⟨⟨hidle.ready.sound, hidle.ready.registered, hidle.ready.executed⟩, hidle.hasRow, hr⟩

theorem executionDone_idle (hidle : Idle (r, h)) (i : Setup) (fields : List ℕ) (allocated : ℕ) :
    Idle (h.executionDone i fields allocated)
      ∧ (h.executionDone i fields allocated).2.handle.stmt.executed = true := by
  unfold executionDone
  simp only []
  split_ifs with hnew
  · rw [Bool.and_eq_true, Bool.not_eq_true'] at hnew
    set h' : ValueHandle :=
      ⟨{ h.handle with stmt := { h.handle.stmt with executed := true } }, h.cols⟩
    exact ⟨setUpResults_idle (h := h') hnew.1 hidle.hasRow i fields allocated,
      setUpResults_executed h' i fields allocated⟩
  · refine ⟨⟨⟨hidle.ready.sound, hidle.ready.registered, fun hrow => ?_⟩, hidle.hasRow, nofun⟩, rfl⟩
    cases hidle.hasRow.symm.trans hrow

/-- The execution leaves no row behind. -/
theorem executeStatement_idle (hready : h.Ready) (hrow : h.handle.stmt.hasRow = false)
    (i : StepInput Row) (j : ColumnInput) :
    Idle (h.executeStatement i j) ∧ ((h.executeStatement i j).1 = none →
      (h.executeStatement i j).2.handle.stmt.executed = true) := by
  unfold executeStatement
  split_ifs with hparameters
  · exact ⟨⟨⟨hready.sound, hready.registered, hready.executed⟩, hrow, nofun⟩, nofun⟩
  · have hsetup : Idle (h.initializeStatementResults true i.setup j.fields j.allocated) :=
      setUpResults_idle (h := h.releaseStatementResults) rfl rfl i.setup j.fields j.allocated
    generalize h.initializeStatementResults true i.setup j.fields j.allocated = p at hsetup ⊢
    obtain ⟨r, h'⟩ := p
    cases r with
    | some result => exact ⟨hsetup, nofun⟩
    | none =>
      dsimp only
      rcases h'.handle.session.stmtExecute i.answers with ⟨ok, s⟩
      cases ok with
      | false => exact ⟨hsetup.withSession s (some .error) nofun, nofun⟩
      | true =>
        obtain ⟨hidle, hexecuted⟩ := executionDone_idle (hsetup.withSession s none nofun)
          i.setupAfter j.fieldsAfter j.allocated
        exact ⟨hidle, fun _ => hexecuted⟩

/-- What `mylite_step` has reached right before the fetch: a result set, on the statement as it
    was unless it has just been executed. -/
structure AtFetch (h h' : ValueHandle) : Prop where
  ready : h'.Ready
  executed : h'.handle.stmt.executed = true
  hasResult : h'.handle.stmt.hasResult = true
  same : h'.handle.stmt.hasRow = true → h' = h

theorem beforeFetch_spec (hready : h.Ready) (i : StepInput Row) (j : ColumnInput) :
    (∃ h', h.beforeFetch i j = (none, h') ∧ AtFetch h h')
      ∨ ∃ r h', h.beforeFetch i j = (some r, h') ∧ Idle (some r, h') := by
  unfold beforeFetch
  by_cases hexecuted : h.handle.stmt.executed = true
  · rw [if_pos hexecuted]
    by_cases hresult : h.handle.stmt.hasResult = true
    · exact .inl ⟨h, if_pos hresult, hready, hexecuted, hresult, fun _ => rfl⟩
    · refine .inr ⟨.done, h, if_neg hresult, hready, ?_, nofun⟩
      exact Bool.eq_false_iff.mpr fun hrow => hresult (hready.executed hrow).2
  · rw [if_neg hexecuted]
    have hrow : h.handle.stmt.hasRow = false :=
      Bool.eq_false_iff.mpr fun hrow => hexecuted (hready.executed hrow).1
    obtain ⟨hidle, hdone⟩ := executeStatement_idle hready hrow i j
    generalize h.executeStatement i j = p at hidle hdone ⊢
    obtain ⟨r, h'⟩ := p
    cases r with
    | some result => exact .inr ⟨result, h', rfl, hidle⟩
    | none =>
      by_cases hresult : h'.handle.stmt.hasResult = true
      · refine .inl ⟨h', if_pos hresult, hidle.ready, hdone rfl, hresult, fun hrow' => ?_⟩
        cases hidle.hasRow.symm.trans hrow'
      · exact .inr ⟨.done, h', if_neg hresult, hidle.ready, hidle.hasRow, nofun⟩

/-! ### The fetch -/

/-- The client library has the buffers of the columns when it fetches. -/
theorem refreshed_sound (hready : h.Ready) (hresult : h.handle.stmt.hasResult = true) :
    h.refreshed.cols.Sound ∧ h.refreshed.cols.Registered := by
  unfold refreshed
  by_cases hdirty : h.handle.stmt.resultBindsDirty = true
  · simp only [if_pos hdirty]
    exact ⟨(hready.sound hresult).refresh, Columns.registered_refresh h.cols⟩
  · simp only [if_neg hdirty]
    exact ⟨hready.sound hresult, hready.registered hresult (Bool.eq_false_iff.mpr hdirty)⟩

/-- A row that is returned can be read. -/
theorem rowFetched_ready {row : Row} (hsound : h.cols.Sound) (hreg : h.cols.Registered)
    (hfetched : ∀ n c, h.cols.columns[n]? = some c → Fetched h.cols.memory c (row n))
    (hexecuted : h.handle.stmt.executed = true) (hresult : h.handle.stmt.hasResult = true)
    (j : ColumnInput) : Delivered (h.rowFetched j row) := by
  unfold rowFetched
  have hgrown := hsound.readAgain row j.fetchColumn
  have hdirty : ∀ {dirty}, (dirty || (h.cols.readAgain row j.fetchColumn).grown) = false →
      (h.cols.readAgain row j.fetchColumn).grown = false := fun h' => (Bool.or_eq_false_iff.mp h').2
  simp only []
  split_ifs with hok
  · refine ⟨⟨fun _ => hgrown.terminateAll, fun _ h' => hreg.readAgain (hdirty h'),
      fun _ => ⟨hexecuted, hresult⟩⟩, fun row' heq => ⟨rfl, fun n c hc => ?_⟩⟩
    obtain rfl : row = row' := StepResult.row.inj heq
    exact Columns.terminated_of_terminateAll hgrown (List.mem_of_getElem? hc)
      (Columns.holds_of_readAgain hsound hfetched hok hc)
  · exact ⟨⟨fun _ => hgrown, fun _ h' => hreg.readAgain (hdirty h'),
      fun _ => ⟨hexecuted, hresult⟩⟩, nofun⟩

/-- The end of the rows leaves no row behind. -/
theorem endOfRows_flags (h : Handle Row) (storeBind : Bool) :
    (h.endOfRows storeBind).2.stmt.hasRow = false
      ∧ (h.endOfRows storeBind).2.stmt.resultBindsDirty = h.stmt.resultBindsDirty
      ∧ ((h.endOfRows storeBind).2.stmt.hasResult = true → h.stmt.hasResult = true)
      ∧ ∀ row, (h.endOfRows storeBind).1 ≠ .row row := by
  unfold Handle.endOfRows Handle.drainRemainingStatementResults
  dsimp only
  rcases Handle.drainLoop storeBind _ _ with ⟨ok, s⟩
  cases ok with
  | false => exact ⟨rfl, rfl, id, nofun⟩
  | true => exact ⟨rfl, rfl, nofun, nofun⟩

theorem fetchBound_ready (hsound : h.cols.Sound) (hreg : h.cols.Registered)
    (hexecuted : h.handle.stmt.executed = true) (hresult : h.handle.stmt.hasResult = true)
    (i : StepInput Row) (j : ColumnInput) : Delivered (h.fetchBound i j) := by
  unfold fetchBound
  rcases h.handle.session.stmtFetch i.fetch with ⟨fetched, s⟩
  cases fetched with
  | noData =>
    obtain ⟨hrow, -, -, hnot⟩ := endOfRows_flags (h.handle.withSession s) i.storeBind
    exact ⟨⟨fun _ => hsound, fun _ _ => hreg,
      fun h' => absurd (hrow.symm.trans h') Bool.false_ne_true⟩, fun row h' => absurd h' (hnot row)⟩
  | error => exact ⟨⟨fun _ => hsound, fun _ _ => hreg, fun _ => ⟨hexecuted, hresult⟩⟩, nofun⟩
  | row row =>
    exact rowFetched_ready (h := ⟨h.handle.withSession s, h.cols.fetch row⟩)
      (hsound.fetch hreg row) (hreg.fetch row)
      (fun n c hc => Columns.fetched_of_fetch hsound hreg row hc) hexecuted hresult j

theorem fetchStatementRow_ready (hready : h.Ready) (hexecuted : h.handle.stmt.executed = true)
    (hresult : h.handle.stmt.hasResult = true) (i : StepInput Row) (j : ColumnInput) :
    Delivered (h.fetchStatementRow i j) := by
  unfold fetchStatementRow
  split_ifs
  · exact ⟨⟨hready.sound, hready.registered, hready.executed⟩, nofun⟩
  · obtain ⟨hsound, hreg⟩ := refreshed_sound hready hresult
    exact fetchBound_ready hsound hreg hexecuted hresult i j

/-! ### Calls -/

/-- **Step lemma.** A step keeps the invariant, and a row it returns can be read. -/
theorem step_ready (hready : h.Ready) (i : StepInput Row) (j : ColumnInput) :
    Delivered (h.step i j) := by
  unfold step
  rcases beforeFetch_spec hready i j with ⟨h', heq, hfetch⟩ | ⟨r, h', heq, hidle⟩
  · rw [heq]
    exact fetchStatementRow_ready hfetch.ready hfetch.executed hfetch.hasResult i j
  · rw [heq]
    exact ⟨hidle.ready, fun row h' => absurd (congrArg some h') (hidle.result row)⟩

end ValueHandle

/-- Behind a reset there is neither a result nor a row. -/
theorem Handle.reset_flags (h : Handle Row) (answer : Answer Row) :
    (h.reset answer).2.stmt.hasResult = false ∧ (h.reset answer).2.stmt.hasRow = false := by
  unfold Handle.reset
  dsimp only
  rcases h.releaseStatementResults.session.stmtReset answer with ⟨ok, s⟩
  cases ok with
  | false | true => exact ⟨rfl, rfl⟩

namespace ValueHandle

theorem reset_idle (h : ValueHandle) (answer : Answer Row) :
    (h.reset answer).2.Ready ∧ (h.reset answer).2.handle.stmt.hasRow = false := by
  obtain ⟨hresult, hrow⟩ := h.handle.reset_flags answer
  have hidle : Idle (none, (h.reset answer).2) := idle_of_no_result hresult hrow nofun
  exact ⟨hidle.ready, hidle.hasRow⟩

/-! ### Accessors -/

variable {h : ValueHandle} {column : ℕ}

/-- An accessor that gives a value has a row with a column that is not `NULL`. -/
theorem exists_of_yields (hyields : h.Yields column) :
    h.handle.stmt.hasRow = true ∧ ∃ c, h.cols.columns[column]? = some c ∧ c.isNull = false := by
  have hvalue : h.valueAt column ≠ none := by
    intro hnone
    have hblob : h.columnBlob column = none := by rw [columnBlob, hnone]; rfl
    have htext : h.columnText column = none := by rw [columnText, hblob]; rfl
    rcases hyields with hy | hy | hy | ⟨α, _, parse, hy⟩
    · exact hy hblob
    · exact hy htext
    · exact hy (by rw [columnBytes, hnone]; rfl)
    · exact hy (by rw [columnNumber, htext]; rfl)
  unfold valueAt valueColumnAt at hvalue
  by_cases hrow : h.handle.stmt.hasRow = true
  · rw [if_pos hrow] at hvalue
    cases hc : h.cols.columns[column]? with
    | none => exact absurd (by rw [hc]) hvalue
    | some c =>
      refine ⟨hrow, c, rfl, ?_⟩
      by_contra hnull
      rw [hc] at hvalue
      exact hvalue (if_pos (Bool.not_eq_false _ ▸ hnull))
  · rw [if_neg hrow] at hvalue
    exact absurd rfl hvalue

/-- A string ends at its first zero byte, be it part of the value or the byte behind it. -/
theorem takeWhile_eq_of_terminated {bytes value : Text} (htake : bytes.take value.length = value)
    (hzero : bytes[value.length]? = some 0) :
    bytes.takeWhile (· != 0) = value.takeWhile (· != 0) := by
  obtain ⟨hlt, hget⟩ := List.getElem?_eq_some_iff.mp hzero
  have hsplit : bytes = value ++ 0 :: bytes.drop (value.length + 1) := by
    conv_lhs => rw [← List.take_append_drop value.length bytes, htake,
      List.drop_eq_getElem_cons hlt,
      hget]
  rw [hsplit, List.takeWhile_append]
  split_ifs with hall
  · have hself : value.takeWhile (· != 0) = value :=
      (List.takeWhile_prefix _).eq_of_length hall
    rw [hself, List.takeWhile_cons_of_neg (by decide), List.append_nil]
  · rfl

/-- A column that has its value and a zero byte is read as it is. -/
theorem reads_of_terminated {c : ResultColumn} {value : Text} (hrow : h.handle.stmt.hasRow = true)
    (hc : h.cols.columns[column]? = some c) (hterm : Terminated h.cols.memory c (some value)) :
    h.Reads column value := by
  obtain ⟨hnull, hlength, htake, hzero⟩ := hterm
  have hvalue : h.valueAt column = some (c, h.cols.memory c.buffer) := by
    unfold valueAt valueColumnAt
    rw [if_pos hrow, hc]
    exact if_neg (Bool.eq_false_iff.mp hnull)
  have hblob : h.columnBlob column = some (h.cols.memory c.buffer) := by
    rw [columnBlob, hvalue]
    rfl
  have htext : h.columnText column = some (value.takeWhile (· != 0)) := by
    rw [columnText, hblob, ← takeWhile_eq_of_terminated htake hzero]
    rfl
  refine ⟨⟨_, hblob, htake, hzero⟩, ?_, htext, fun α _ parse => ?_⟩
  · rw [columnBytes, hvalue]
    exact hlength
  · rw [columnNumber, htext]
    rfl

/-- The accessors give the values of the row that the buffers have. -/
theorem Shows.reads {row : Row} (hshows : h.Shows row) (hyields : h.Yields column) :
    ∃ value, row column = some value ∧ h.Reads column value := by
  obtain ⟨hrow, c, hc, hnull⟩ := exists_of_yields hyields
  have hterm := hshows column c hc
  cases hvalue : row column with
  | none =>
    rw [hvalue] at hterm
    cases hnull.symm.trans hterm
  | some value =>
    rw [hvalue] at hterm
    exact ⟨value, rfl, reads_of_terminated hrow hc hterm⟩

end ValueHandle

/-! ### Runs -/

/-- A statement, and the row its last call returned. -/
structure Watched where
  value : ValueHandle
  live : Option Row := none

/-- The row a step returned. -/
def StepResult.liveRow : StepResult Row → Option Row
  | .row r => some r
  | _ => none

namespace Watched

/-- A call, with the observer's note. -/
def call (w : Watched) : ValueCall → Watched
  | .step conn i j =>
    match (w.value.onConnection conn).step i j with
    | (result, h) => ⟨h, result.liveRow⟩
  | .reset conn answer => ⟨((w.value.onConnection conn).reset answer).2, none⟩

/-- The invariant of a run: the row of the last step is in the buffers. -/
structure Faithful (w : Watched) : Prop where
  ready : w.value.Ready
  shows : ∀ row, w.live = some row → w.value.handle.stmt.hasRow = true ∧ w.value.Shows row

theorem ready_onConnection {h : ValueHandle} (hready : h.Ready) (conn : Connection Row) :
    (h.onConnection conn).Ready :=
  ⟨hready.sound, hready.registered, hready.executed⟩

theorem faithful_start (conn : Connection Row) (stmt : Stmt) :
    Faithful { value := .prepared conn stmt } :=
  ⟨ValueHandle.ready_prepared conn stmt, nofun⟩

/-- **Step lemma.** -/
theorem Faithful.call {w : Watched} (hw : w.Faithful) (c : ValueCall) :
    (w.call c).Faithful := by
  cases c with
  | step conn i j =>
    obtain ⟨hready, hshows⟩ := ValueHandle.step_ready (ready_onConnection hw.ready conn) i j
    refine ⟨hready, fun row hlive => hshows row ?_⟩
    change ((w.value.onConnection conn).step i j).1.liveRow = some row at hlive
    cases hresult : ((w.value.onConnection conn).step i j).1 with
    | row row' =>
      rw [hresult] at hlive
      rw [Option.some.inj hlive]
    | done | error | nomem => rw [hresult] at hlive; cases hlive
  | reset conn answer =>
    exact ⟨(ValueHandle.reset_idle _ answer).1, nofun⟩

theorem faithful_of_run {conn : Connection Row} {stmt : Stmt} {calls : List ValueCall}
    {w : Watched} (hrun : Run (ofFun call) { value := .prepared conn stmt } calls w) :
    w.Faithful :=
  hrun.invariant Faithful (faithful_start conn stmt) fun hw heq => heq ▸ hw.call _

/-- **Binary-safe values.** Whenever a step has returned a row, every accessor gives the whole
    value of a column and finds a zero byte behind it; and whenever a step comes to fetch, the
    client library has the buffers of the columns, with the capacity they have. -/
theorem reads_of_run {conn : Connection Row} {stmt : Stmt} {calls : List ValueCall}
    {w : Watched} (hrun : Run (ofFun call) { value := .prepared conn stmt } calls w) :
    (∀ row, w.live = some row → ∀ column < w.value.columnCount,
      (row column = none → ¬w.value.Yields column)
        ∧ ∀ value, row column = some value → w.value.Reads column value)
    ∧ ∀ conn' i j h, (w.value.onConnection conn').beforeFetch i j = (none, h) →
      ∀ c ∈ h.refreshed.cols.columns, c.registered = ⟨c.buffer, c.bind.capacity⟩
        ∧ (h.refreshed.cols.memory c.buffer).length = c.bind.capacity + 1 := by
  have hfaithful := faithful_of_run hrun
  constructor
  · intro row hlive column hcolumn
    obtain ⟨hrow, hshows⟩ := hfaithful.shows row hlive
    constructor
    · intro hnull hyields
      obtain ⟨value, hvalue, -⟩ := hshows.reads hyields
      cases hnull.symm.trans hvalue
    · intro value hvalue
      have hc := List.getElem?_eq_getElem hcolumn
      exact ValueHandle.reads_of_terminated hrow hc (hvalue ▸ hshows column _ hc)
  · intro conn' i j h heq c hc
    rcases ValueHandle.beforeFetch_spec (ready_onConnection hfaithful.ready conn') i j with
      ⟨h', heq', hfetch⟩ | ⟨r, h', heq', -⟩
    · obtain rfl : h' = h := (Prod.mk.inj (heq'.symm.trans heq)).2
      obtain ⟨hsound, hreg⟩ := ValueHandle.refreshed_sound hfetch.ready hfetch.hasResult
      have hmatched := hsound.matched c hc
      refine ⟨?_, hmatched.length⟩
      rw [hreg c hc, hmatched.resultBind, ← hmatched.buffer]
    · exact absurd (Prod.mk.inj (heq'.symm.trans heq)).1 nofun

/-- A `SELECT` with columns of the given declared lengths, executed and stepped once. -/
def selected (fields : List ℕ) (rows : List Row) : Watched :=
  call { value := .prepared {} { state := .prepareDone, hasFields := true } }
    (.step {} { answers := [.rows rows false] } { fields := fields })

/-- A value with a zero byte that is longer than its column. -/
theorem reads_of_longValue :
    (selected [1] [fun _ => some [97, 0, 98]]).value.Reads 0 [97, 0, 98] := by
  have hrun : Run (ofFun call)
      { value := .prepared {} { state := .prepareDone, hasFields := true } }
      [.step {} { answers := [.rows [fun _ => some [97, 0, 98]] false] } { fields := [1] }]
      (selected [1] [fun _ => some [97, 0, 98]]) := .cons rfl (.nil _)
  have hcount : 0 < (selected [1] [fun _ => some [97, 0, 98]]).value.columnCount := by decide
  exact ((reads_of_run hrun).1 _ rfl 0 hcount).2 _ rfl

end Watched

/-! ### Values and live rows -/

namespace ValueHandle

/-- The fetch of a call does not fail: the binds are refreshed where they are dirty, the client
    library reads a row or the end of the rows, and a value that does not fit its buffer can be
    read again. -/
def FetchSucceeds (h : ValueHandle) (i : StepInput Row) (j : ColumnInput) : Prop :=
  (h.handle.stmt.resultBindsDirty = true → i.refreshBinds = true)
    ∧ (h.handle.session.stmtFetch i.fetch).1 ≠ .error
    ∧ ∀ row, (h.handle.session.stmtFetch i.fetch).1 = .row row →
      ∀ n c value, h.cols.columns[n]? = some c → row n = some value →
        c.bind.capacity < value.length → value.length ≠ ulongMax ∧ j.fetchColumn n = true

theorem refreshed_shape (h : ValueHandle) :
    h.refreshed.cols.columns.map Columns.shape = h.cols.columns.map Columns.shape := by
  unfold refreshed
  by_cases hdirty : h.handle.stmt.resultBindsDirty = true
  · simp only [if_pos hdirty, Columns.refresh, List.map_map]
    rfl
  · simp only [if_neg hdirty]

variable {h : ValueHandle}

/-- The binds are those of the columns before the fetch. -/
theorem bind_of_fetched {row : Row} {n : ℕ} {c : ResultColumn}
    (hc : (h.refreshed.cols.fetch row).columns[n]? = some c) :
    ∃ d, h.cols.columns[n]? = some d ∧ d.bind = c.bind := by
  have hshape : (h.refreshed.cols.fetch row).columns.map Columns.shape
      = h.cols.columns.map Columns.shape :=
    (Columns.map_shape_mapIdx (Columns.shape_fetchedColumn row)).trans (refreshed_shape h)
  have hget := congrArg (fun l => l[n]?) hshape
  simp only [List.getElem?_map, hc, Option.map_some] at hget
  obtain ⟨d, hd, heq⟩ := Option.map_eq_some_iff.mp hget.symm
  exact ⟨d, hd, congrArg (fun s => s.2.1) heq⟩

variable {j : ColumnInput}

theorem rowFetched_live {row : Row}
    (hok : h.handle.stmt.hasRow = true → (h.cols.readAgain row j.fetchColumn).ok = true)
    (hrow : (h.rowFetched j row).2.handle.stmt.hasRow = true) :
    (h.rowFetched j row).1 = .row row := by
  unfold rowFetched at hrow ⊢
  by_cases h' : (h.cols.readAgain row j.fetchColumn).ok = true
  · simp only [if_pos h']
  · simp only [if_neg h'] at hrow
    exact absurd (hok hrow) h'

/-- A row that can be read behind a fetch is the one the fetch returned. -/
theorem fetchStatementRow_live (hready : h.Ready) (hresult : h.handle.stmt.hasResult = true)
    {i : StepInput Row} (hsucceeds : h.handle.stmt.hasRow = true → h.FetchSucceeds i j)
    (hrow : (h.fetchStatementRow i j).2.handle.stmt.hasRow = true) :
    ∃ row, (h.fetchStatementRow i j).1 = .row row := by
  unfold fetchStatementRow at hrow ⊢
  by_cases hrefresh : (h.handle.stmt.resultBindsDirty && !i.refreshBinds) = true
  · rw [if_pos hrefresh] at hrow
    rw [Bool.and_eq_true, Bool.not_eq_true'] at hrefresh
    have := (hsucceeds hrow).1 hrefresh.1
    cases hrefresh.2.symm.trans this
  · rw [if_neg hrefresh] at hrow ⊢
    have hsession : h.refreshed.handle.session = h.handle.session := rfl
    unfold fetchBound at hrow ⊢
    rw [hsession] at hrow ⊢
    rcases hfetch : h.handle.session.stmtFetch i.fetch with ⟨fetched, s⟩
    simp only [hfetch] at hrow ⊢
    cases fetched with
    | noData =>
      have hnot := (endOfRows_flags (h.refreshed.handle.withSession s) i.storeBind).1
      cases hnot.symm.trans hrow
    | error => exact absurd (congrArg Prod.fst hfetch) (hsucceeds hrow).2.1
    | row row =>
      refine ⟨row, rowFetched_live (fun hrow' => ?_) hrow⟩
      obtain ⟨hsound, hreg⟩ := refreshed_sound hready hresult
      refine Columns.readAgain_ok (fun n c hc => Columns.fetched_of_fetch hsound hreg row hc) ?_
      intro n c value hc hvalue hlt
      obtain ⟨d, hd, hbind⟩ := bind_of_fetched hc
      exact (hsucceeds hrow').2.2 row (congrArg Prod.fst hfetch) n d value hd hvalue
        (hbind.symm ▸ hlt)

/-- **Step lemma.** A row that can be read behind a step is the one the step returned. -/
theorem step_live (hready : h.Ready) {i : StepInput Row}
    (hsucceeds : h.handle.stmt.hasRow = true → h.FetchSucceeds i j)
    (hrow : (h.step i j).2.handle.stmt.hasRow = true) : ∃ row, (h.step i j).1 = .row row := by
  unfold step at hrow ⊢
  rcases beforeFetch_spec hready i j with ⟨h', heq, hfetch⟩ | ⟨r, h', heq, hidle⟩
  · rw [heq] at hrow ⊢
    refine fetchStatementRow_live hfetch.ready hfetch.hasResult (fun hrow' => ?_) hrow
    obtain rfl : h' = h := hfetch.same hrow'
    exact hsucceeds hrow'
  · rw [heq] at hrow
    cases hidle.hasRow.symm.trans hrow

end ValueHandle

/-- No fetch fails while a row can be read. -/
def KeepsFetching (w : Watched) : ValueCall → Prop
  | .step conn i j =>
    w.value.handle.stmt.hasRow = true → (w.value.onConnection conn).FetchSucceeds i j
  | .reset _ _ => True

namespace Watched

/-- **Live rows.** As long as no fetch fails while a row can be read, a value that an accessor
    gives belongs to the row that the last call, a step, returned. -/
theorem live_of_run {conn : Connection Row} {stmt : Stmt} {calls : List ValueCall}
    {w : Watched} (hrun : Run (Restrict KeepsFetching (ofFun call))
      { value := .prepared conn stmt } calls w) (column : ℕ) (hyields : w.value.Yields column) :
    ∃ row value, w.live = some row ∧ row column = some value ∧ w.value.Reads column value := by
  obtain ⟨hfaithful, hlive⟩ := hrun.invariant
    (fun w => w.Faithful ∧ (w.value.handle.stmt.hasRow = true → w.live.isSome = true))
    ⟨faithful_start conn stmt, nofun⟩ (by
      rintro w c _ ⟨hw, -⟩ ⟨hkeeps, rfl⟩
      refine ⟨hw.call c, fun hrow => ?_⟩
      cases c with
      | step conn i j =>
        obtain ⟨row, heq⟩ :=
          ValueHandle.step_live (ready_onConnection hw.ready conn) hkeeps hrow
        show (((w.value.onConnection conn).step i j).1.liveRow).isSome = true
        rw [heq]
        rfl
      | reset conn answer =>
        exact absurd ((ValueHandle.reset_idle _ answer).2.symm.trans hrow) Bool.false_ne_true)
  obtain ⟨row, hrow⟩ := Option.isSome_iff_exists.mp (hlive (ValueHandle.exists_of_yields hyields).1)
  obtain ⟨value, hvalue, hreads⟩ := (hfaithful.shows row hrow).2.reads hyields
  exact ⟨row, value, hrow, hvalue, hreads⟩

theorem live_of_longValue :
    ∃ row value, (selected [1] [fun _ => some [97, 0, 98]]).live = some row ∧ row 0 = some value
      ∧ (selected [1] [fun _ => some [97, 0, 98]]).value.Reads 0 value := by
  have hrun : Run (Restrict KeepsFetching (ofFun call))
      { value := .prepared {} { state := .prepareDone, hasFields := true } }
      [.step {} { answers := [.rows [fun _ => some [97, 0, 98]] false] } { fields := [1] }]
      (selected [1] [fun _ => some [97, 0, 98]]) := .cons ⟨nofun, rfl⟩ (.nil _)
  exact live_of_run hrun 0 (.inl (by decide))

/-- Two rows of two columns; the second value of the second row does not fit its buffer. -/
def wideRows : List Row :=
  [fun k => if k = 0 then some [97, 98] else some [120],
    fun k => if k = 0 then some [99, 100] else some [121, 121, 121]]

/-- The step to the second row, where no larger buffer can be had for its second value. -/
def failedFetch : ValueCall :=
  .step (selected [2, 2] wideRows).value.handle.conn { answers := [] }
    { fetchColumn := fun _ => false }

/-- The step fails, the first row is gone, and the first value of the second row is there. -/
theorem not_live_after_failedFetch :
    ∃ calls w, Run (ofFun call)
        { value := .prepared {} { state := .prepareDone, hasFields := true } } calls w
      ∧ w.live = none ∧ w.value.Yields 0 ∧ w.value.columnText 0 = some [99, 100] := by
  refine ⟨[.step {} { answers := [.rows wideRows false] } { fields := [2, 2] }, failedFetch],
    (selected [2, 2] wideRows).call failedFetch, .cons rfl (.cons rfl (.nil _)), rfl, ?_, ?_⟩
  · exact .inr (.inl (by decide))
  · decide

end Watched

end MyLite.Prepared

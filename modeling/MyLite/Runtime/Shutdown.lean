import Mathlib.Algebra.Order.BigOperators.Group.Finset
import MyLite.Api.Agreement
import MyLite.Runtime.References

namespace MyLite.Runtime

open MyLite.Api MyLite.Lib MyLite.Sql Function
open Dialogue (Under)

/-!
# Statements, handles and the end of the server

`mylite_prepare` and `mylite_finalize` count the statements of a handle in
`active_statement_count`, `mylite_close` refuses a handle with statements, and `release_runtime`
ends the server with the last reference.  The callers of `Process` do all of this at the same time;
each uses its own handle.

* `OpenHandle` — a handle, with its statements and those of the client library.
* `OpenHandle.prepareImpl`, `OpenHandle.finalize`, `OpenHandle.myliteClose` — the calls.
* `Library.step` — the calls of all callers on top of `Process.step`.
* `safe_of_run` — the count is right, and the server is ended only when nothing is left.
-/

variable {ι Path Dir σ : Type*}

/-! ### Handles -/

/-- The members of `mylite_db` the calls work on, and what belongs to the handle. -/
structure OpenHandle (σ : Type*) where
  diagnostics : Diagnostics := {}
  connected : Bool := false
  /-- An `unsigned`. -/
  activeStatementCount : ℕ := 0
  /-- The statements that were returned and not finalized, by their addresses. -/
  statements : Finset σ := ∅
  /-- The number of `MYSQL_STMT` objects in `mysql.stmts`. -/
  mysqlStmts : ℕ := 0
  deriving DecidableEq

/-- What `mylite_prepare` comes across: whether its arguments are valid, what the policy objects to,
    whether the text is a `CALL`, whether there is memory for `mylite_stmt`, for `mysql_stmt_init`
    and for the parameters, the error of `mysql_stmt_prepare`, the outcome of `bind_null_value` for
    each parameter, and the address of the new statement. -/
structure PrepareInput (σ : Type*) where
  arguments : Bool := true
  objection : Option Text := none
  isCall : Bool := false
  newStatement : Bool := true
  allocated : Bool := true
  refusal : Option ClientError := none
  newParameters : Bool := true
  binds : List Bool := []
  address : σ
  deriving DecidableEq

namespace OpenHandle

variable (h : OpenHandle σ)

/-- `mysql_stmt_init`. -/
def mysqlStmtInit : OpenHandle σ := { h with mysqlStmts := h.mysqlStmts + 1 }

/-- `mysql_stmt_close`. -/
def mysqlStmtClose : OpenHandle σ := { h with mysqlStmts := h.mysqlStmts - 1 }

/-- `prepare_impl`; `none` where `std::bad_alloc` leaves it.  The exception frees the `mylite_stmt`
    and not the `MYSQL_STMT`. -/
def prepareImpl [DecidableEq σ] (i : PrepareInput σ) : Option Result × OpenHandle σ :=
  if !i.arguments then (some .misuse, h)
  else
    let h := { h with diagnostics := setOk }
    match i.objection with
    | some message => (some .error, { h with diagnostics := setError .error message })
    | none =>
      if i.isCall then
        (some .error, { h with
          diagnostics :=
            setError .error (ascii "prepared CALL statements are not supported by MyLite") })
      else if !i.newStatement then (none, h)
      else if !i.allocated then
        (some .nomem, { h with
          diagnostics := setError .nomem (ascii "statement could not be allocated") })
      else
        let h := h.mysqlStmtInit
        match i.refusal with
        | some e => (some .error, { h with diagnostics := setMariadbError e }.mysqlStmtClose)
        | none =>
          if !i.newParameters then (none, h)
          else if i.binds.all id then
            (some .ok, { h with
              activeStatementCount := (h.activeStatementCount + 1) % unsignedRange
              statements := insert i.address h.statements
              diagnostics := setOk })
          else (some .misuse, h.mysqlStmtClose)

/-- `mylite_finalize`. -/
def finalize [DecidableEq σ] (stmt : σ) : OpenHandle σ :=
  let h := h.mysqlStmtClose
  let h := if 0 < h.activeStatementCount then
    { h with activeStatementCount := h.activeStatementCount - 1 } else h
  { h with statements := h.statements.erase stmt }

/-- `close_connection`: `mysql_close` detaches all statements. -/
def closeConnection : OpenHandle σ :=
  if h.connected then { h with connected := false, mysqlStmts := 0 } else h

/-- `mylite_close` up to `release_runtime`; it goes on where it has not returned. -/
def myliteClose : Option Result × OpenHandle σ :=
  if 0 < h.activeStatementCount then
    (some .busy,
      { h with diagnostics := setError .busy (ascii "database has active statements") })
  else (none, h.closeConnection)

/-- What an operation of `mylite_open` does to the handle: a new `mylite_db`, the connection, and
    its end where the system tables cannot be made. -/
def opening (pc : Pc Path Dir) (ok : Bool) : OpenHandle σ :=
  match pc with
  | .idle => {}
  | .started _ => { h with connected := ok }
  | .connected _ => if ok then h else h.closeConnection
  | _ => h

/-- The statements are counted, each of them is one of the client library, and that has none
    without a connection. -/
structure Counted : Prop where
  count : h.activeStatementCount = h.statements.card
  mysqlStmts : h.statements.card ≤ h.mysqlStmts
  detached : h.connected = false → h.mysqlStmts = 0

variable {h}

@[simp] theorem statements_closeConnection : h.closeConnection.statements = h.statements := by
  unfold closeConnection
  split_ifs <;> rfl

@[simp] theorem connected_closeConnection : h.closeConnection.connected = false := by
  unfold closeConnection
  split_ifs with hconnected
  · rfl
  · exact Bool.eq_false_iff.mpr hconnected

theorem Counted.closeConnection (hc : h.Counted) (hempty : h.statements = ∅) :
    h.closeConnection.Counted := by
  unfold OpenHandle.closeConnection
  split_ifs
  · refine ⟨hc.count, ?_, fun _ => rfl⟩
    show h.statements.card ≤ 0
    rw [hempty, Finset.card_empty]
  · exact hc

/-- **Preparing.** A prepare that fails leaves the diagnostics, and a `MYSQL_STMT` where there was
    no memory for the parameters; otherwise there is one statement more. -/
theorem prepareImpl_cases [DecidableEq σ] (i : PrepareInput σ) :
    ((h.prepareImpl i).1 ≠ some .ok ∧ ∃ d k, (h.prepareImpl i).2 =
        { h with diagnostics := d, mysqlStmts := h.mysqlStmts + k }) ∨
      (i.refusal = none ∧ h.prepareImpl i = (some .ok, { h with
        diagnostics := setOk
        activeStatementCount := (h.activeStatementCount + 1) % unsignedRange
        statements := insert i.address h.statements
        mysqlStmts := h.mysqlStmts + 1 })) := by
  unfold prepareImpl
  by_cases harguments : (!i.arguments) = true
  · rw [if_pos harguments]
    exact .inl ⟨nofun, h.diagnostics, 0, rfl⟩
  rw [if_neg harguments]
  cases i.objection with
  | some message => exact .inl ⟨nofun, _, 0, rfl⟩
  | none =>
    dsimp only
    by_cases hcall : i.isCall = true
    · rw [if_pos hcall]
      exact .inl ⟨nofun, _, 0, rfl⟩
    rw [if_neg hcall]
    by_cases hnew : (!i.newStatement) = true
    · rw [if_pos hnew]
      exact .inl ⟨nofun, _, 0, rfl⟩
    rw [if_neg hnew]
    by_cases hallocated : (!i.allocated) = true
    · rw [if_pos hallocated]
      exact .inl ⟨nofun, _, 0, rfl⟩
    rw [if_neg hallocated]
    cases i.refusal with
    | some e => exact .inl ⟨nofun, _, 0, rfl⟩
    | none =>
      dsimp only
      by_cases hparameters : (!i.newParameters) = true
      · rw [if_pos hparameters]
        exact .inl ⟨nofun, _, 1, rfl⟩
      rw [if_neg hparameters]
      by_cases hbinds : i.binds.all id = true
      · rw [if_pos hbinds]
        exact .inr ⟨rfl, rfl⟩
      · rw [if_neg hbinds]
        exact .inl ⟨nofun, _, 0, rfl⟩

/-- On a connection, a new statement is counted if the count does not wrap. -/
theorem Counted.prepareImpl [DecidableEq σ] (hc : h.Counted) (hconnected : h.connected = true)
    {i : PrepareInput σ} (hfresh : i.address ∉ h.statements)
    (hroom : i.refusal = none → h.mysqlStmts + 1 < unsignedRange) :
    (h.prepareImpl i).2.Counted ∧ (h.prepareImpl i).2.connected = true := by
  have hcount := hc.count
  have hle := hc.mysqlStmts
  have hdetached : ∀ {n : ℕ}, h.connected = false → n = 0 := fun hfalse =>
    absurd (hfalse.symm.trans hconnected) Bool.false_ne_true
  rcases h.prepareImpl_cases i with ⟨-, d, k, heq⟩ | ⟨haccepted, heq⟩
  · rw [heq]
    refine ⟨⟨hcount, ?_, hdetached⟩, hconnected⟩
    show h.statements.card ≤ h.mysqlStmts + k
    omega
  · have hcard := Finset.card_insert_of_notMem hfresh
    have hroom := hroom haccepted
    rw [heq]
    refine ⟨⟨?_, ?_, hdetached⟩, hconnected⟩
    · show (h.activeStatementCount + 1) % unsignedRange = (insert i.address h.statements).card
      rw [Nat.mod_eq_of_lt (by omega), hcard, hcount]
    · show (insert i.address h.statements).card ≤ h.mysqlStmts + 1
      omega

theorem Counted.finalize [DecidableEq σ] (hc : h.Counted) {stmt : σ} (hlive : stmt ∈ h.statements) :
    (h.finalize stmt).Counted ∧ (h.finalize stmt).connected = h.connected := by
  have hcount := hc.count
  have hle := hc.mysqlStmts
  have hcard := Finset.card_erase_of_mem hlive
  have hpos : 0 < h.mysqlStmtClose.activeStatementCount := by
    show 0 < h.activeStatementCount
    rw [hcount]
    exact Finset.card_pos.mpr ⟨stmt, hlive⟩
  unfold OpenHandle.finalize
  dsimp only
  rw [if_pos hpos]
  refine ⟨⟨?_, ?_, fun hdetached => ?_⟩, rfl⟩
  · show h.activeStatementCount - 1 = (h.statements.erase stmt).card
    omega
  · show (h.statements.erase stmt).card ≤ h.mysqlStmts - 1
    omega
  · show h.mysqlStmts - 1 = 0
    rw [hc.detached hdetached]

/-- `mylite_close` refuses exactly a handle with statements. -/
theorem Counted.myliteClose_busy_iff (hc : h.Counted) :
    h.myliteClose.1 = some .busy ↔ 0 < h.statements.card := by
  unfold OpenHandle.myliteClose
  rw [hc.count]
  split_ifs with hpos
  · exact iff_of_true rfl hpos
  · exact iff_of_false nofun hpos

/-- The members that `Api.MyliteDb` has too. -/
def Abstracts (h : OpenHandle σ) (db : MyliteDb) : Prop :=
  h.diagnostics = db.db.diagnostics ∧ h.activeStatementCount = db.activeStatementCount

/-- Every exit of `prepare_impl` is one of the handle with its count. -/
theorem Abstracts.prepareImpl [DecidableEq σ] {db : MyliteDb} {r : Preparation}
    (habs : h.Abstracts db) (hprepares : Prepares (db.withDiagnostics setOk) r) (address : σ) :
    ∃ i : PrepareInput σ, i.address = address ∧ (h.prepareImpl i).1 = some r.code ∧
      (h.prepareImpl i).2.Abstracts r.db := by
  have hcount := habs.2
  cases hprepares with
  | objection message =>
    exact ⟨{ objection := some (ascii message), address := address }, rfl, rfl, rfl, hcount⟩
  | call => exact ⟨{ isCall := true, address := address }, rfl, rfl, rfl, hcount⟩
  | unallocated => exact ⟨{ allocated := false, address := address }, rfl, rfl, rfl, hcount⟩
  | refusal e => exact ⟨{ refusal := some e, address := address }, rfl, rfl, rfl, hcount⟩
  | prepared stmt =>
    refine ⟨{ address := address }, rfl, rfl, rfl, ?_⟩
    exact congrArg (fun count => (count + 1) % unsignedRange) hcount

/-- `mylite_close` keeps the same handles, with the same error. -/
theorem Abstracts.myliteClose {db : MyliteDb} (habs : h.Abstracts db) :
    Under (fun (_ : Unit) _ => some ()) () (fun r _ => h.myliteClose.1 = r.2.map (fun _ => r.1) ∧
      ∀ db' ∈ r.2, h.myliteClose.2.Abstracts db') (Api.myliteClose db) := by
  unfold Api.myliteClose OpenHandle.myliteClose
  rw [habs.2]
  refine .ite (fun hpos => ?_) fun hpos => ?_
  · rw [if_pos hpos]
    exact .pure ⟨rfl, fun db' hdb => Option.some.inj hdb ▸ ⟨rfl, rfl⟩⟩
  · rw [if_neg hpos]
    exact .bind (P := fun _ _ => True) (.ask fun _ _ _ => trivial)
      fun _ _ _ => .pure ⟨rfl, nofun⟩

end OpenHandle

/-! ### All callers -/

/-- The process, and the handle of each caller. -/
structure Library (ι Path Dir σ : Type*) where
  process : Process ι Path Dir
  handle : ι → OpenHandle σ

/-- An operation of `mylite_open` or `mylite_close`, or a call about a statement. -/
inductive LibraryEvent (ι Path σ : Type*)
  | move (m : Move ι Path)
  | prepare (caller : ι) (i : PrepareInput σ)
  | finalize (caller : ι) (stmt : σ)

/-- The caller has a connection. -/
def Pc.hasConnection : Pc Path Dir → Bool
  | .connected _ | .opened _ => true
  | _ => false

theorem Pc.isReference_of_hasConnection {pc : Pc Path Dir} (h : pc.hasConnection = true) :
    pc.isReference = true := by
  cases pc with
  | connected path | opened path => rfl
  | _ => cases h

namespace Library

/-- Before the first call. -/
def initial : Library ι Path Dir σ := ⟨.initial, fun _ => {}⟩

variable [DecidableEq ι] [DecidableEq Path] [DecidableEq σ] [Fintype ι]
  (directory : Path → Option Dir) (s : Library ι Path Dir σ)

/-- The process goes on and the handle of the caller is changed. -/
def moved (m : Move ι Path) (h : OpenHandle σ) : Option (Library ι Path Dir σ) :=
  (s.process.next directory m).map fun process =>
    ⟨process, update s.handle m.caller h⟩

/-- One operation.  A caller prepares on its open handle, and finalizes a statement that it has; the
    address of a new statement is free. -/
def step : LibraryEvent ι Path σ → Option (Library ι Path Dir σ)
  | .move m =>
    match s.process.pc m.caller with
    | .opened _ =>
      match (s.handle m.caller).myliteClose with
      | (some _, h) => some { s with handle := update s.handle m.caller h }
      | (none, h) => s.moved directory { m with ok := true } h
    | pc => s.moved directory m ((s.handle m.caller).opening pc m.ok)
  | .prepare caller i =>
    match s.process.pc caller with
    | .opened _ =>
      if ∀ other, i.address ∉ (s.handle other).statements then
        some { s with
          handle := update s.handle caller ((s.handle caller).prepareImpl i).2 }
      else none
    | _ => none
  | .finalize caller stmt =>
    if stmt ∈ (s.handle caller).statements then
      some { s with handle := update s.handle caller ((s.handle caller).finalize stmt) }
    else none

/-- The server takes a further statement only while it has fewer than `max_prepared_stmt_count`
    (`Statement_map::insert`). -/
def ServerAdmits (maxPreparedStmtCount : ℕ) (s : Library ι Path Dir σ) :
    LibraryEvent ι Path σ → Prop
  | .prepare _ i =>
    i.refusal = none → ∑ caller, (s.handle caller).mysqlStmts < maxPreparedStmtCount
  | _ => True

/-- What holds between two operations. -/
structure Safe : Prop where
  /-- The count of every handle is the number of its statements. -/
  counted : ∀ caller, (s.handle caller).activeStatementCount = (s.handle caller).statements.card
  /-- `mylite_close` returns `MYLITE_BUSY` exactly if there are statements, -/
  busy_iff : ∀ caller, (s.handle caller).myliteClose.1 = some .busy ↔
    0 < (s.handle caller).statements.card
  /-- and then changes the diagnostics and nothing else. -/
  busy_unchanged : ∀ m path, s.process.pc m.caller = .opened path →
    (s.handle m.caller).myliteClose.1 = some .busy →
      ∃ d, s.step directory (.move m) = some { s with
        handle := update s.handle m.caller { s.handle m.caller with diagnostics := d } }
  /-- A statement has its handle. -/
  opened_of_live : ∀ caller stmt, stmt ∈ (s.handle caller).statements →
    ∃ path, s.process.pc caller = .opened path
  /-- When `mysql_server_end` is called, no handle has a statement or a connection. -/
  ended : ∀ caller, (s.process.pc caller).callsEnd = true → ∀ other,
    (s.handle other).statements = ∅ ∧ (s.handle other).mysqlStmts = 0 ∧
      (s.handle other).connected = false

/-- The invariant of a run. -/
structure Sound : Prop where
  process : s.process.Invariant directory
  counted : ∀ caller, (s.handle caller).Counted
  live : ∀ caller, (s.handle caller).statements.Nonempty →
    ∃ path, s.process.pc caller = .opened path
  connection : ∀ caller, (s.handle caller).connected = (s.process.pc caller).hasConnection

end Library

/-- There is a connection behind an operation: `connect_runtime` makes it, and it is closed where
    `ensure_core_system_tables` fails and in `mylite_close`. -/
def Pc.keepsConnection (ok : Bool) : Pc Path Dir → Bool
  | .started _ | .connected _ => ok
  | .opened _ => !ok
  | _ => false

theorem Pc.LeadsTo.hasConnection_eq {path : Path} {ok : Bool} {pc next : Pc Path Dir}
    (h : pc.LeadsTo path ok next) : next.hasConnection = pc.keepsConnection ok := by
  cases pc with
  | idle | locked | assigned | releasing => rcases h with rfl | rfl <;> rfl
  | starting => rcases h with rfl | rfl | ⟨fd, rfl⟩ <;> rfl
  | validated | started | connected | opened =>
    obtain rfl : next = _ := h
    cases ok <;> rfl
  | prepared | initialized | initFailed | cleared | undone | disconnected | lastReleased | ended
  | runRemoved | tmpCleared | unlocked =>
    obtain rfl : next = _ := h
    rfl

namespace Library

variable [Fintype ι] {directory : Path → Option Dir} {s : Library ι Path Dir σ}

theorem sound_initial (hfew : Fintype.card ι < unsignedRange) :
    (initial : Library ι Path Dir σ).Sound directory where
  process := Process.invariant_initial hfew
  counted _ := ⟨rfl, le_rfl, fun _ => rfl⟩
  live _ hlive := absurd hlive Finset.not_nonempty_empty
  connection _ := rfl

/-- The number of statements on one connection. -/
theorem mysqlStmts_le (s : Library ι Path Dir σ) (caller : ι) :
    (s.handle caller).mysqlStmts ≤ ∑ other, (s.handle other).mysqlStmts :=
  Finset.single_le_sum (f := fun other => (s.handle other).mysqlStmts)
    (fun _ _ => Nat.zero_le _) (Finset.mem_univ caller)

namespace Sound

variable {caller : ι} {path : Path}

/-- Only an open handle has statements. -/
theorem statements_eq_empty (hs : s.Sound directory)
    (hpc : ∀ path, s.process.pc caller ≠ .opened path) : (s.handle caller).statements = ∅ := by
  by_contra hne
  obtain ⟨path, hopened⟩ := hs.live caller (Finset.nonempty_iff_ne_empty.mpr hne)
  exact hpc path hopened

theorem connected_of_opened (hs : s.Sound directory) (hpc : s.process.pc caller = .opened path) :
    (s.handle caller).connected = true := by
  rw [hs.connection caller, hpc]
  rfl

variable [DecidableEq ι]

/-- One caller goes on. -/
theorem update (hs : s.Sound directory) {process : Process ι Path Dir} {h : OpenHandle σ}
    (hprocess : process.Invariant directory)
    (hothers : ∀ other, other ≠ caller → process.pc other = s.process.pc other)
    (hcounted : h.Counted)
    (hlive : h.statements.Nonempty → ∃ path, process.pc caller = .opened path)
    (hconnection : h.connected = (process.pc caller).hasConnection) :
    Sound directory ⟨process, update s.handle caller h⟩ := by
  refine ⟨hprocess, fun other => ?_, fun other => ?_, fun other => ?_⟩
  · by_cases hne : other = caller
    · subst hne
      simpa using hcounted
    · simpa [update_of_ne hne] using hs.counted other
  · by_cases hne : other = caller
    · subst hne
      simpa using hlive
    · simpa [update_of_ne hne, hothers other hne] using hs.live other
  · by_cases hne : other = caller
    · subst hne
      simpa using hconnection
    · simpa [update_of_ne hne, hothers other hne] using hs.connection other

/-- A call on an open handle that stays open. -/
theorem update_opened (hs : s.Sound directory) (hpc : s.process.pc caller = .opened path)
    {h : OpenHandle σ} (hcounted : h.Counted) (hconnection : h.connected = true) :
    Sound directory { s with handle := Function.update s.handle caller h } := by
  refine hs.update hs.process (fun _ _ => rfl) hcounted (fun _ => ⟨path, hpc⟩) ?_
  rw [hpc]
  exact hconnection

variable [DecidableEq Path] {s' : Library ι Path Dir σ}

variable {m : Move ι Path}

/-- An operation of `mylite_open` or `mylite_close` on a handle without statements. -/
theorem moved (hs : s.Sound directory) {h : OpenHandle σ} (hstep : s.moved directory m h = some s')
    (hcounted : h.Counted) (hempty : h.statements = ∅)
    (hconnection : h.connected = (s.process.pc m.caller).keepsConnection m.ok) :
    s'.Sound directory := by
  obtain ⟨process, hnext, rfl⟩ := Option.map_eq_some_iff.mp hstep
  obtain ⟨a, hprocess⟩ := Process.next_eq_some.mp hnext
  refine hs.update (hs.process.step hprocess) (fun _ => Process.pc_of_ne hprocess) hcounted ?_
    (hconnection.trans (Process.leadsTo_step hprocess).hasConnection_eq.symm)
  intro hlive
  rw [hempty] at hlive
  exact absurd hlive Finset.not_nonempty_empty

/-- `mylite_open` and the end of `mylite_close`, operation by operation. -/
theorem opening (hs : s.Sound directory) (hpc : ∀ path, s.process.pc m.caller ≠ .opened path)
    (hstep : s.moved directory m
      ((s.handle m.caller).opening (s.process.pc m.caller) m.ok) = some s') :
    s'.Sound directory := by
  have hempty := hs.statements_eq_empty hpc
  have hcounted := hs.counted m.caller
  have hconnection := hs.connection m.caller
  cases hplace : s.process.pc m.caller with
  | opened path => exact absurd hplace (hpc path)
  | idle =>
    rw [hplace] at hstep
    exact hs.moved hstep ⟨rfl, le_rfl, fun _ => rfl⟩ rfl (by rw [hplace]; rfl)
  | started path =>
    rw [hplace] at hstep hconnection
    refine hs.moved hstep ⟨hcounted.count, hcounted.mysqlStmts, fun _ => ?_⟩ hempty
      (by rw [hplace]; rfl)
    exact hcounted.detached hconnection
  | connected path =>
    rw [hplace] at hstep hconnection
    unfold OpenHandle.opening at hstep
    cases hok : m.ok with
    | true =>
      rw [hok] at hstep
      exact hs.moved hstep hcounted hempty (by rw [hplace, hok]; exact hconnection)
    | false =>
      rw [hok] at hstep
      exact hs.moved hstep (hcounted.closeConnection hempty)
        (OpenHandle.statements_closeConnection.trans hempty)
        (by rw [hplace, hok]; exact OpenHandle.connected_closeConnection)
  | _ =>
    -- The other operations leave the handle alone, which has no connection.
    rw [hplace] at hstep hconnection
    exact hs.moved hstep hcounted hempty (by rw [hplace]; exact hconnection)

/-- `mylite_close` of a handle without statements. -/
theorem closing (hs : s.Sound directory) (hpc : s.process.pc m.caller = .opened path)
    (hcount : ¬0 < (s.handle m.caller).activeStatementCount)
    (hstep : s.moved directory { m with ok := true } (s.handle m.caller).closeConnection
      = some s') :
    s'.Sound directory := by
  have hcounted := hs.counted m.caller
  have hempty : (s.handle m.caller).statements = ∅ := by
    rw [← Finset.card_eq_zero, ← hcounted.count]
    omega
  refine hs.moved hstep (hcounted.closeConnection hempty)
    (OpenHandle.statements_closeConnection.trans hempty) ?_
  rw [show s.process.pc (Move.caller { m with ok := true }) = .opened path from hpc]
  exact OpenHandle.connected_closeConnection

variable [DecidableEq σ]

/-- **Step lemma.** Every operation of every caller keeps the invariant, as long as the server takes
    fewer statements than an `unsigned` counts. -/
theorem step (hs : s.Sound directory) {limit : ℕ} (hlimit : limit < unsignedRange)
    {e : LibraryEvent ι Path σ} (hadmits : ServerAdmits limit s e)
    (hstep : s.step directory e = some s') : s'.Sound directory := by
  cases e with
  | move m =>
    unfold Library.step at hstep
    dsimp only at hstep
    split at hstep
    · next path hpc =>
      unfold OpenHandle.myliteClose at hstep
      by_cases hcount : 0 < (s.handle m.caller).activeStatementCount
      · rw [if_pos hcount] at hstep
        cases hstep
        have hcounted := hs.counted m.caller
        exact hs.update_opened hpc ⟨hcounted.count, hcounted.mysqlStmts, hcounted.detached⟩
          (hs.connected_of_opened hpc)
      · rw [if_neg hcount] at hstep
        exact hs.closing hpc hcount hstep
    · next hpc => exact hs.opening hpc hstep
  | prepare caller i =>
    unfold Library.step at hstep
    dsimp only at hstep
    split at hstep
    · next path hpc =>
      split_ifs at hstep with hfresh
      cases hstep
      have hroom : i.refusal = none → (s.handle caller).mysqlStmts + 1 < unsignedRange := by
        intro haccepted
        have hserver := hadmits haccepted
        have hown := s.mysqlStmts_le caller
        omega
      obtain ⟨hcounted, hconnected⟩ :=
        (hs.counted caller).prepareImpl (hs.connected_of_opened hpc) (hfresh caller) hroom
      exact hs.update_opened hpc hcounted hconnected
    · cases hstep
  | finalize caller stmt =>
    unfold Library.step at hstep
    dsimp only at hstep
    split_ifs at hstep with hlive
    cases hstep
    obtain ⟨path, hpc⟩ := hs.live caller ⟨stmt, hlive⟩
    obtain ⟨hcounted, hconnected⟩ := (hs.counted caller).finalize hlive
    exact hs.update_opened hpc hcounted (hconnected.trans (hs.connected_of_opened hpc))

/-- What the invariant says about the calls that can come next. -/
theorem safe (hs : s.Sound directory) : s.Safe directory where
  counted caller := (hs.counted caller).count
  busy_iff caller := (hs.counted caller).myliteClose_busy_iff
  busy_unchanged m path hpc hbusy := by
    unfold Library.step
    simp only [hpc]
    unfold OpenHandle.myliteClose at hbusy ⊢
    by_cases hcount : 0 < (s.handle m.caller).activeStatementCount
    · rw [if_pos hcount]
      exact ⟨_, rfl⟩
    · rw [if_neg hcount] at hbusy
      cases hbusy
  opened_of_live caller stmt hlive := hs.live caller ⟨stmt, hlive⟩
  ended caller hend other := by
    -- The caller is in `release_runtime`, and has dropped the last reference.
    have hzero : s.process.runtime.refCount = 0 := by
      cases hpc : s.process.pc caller with
      | lastReleased path =>
        have hphase := hs.process.phase caller ((hs.process.mutex_iff caller).mp (by rw [hpc]; rfl))
        rw [hpc] at hphase
        rw [hphase.1]
        rfl
      | _ =>
        rw [hpc] at hend
        cases hend
    have hnone : (s.process.pc other).hasConnection = false := by
      by_contra hconnection
      have href := Pc.isReference_of_hasConnection (Bool.not_eq_false _ ▸ hconnection)
      rw [Pc.isReference, hs.process.reference_eq_none hzero other] at href
      cases href
    have hempty : (s.handle other).statements = ∅ := hs.statements_eq_empty fun path hpc => by
      rw [hpc] at hnone
      cases hnone
    have hconnected := (hs.connection other).trans hnone
    exact ⟨hempty, (hs.counted other).detached hconnected, hconnected⟩

end Sound

/-- **Shutdown.** However opens, closes, prepares and finalizes of fewer than `2 ^ 32` callers are
    interleaved and wherever they fail, the statements of every handle are counted, `mylite_close`
    refuses exactly a handle that has some and then leaves all but its diagnostics as it was, and
    `mysql_server_end` is called only when no handle has a statement or a connection. -/
theorem safe_of_run [DecidableEq ι] [DecidableEq Path] [DecidableEq σ]
    (hfew : Fintype.card ι < unsignedRange) {limit : ℕ} (hlimit : limit < unsignedRange)
    {events : List (LibraryEvent ι Path σ)}
    (hrun : Run (Restrict (ServerAdmits limit) (ofOption (step directory))) initial events s) :
    s.Safe directory := by
  refine (hrun.invariant (Sound directory) (sound_initial hfew) ?_).safe
  rintro s e s' hs ⟨hadmits, hstep⟩
  exact hs.step hlimit hadmits hstep

instance (limit : ℕ) (s : Library ι Path Dir σ) (e : LibraryEvent ι Path σ) :
    Decidable (ServerAdmits limit s e) :=
  match e with
  | .move _ => isTrue trivial
  | .prepare _ i =>
    inferInstanceAs (Decidable (i.refusal = none → ∑ caller, (s.handle caller).mysqlStmts < limit))
  | .finalize _ _ => isTrue trivial

/-- A database is opened, one statement is prepared and another refused, the handle cannot be
    closed, the statement is finalized, and the handle is closed up to the end of the server. -/
def oneStatement : List (LibraryEvent (Fin 1) Unit ℕ) :=
  List.replicate 9 (.move ⟨0, (), true⟩) ++
    [.prepare 0 { address := 7 }, .prepare 0 { refusal := some commandsOutOfSync, address := 8 },
      .move ⟨0, (), true⟩, .finalize 0 7] ++
    List.replicate 3 (.move ⟨0, (), true⟩)

theorem safe_of_oneStatement :
    ∃ s : Library (Fin 1) Unit Unit ℕ,
      Run (Restrict (ServerAdmits 16382) (ofOption (step some))) initial oneStatement s ∧
        (s.process.pc 0).callsEnd = true ∧ s.Safe some :=
  have hrun : Run (Restrict (ServerAdmits 16382) (ofOption (step some))) initial oneStatement _ :=
    run_restrict_of_foldlM _ _ rfl
  ⟨_, hrun, rfl, safe_of_run (by decide) (by decide) hrun⟩

end Library

end MyLite.Runtime

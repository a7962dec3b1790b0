import Mathlib.Data.Nat.Digits.Lemmas
import Mathlib.Tactic.IntervalCases
import MyLite.Sql.Bytes

namespace MyLite.Api

open MyLite.Sql

/-!
# Result codes and the diagnostics of a handle

`mylite_result` and the five error fields of `mylite_db`, with the three functions that write
them.
-/

/-- `mylite_result`. -/
inductive Result
  | ok | error | busy | nomem | readonly | ioerr | corrupt | notfound | full | constraint | misuse
  | row | done
  deriving DecidableEq, Repr

/-- What `mysql_errno`, `mysql_sqlstate` and `mysql_error` report for a failed call. -/
structure ClientError where
  errno : ℕ
  sqlstate : Text
  message : Text
  deriving DecidableEq, Repr

/-- The error fields of `mylite_db`, with their initial values. -/
structure Diagnostics where
  errcode : Result := .ok
  extendedErrcode : Result := .ok
  mariadbErrno : ℕ := 0
  sqlstate : Text := ascii "00000"
  errmsg : Text := ascii "not an error"
  deriving DecidableEq, Repr

/-- `set_ok`. -/
def setOk : Diagnostics := {}

/-- `set_error`. -/
def setError (code : Result) (message : Text) : Diagnostics where
  errcode := code
  extendedErrcode := code
  mariadbErrno := 0
  sqlstate := ascii "HY000"
  errmsg := message

/-- `set_mariadb_error` and `set_mariadb_statement_error`, on the error of the connection and
    of the statement. -/
def setMariadbError (e : ClientError) : Diagnostics where
  errcode := .error
  extendedErrcode := .error
  mariadbErrno := e.errno
  sqlstate := e.sqlstate
  errmsg := e.message

/-- `CR_COMMANDS_OUT_OF_SYNC`: a command was sent while a result was still pending. -/
def commandsOutOfSync : ClientError where
  errno := 2014
  sqlstate := ascii "HY000"
  message := ascii "Commands out of sync; you can't run this command now"

/-!
# Reading warnings one by one

`mylite_warning` looks one warning up by running `SHOW WARNINGS LIMIT index, 1` on the handle's
own connection.  The server keeps its list of warnings across that statement, but the client
takes over the statement's *own* warning count (`emb_read_query_result`), and that count is what
the next `mylite_warning` compares its index with.

* `myliteWarning_of_lt` — one lookup: the right warning, and a count of zero afterwards.
* `traceWarnings_cons` — a run of lookups: only the first one finds anything.
* `enumeratesWarnings_iff` — so the law of the interface holds of the empty run alone.
-/

/-! ### The server's warnings -/

/-- `mylite_warning_level`, and the levels of a stored condition. -/
inductive WarningLevel
  | note | warning | error
  deriving DecidableEq, Repr

/-- A stored `Sql_condition`; its error number is a `uint`. -/
structure Condition where
  level : WarningLevel
  code : ℕ
  message : Text
  code_lt : code < 2 ^ 32
  deriving DecidableEq, Repr

/-- `warning_level_names`. -/
def warningLevelName : WarningLevel → Text
  | .note => ascii "Note"
  | .warning => ascii "Warning"
  | .error => ascii "Error"

/-- The decimal text of a number, as the protocol sends it. -/
def decimal (n : ℕ) : Text :=
  if n = 0 then [0x30] else (Nat.digits 10 n).reverse.map fun d => 0x30 + d.toUInt8

/-- One row of `SHOW WARNINGS`. -/
structure WarningRow where
  level : Text
  code : Text
  message : Text
  deriving DecidableEq, Repr

/-- The row `mysqld_show_warnings` sends for a condition. -/
def Condition.row (c : Condition) : WarningRow :=
  ⟨warningLevelName c.level, decimal c.code, c.message⟩

/-- The part of the connection that the lookups use: the server's list of warnings
    (`Warning_info::m_warn_list`), the client's `mysql->warning_count`, and whether the client is
    in `MYSQL_STATUS_READY`. -/
structure Connection where
  stored : List Condition
  warningCount : ℕ
  ready : Bool
  deriving DecidableEq, Repr

/-- `mysql_query("SHOW WARNINGS LIMIT offset, 1")` and `mysql_store_result`.  The server resets
    its count of the current statement's warnings before every command and `SHOW WARNINGS` raises
    none, so the client's count becomes zero. -/
def showWarnings (mysql : Connection) (offset : ℕ) :
    Except ClientError (List WarningRow × Connection) :=
  if mysql.ready then
    .ok (((mysql.stored.drop offset).take 1).map Condition.row, { mysql with warningCount := 0 })
  else .error commandsOutOfSync

/-! ### `mylite_warning` -/

/-- The fields of `mylite_db` that `mylite_warning` reads and writes. -/
structure WarningHandle where
  mysql : Connection
  diagnostics : Diagnostics
  warningMessage : Text
  deriving DecidableEq, Repr

/-- The output parameters of `mylite_warning`. -/
structure WarningValue where
  level : WarningLevel
  code : ℕ
  message : Text
  deriving DecidableEq, Repr

/-- `parse_warning_level`. -/
def parseWarningLevel (level : Text) : WarningLevel :=
  if level = ascii "Note" then .note else if level = ascii "Error" then .error else .warning

/-- `strtoul` in base ten, on a text of digits only. -/
def strtoul (text : Text) : ℕ := text.foldl (fun n b => 10 * n + (b - 0x30).toNat) 0

/-- `mylite_warning_count`. -/
def myliteWarningCount (db : WarningHandle) : ℕ := db.mysql.warningCount

/-- `mylite_warning`: the result, the output parameters if they are written, and the handle. -/
def myliteWarning (db : WarningHandle) (index : ℕ) :
    (Result × Option WarningValue) × WarningHandle :=
  if index ≥ db.mysql.warningCount then ((.notfound, none), db)
  else
    match showWarnings db.mysql index with
    | .error e => ((.error, none), { db with diagnostics := setMariadbError e })
    | .ok ([], mysql) => ((.notfound, none), { db with mysql := mysql })
    | .ok (row :: _, mysql) =>
      ((.ok, some ⟨parseWarningLevel row.level, strtoul row.code % 2 ^ 32, row.message⟩),
        { mysql := mysql, diagnostics := setOk, warningMessage := row.message })

/-- A sequence of lookups: each result with the warning count after it. -/
def traceWarnings (db : WarningHandle) : List ℕ → List ((Result × Option WarningValue) × ℕ)
  | [] => []
  | index :: calls =>
    let (reply, db') := myliteWarning db index
    (reply, myliteWarningCount db') :: traceWarnings db' calls

/-! ### The text forms lose nothing -/

theorem parseWarningLevel_warningLevelName (l : WarningLevel) :
    parseWarningLevel (warningLevelName l) = l := by
  cases l <;> decide

/-- Reading the digits back, the least significant one innermost. -/
private theorem foldr_decimal_digits : ∀ l : List ℕ, (∀ d ∈ l, d < 10) →
    l.foldr (fun d n => 10 * n + ((0x30 : UInt8) + d.toUInt8 - 0x30).toNat) 0 =
      Nat.ofDigits 10 l := by
  intro l hl
  induction l with
  | nil => rfl
  | cons d l ih =>
    have hd : d < 10 := hl d (by simp)
    have hbyte : ((0x30 : UInt8) + d.toUInt8 - 0x30).toNat = d := by
      interval_cases d <;> decide
    rw [List.foldr_cons, ih fun e he => hl e (by simp [he]), hbyte, Nat.ofDigits_cons]
    omega

theorem strtoul_decimal (n : ℕ) : strtoul (decimal n) = n := by
  unfold decimal
  split_ifs with h
  · subst h; decide
  · rw [strtoul, List.foldl_map, List.foldl_reverse,
      foldr_decimal_digits _ fun d hd => Nat.digits_lt_base (by omega) hd, Nat.ofDigits_digits]

/-- What a caller should see of a stored condition. -/
def Condition.value (c : Condition) : WarningValue := ⟨c.level, c.code, c.message⟩

/-- The row of a condition is parsed back to the condition. -/
theorem value_row (c : Condition) :
    (⟨parseWarningLevel c.row.level, strtoul c.row.code % 2 ^ 32, c.row.message⟩ : WarningValue) =
      c.value := by
  simp only [Condition.row, Condition.value, parseWarningLevel_warningLevelName, strtoul_decimal,
    Nat.mod_eq_of_lt c.code_lt]

/-! ### Runs of lookups -/

variable {index : ℕ}

/-- The handle as the last executed statement left it: `ws` are its stored warnings, the client
    has been told their number, and no result is pending. -/
structure LeftWarnings (db : WarningHandle) (ws : List Condition) : Prop where
  stored : db.mysql.stored = ws
  count : db.mysql.warningCount = ws.length
  ready : db.mysql.ready = true

variable {db : WarningHandle}

/-- An index the client's count does not cover is not looked up. -/
theorem myliteWarning_of_ge (h : db.mysql.warningCount ≤ index) :
    myliteWarning db index = ((.notfound, none), db) := if_pos h

/-- One lookup below the count: the stored warning is returned, and the count drops to zero. -/
theorem myliteWarning_of_lt {ws : List Condition} (h : LeftWarnings db ws)
    (hi : index < ws.length) :
    ∃ db', myliteWarning db index = ((.ok, ws[index]?.map Condition.value), db') ∧
      db'.mysql = { db.mysql with warningCount := 0 } := by
  obtain ⟨rfl, hwc, hready⟩ := h
  have hrow : (db.mysql.stored.drop index).take 1 = [db.mysql.stored[index]] := by
    rw [List.drop_eq_getElem_cons hi, List.take_succ_cons, List.take_zero]
  have hcount : ¬index ≥ db.mysql.warningCount := by omega
  have hshow : showWarnings db.mysql index =
      .ok ([db.mysql.stored[index].row], { db.mysql with warningCount := 0 }) := by
    rw [showWarnings, if_pos hready, hrow, List.map_singleton]
  refine ⟨⟨{ db.mysql with warningCount := 0 }, setOk, db.mysql.stored[index].row.message⟩,
    ?_, rfl⟩
  rw [myliteWarning, if_neg hcount, hshow, List.getElem?_eq_getElem hi, Option.map_some,
    ← value_row]

/-- With a count of zero every lookup fails and nothing changes. -/
theorem traceWarnings_of_count_zero (h : db.mysql.warningCount = 0) :
    ∀ calls : List ℕ, traceWarnings db calls = calls.map fun _ => ((.notfound, none), 0) := by
  intro calls
  induction calls with
  | nil => rfl
  | cons index calls ih =>
    rw [traceWarnings, myliteWarning_of_ge (by omega : db.mysql.warningCount ≤ index)]
    simp only [List.map_cons, ih, myliteWarningCount, h]

/-- **Run.** Of a sequence of lookups the first is answered and all others are not. -/
theorem traceWarnings_cons {ws : List Condition} (h : LeftWarnings db ws) (hi : index < ws.length)
    (calls : List ℕ) :
    traceWarnings db (index :: calls) =
      ((.ok, ws[index]?.map Condition.value), 0) :: calls.map fun _ => ((.notfound, none), 0) := by
  obtain ⟨db', hcall, hmysql⟩ := myliteWarning_of_lt h hi
  have hzero : db'.mysql.warningCount = 0 := by rw [hmysql]
  simp only [traceWarnings, hcall, myliteWarningCount, hzero, traceWarnings_of_count_zero hzero]

/-- The law of the interface: every lookup returns its warning and the count stays. -/
def EnumeratesWarnings (db : WarningHandle) (ws : List Condition) (calls : List ℕ) : Prop :=
  traceWarnings db calls = calls.map fun i => ((.ok, ws[i]?.map Condition.value), ws.length)

/-- **Enumeration.** Lookups of stored warnings follow the law only when there are none: already
    the first one sets the count to zero. -/
theorem enumeratesWarnings_iff (db : WarningHandle) (ws : List Condition) (calls : List ℕ)
    (h : LeftWarnings db ws) (hcalls : ∀ i ∈ calls, i < ws.length) :
    EnumeratesWarnings db ws calls ↔ calls = [] := by
  unfold EnumeratesWarnings
  cases calls with
  | nil => exact iff_of_true rfl rfl
  | cons index calls =>
    have hi : index < ws.length := hcalls index (by simp)
    have hne : 0 ≠ ws.length := by omega
    rw [traceWarnings_cons h hi]
    simp [hne]

/-- A handle whose last statement left two warnings. -/
def twoWarnings : WarningHandle where
  mysql :=
    { stored := [⟨.warning, 1264, ascii "Out of range value", by omega⟩,
        ⟨.note, 1051, ascii "Unknown table", by omega⟩]
      warningCount := 2
      ready := true }
  diagnostics := setOk
  warningMessage := []

theorem enumeratesWarnings_twoWarnings :
    LeftWarnings twoWarnings twoWarnings.mysql.stored ∧
      (EnumeratesWarnings twoWarnings twoWarnings.mysql.stored [0, 1] ↔ [0, 1] = []) :=
  have h : LeftWarnings twoWarnings twoWarnings.mysql.stored := ⟨rfl, rfl, rfl⟩
  ⟨h, enumeratesWarnings_iff _ _ _ h (by decide)⟩

theorem not_enumeratesWarnings_twoWarnings :
    traceWarnings twoWarnings [0, 1] =
        [((.ok, some ⟨.warning, 1264, ascii "Out of range value"⟩), 0), ((.notfound, none), 0)] ∧
      ¬EnumeratesWarnings twoWarnings twoWarnings.mysql.stored [0, 1] := by
  constructor
  · decide
  · unfold EnumeratesWarnings; decide

end MyLite.Api

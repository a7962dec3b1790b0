import Mathlib.Data.List.Basic

namespace MyLite.Client

/-!
# The embedded client library: one connection

The part of `libmysqld` that MyLite's statements run on.  The server answers a command in the
same thread: its answers are queued on the connection (`first_data`), the answer that is being
read is `cur_data`, and rows are taken from it one at a time.  There is one status for the whole
connection, and a command that comes while a result is pending fails, but only after the queue
and the pending data were thrown away (`emb_advanced_command`).

Error codes and texts are left out: a call fails or it does not.
-/

/-- `mysql->status`. -/
inductive Status
  | ready | getResult | statementGetResult
  deriving DecidableEq, Repr

/-- One answer of the server (`MYSQL_DATA`).  `failed` says that an error was recorded behind
    the fields of a result set. -/
inductive Answer (Row : Type)
  | error
  | ok
  | rows (rows : List Row) (failed : Bool)
  deriving DecidableEq, Repr

/-- `thd->is_error()` behind a command with this answer. -/
def Answer.isError {Row : Type} : Answer Row → Bool
  | .error => true
  | _ => false

/-- `MYSQL` and the parts of its `THD` that belong to the client. -/
structure Connection (Row : Type) where
  status : Status := .ready
  /-- `thd->cur_data`: the rows not yet fetched. -/
  curData : Option (List Row × Bool) := none
  /-- `thd->first_data`. -/
  firstData : List (Answer Row) := []
  /-- `mysql->field_count != 0`. -/
  hasFields : Bool := false
  /-- `SERVER_MORE_RESULTS_EXISTS` of `mysql->server_status`. -/
  moreResults : Bool := false
  /-- `thd->cur_data` names an answer that is queued, or was freed since: the next command frees
      it a second time, and nothing can be said of what follows. -/
  stale : Bool := false
  deriving DecidableEq, Repr

variable {Row : Type}

namespace Connection

variable (c : Connection Row)

/-- `THD::clear_data_list`, where `cur_data` is not stale. -/
def clearDataList : Connection Row :=
  { c with curData := none, firstData := [], stale := false }

/-- `emb_advanced_command`; `answers` is what the server answers if the command gets there. -/
def advancedCommand (answers : List (Answer Row)) : Bool × Connection Row :=
  let c := c.clearDataList
  if c.status = .ready then
    (true, { c with hasFields := false, firstData := answers })
  else (false, c)

/-- `emb_flush_use_result`. -/
def flushUseResult : Connection Row :=
  match c.curData with
  | some _ => { c with curData := none }
  | none => { c with firstData := c.firstData.tail }

/-- `emb_read_query_result`; it is only called while an answer is queued. -/
def readQueryResult : Bool × Connection Row :=
  match c.firstData with
  | [] => (false, c)
  | .error :: rest => (false, { c with firstData := rest, moreResults := false })
  | .ok :: rest =>
    (true, { c with firstData := rest, hasFields := false, moreResults := !rest.isEmpty })
  | .rows rows failed :: rest =>
    (true, { c with
      firstData := rest, hasFields := true, moreResults := !rest.isEmpty,
      status := .getResult, curData := some (rows, failed), stale := false })

/-- A result that was asked for by a statement is pending for statements. -/
def forStatement : Connection Row :=
  if c.status = .getResult then { c with status := .statementGetResult } else c

@[simp] theorem forStatement_hasFields : c.forStatement.hasFields = c.hasFields := by
  rw [forStatement]; split_ifs <;> rfl

/-- `emb_read_rows`: the whole pending result, or its error. -/
def readRows : Bool × Connection Row :=
  match c.curData with
  | some (_, true) => (false, { c with curData := none, moreResults := false })
  | _ => (true, { c with curData := none })

/-- What one fetch returns. -/
inductive Fetched (Row : Type)
  | row (row : Row)
  | noData
  | error
  deriving DecidableEq, Repr

/-- `emb_unbuffered_fetch`.  `ok` is `false` where reading fails although no error is recorded.
    Behind the last row `cur_data` is set to the answer that stays in front of the queue. -/
def unbufferedFetch (ok : Bool) : Fetched Row × Connection Row :=
  match c.curData with
  | none => (.noData, c)
  | some (rows, failed) =>
    if failed || !ok then (.error, { c with curData := none, moreResults := false })
    else match rows with
      | [] => (.noData, { c with curData := none, stale := !c.firstData.isEmpty })
      | row :: rest => (.row row, { c with curData := some (rest, failed) })

/-- `mysql_next_result`: -1, an error, or the next answer. -/
inductive Next
  | noMore | error | ok
  deriving DecidableEq, Repr

/-- `mysql_next_result`. -/
def nextResult : Next × Connection Row :=
  if c.status ≠ .ready then (.error, c)
  else if c.moreResults then
    match c.readQueryResult with
    | (true, c) => (.ok, c)
    | (false, c) => (.error, c)
  else (.noMore, c)

/-- `mysql_store_result`, followed by `mysql_free_result`; `none` where there is no result set. -/
def storeResult : Option Bool × Connection Row :=
  if c.hasFields then
    if c.status ≠ .getResult then (some false, c)
    else
      let (ok, c) := c.readRows
      (some ok, { c with status := .ready })
  else (none, c)

/-- `mysql_query`. -/
def query (answers : List (Answer Row)) : Bool × Connection Row :=
  match c.advancedCommand answers with
  | (false, c) => (false, c)
  | (true, c) => c.readQueryResult

end Connection

end MyLite.Client

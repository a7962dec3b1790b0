import Mathlib.Data.List.TakeWhile
import MyLite.Api.Agreement

namespace MyLite.Php

open MyLite.Lib MyLite.Sql MyLite.Policy

/-!
# Which text is executed

A PHP string is counted and may have zero bytes in it.  `mylite_exec` takes a pointer, so what it
gates and hands to `mysql_query` ends at the first zero byte; `mylite_prepare` is given the length.

* `execText`, `prepareText` — the text that reaches MariaDB.
* `EntryPoint` — the functions and methods of the three extensions that run a statement.
* `wholeText_iff` — when a call executes its whole text or nothing.
-/

/-- The string a pointer to the bytes of a PHP string denotes; there is a zero behind them. -/
def cString (bytes : Text) : Text := bytes.takeWhile (· != byteNul)

/-- `mylite_exec`: the text `mysql_query` gets. -/
def execText (currentSchema sql : Text) : Option Text :=
  if rejects currentSchema (cString sql) then none else some (cString sql)

/-- `mylite_prepare`: the text `mysql_stmt_prepare` gets. -/
def prepareText (currentSchema sql : Text) : Option Text :=
  if rejects currentSchema sql then none
  else if tokenEquals (identifierTokenAt (collectSqlPolicyTokens sql) 0) "CALL" then none
  else some sql

/-- It is the text that `prepare_impl` hands over. -/
theorem only_prepareText (db : Api.MyliteDb) (sql : Text) :
    Dialogue.Only (fun c => ∀ text, c = .stmtPrepare text →
      prepareText db.currentSchema sql = some text) (fun _ => True) (Api.prepareImpl db sql) := by
  refine (Api.only_prepareImpl db sql).imp (fun c hc text htext => ?_) fun _ _ => trivial
  obtain ⟨rfl, hgate, hcall⟩ := hc text htext
  rw [prepareText, hgate, hcall]
  rfl

/-- `php_mylite_mysqli_is_call_query`. -/
def isCallQuery (sql : Text) : Bool :=
  match sql.dropWhile isSqlSpace with
  | c0 :: c1 :: c2 :: c3 :: rest =>
    fold [c0, c1, c2, c3] == ascii "CALL" && (rest.head?.map isSqlSpace).getD true
  | _ => false

/-- `php_mylite_mysqli_use_database_sql`. -/
def useDatabaseSql (database : Text) : Text :=
  ascii "USE " ++ byteBacktick ::
    (database.flatMap (fun b => if b == byteBacktick then [b, b] else [b]) ++ [byteBacktick])

/-- What runs a statement. -/
inductive EntryPoint
  /-- `MyLite\Connection::exec`. -/
  | connectionExec
  /-- `MyLite\Connection::query` and `prepare`. -/
  | connectionPrepare
  /-- `pdo_mylite_handle_doer`. -/
  | pdoExec
  /-- `pdo_mylite_handle_preparer`. -/
  | pdoPrepare
  /-- `php_mylite_mysqli_query_impl`. -/
  | mysqliQuery
  /-- `php_mylite_mysqli_prepare_impl`. -/
  | mysqliPrepare
  /-- `php_mylite_mysqli_select_database`. -/
  | mysqliSelectDb
  deriving DecidableEq, Repr

namespace EntryPoint

/-- The statement for the argument of a call. -/
def statement : EntryPoint → Text → Text
  | .mysqliSelectDb, database => useDatabaseSql database
  | _, sql => sql

/-- The statement goes through `mylite_exec`. -/
def executesDirectly : EntryPoint → Text → Bool
  | .connectionExec, _ | .pdoExec, _ | .mysqliSelectDb, _ => true
  | .mysqliQuery, sql => isCallQuery sql
  | .connectionPrepare, _ | .pdoPrepare, _ | .mysqliPrepare, _ => false

/-- The text that reaches MariaDB. -/
def handedText (e : EntryPoint) (currentSchema argument : Text) : Option Text :=
  if e.executesDirectly argument then execText currentSchema (e.statement argument)
  else prepareText currentSchema (e.statement argument)

/-- The text that is executed; `accepts` says what MariaDB does not refuse. -/
def executedText (e : EntryPoint) (currentSchema : Text) (accepts : Text → Bool) (argument : Text) :
    Option Text :=
  (e.handedText currentSchema argument).filter accepts

end EntryPoint

/-! ### Zero bytes -/

theorem nul_mem_flatMap_iff {database : Text} :
    byteNul ∈ database.flatMap (fun b => if b == byteBacktick then [b, b] else [b]) ↔
      byteNul ∈ database := by
  rw [List.mem_flatMap]
  constructor
  · rintro ⟨b, hb, hmem⟩
    split at hmem
    · next hquote =>
      rw [eq_of_beq hquote] at hmem
      exact absurd hmem (by decide)
    · rwa [List.mem_singleton.mp hmem]
  · intro hmem
    exact ⟨byteNul, hmem, List.mem_singleton_self byteNul⟩

/-- The statement has a zero byte exactly if the argument has. -/
theorem nul_mem_statement_iff (e : EntryPoint) (argument : Text) :
    byteNul ∈ e.statement argument ↔ byteNul ∈ argument := by
  cases e with
  | mysqliSelectDb =>
    show byteNul ∈ useDatabaseSql argument ↔ _
    unfold useDatabaseSql
    have huse : byteNul ∉ ascii "USE " := by decide
    have hquote : byteNul ≠ byteBacktick := by decide
    rw [List.mem_append, List.mem_cons, List.mem_append, List.mem_singleton, nul_mem_flatMap_iff]
    exact ⟨fun h => h.elim (absurd · huse) fun h => h.elim (absurd · hquote) fun h =>
      h.elim id (absurd · hquote), fun h => .inr (.inr (.inl h))⟩
  | _ => exact Iff.rfl

theorem cString_eq_self_iff {sql : Text} : cString sql = sql ↔ byteNul ∉ sql := by
  unfold cString
  rw [List.takeWhile_eq_self_iff]
  constructor
  · intro h hmem
    exact absurd (h byteNul hmem) (by decide)
  · rintro h b hb
    rw [bne_iff_ne]
    rintro rfl
    exact h hb

/-! ### The executed text -/

/-- **Whole texts.**  A call executes its whole statement or nothing, exactly if it goes through
    `mylite_prepare`, or there is no zero byte in its argument, or the gate or MariaDB refuses what
    is in front of the first one. -/
theorem wholeText_iff (e : EntryPoint) (currentSchema : Text) (accepts : Text → Bool)
    (argument : Text) :
    (∀ text, e.executedText currentSchema accepts argument = some text →
        text = e.statement argument) ↔
      (e.executesDirectly argument = true → byteNul ∉ argument ∨
        rejects currentSchema (cString (e.statement argument)) = true ∨
        accepts (cString (e.statement argument)) = false) := by
  unfold EntryPoint.executedText EntryPoint.handedText
  by_cases hdirect : e.executesDirectly argument = true
  · rw [if_pos hdirect, ← nul_mem_statement_iff e, ← cString_eq_self_iff]
    unfold execText
    by_cases hrejects : rejects currentSchema (cString (e.statement argument)) = true
    · rw [if_pos hrejects]
      exact ⟨fun _ _ => .inr (.inl hrejects), fun _ => nofun⟩
    · rw [if_neg hrejects, Option.filter_some]
      by_cases haccepts : accepts (cString (e.statement argument)) = true
      · rw [if_pos haccepts]
        constructor
        · exact fun h _ => .inl (h _ rfl)
        · intro h text htext
          rw [← Option.some.inj htext]
          exact (h hdirect).resolve_right fun hrefused => hrefused.elim hrejects
            fun hno => absurd (hno.symm.trans haccepts) Bool.false_ne_true
      · rw [if_neg haccepts]
        exact ⟨fun _ _ => .inr (.inr (Bool.eq_false_iff.mpr haccepts)), fun _ => nofun⟩
  · rw [if_neg hdirect]
    refine ⟨fun _ h => absurd h hdirect, fun _ text htext => ?_⟩
    unfold prepareText at htext
    split_ifs at htext
    · cases htext
    · cases htext
    · exact (Option.some.inj (Option.filter_eq_some_iff.mp htext).1).symm

/-- A condition behind a zero byte is not seen: every row is deleted. -/
theorem not_wholeText_delete :
    EntryPoint.connectionExec.executedText [] (fun _ => true)
        (ascii "DELETE FROM t" ++ 0 :: ascii " WHERE id = 1")
      = some (ascii "DELETE FROM t") ∧
    ¬∀ text, EntryPoint.connectionExec.executedText [] (fun _ => true)
        (ascii "DELETE FROM t" ++ 0 :: ascii " WHERE id = 1") = some text →
      text = ascii "DELETE FROM t" ++ 0 :: ascii " WHERE id = 1" := by
  have hexecuted : EntryPoint.connectionExec.executedText [] (fun _ => true)
      (ascii "DELETE FROM t" ++ 0 :: ascii " WHERE id = 1") = some (ascii "DELETE FROM t") := by
    decide
  exact ⟨hexecuted, fun h => absurd (h _ hexecuted) (by decide)⟩

end MyLite.Php

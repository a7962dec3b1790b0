import Mathlib.Algebra.GroupWithZero.Nat
import MyLite.Api.Frame

namespace MyLite.Api

open MyLite.Lib List
open MyLite.Prepared (ParameterBinding)
open Dialogue (Ensures Only Similar)

/-!
# Executions and resets

Whatever the backend answers, a statement is executed successfully at most once between two resets
that succeed, and behind such a reset it cannot be told from one that was just prepared.

* `Quiet` — a dialogue without an execution; every part of a step but the execution is.
* `executions_le_one` — at most one execution between two resets.
* `Alike` — statements that differ in the binds of an earlier execution only.
* `record_eq_of_reset` — a reset statement behaves like a new one.
-/

/-! ### Executions -/

/-- `mysql_stmt_execute`, with success. -/
def isExecution : Event → Bool
  | ⟨.execute, executed⟩ => executed
  | _ => false

/-- The successful executions in what was said. -/
def executions (said : List Event) : ℕ := said.countP isExecution

theorem executions_append (said said' : List Event) :
    executions (said ++ said') = executions said + executions said' := countP_append

/-- Nothing is executed, and `P` holds of what is returned. -/
abbrev Quiet {α : Type} (P : α → Prop) (d : Backend α) : Prop := Only (· ≠ .execute) P d

variable {said : List Event}

theorem executions_eq_zero (h : ∀ e ∈ said, e.1 ≠ .execute) : executions said = 0 := by
  refine countP_eq_zero.mpr fun e he => ?_
  obtain ⟨c, r⟩ := e
  cases c with
  | execute => exact absurd rfl (h _ he)
  | _ => exact Bool.false_ne_true

theorem quiet_ask {c : BackendCall} (h : c ≠ .execute) : Quiet (fun _ => True) (ask c) := Only.ask h

variable {α : Type}

theorem Silent.quiet {P : α → Prop} {d : Backend α} (h : Silent P d) : Quiet P d := by
  refine Only.imp h ?_ fun _ hP => hP
  rintro c hc rfl
  cases hc

/-- Nothing is executed, and the flag is as given. -/
abbrev Keeps (executed : Bool) (d : Backend (Result × MyliteStmt)) : Prop :=
  Quiet (fun r => r.2.executed = executed) d

variable {d : Backend (Result × MyliteStmt)}

theorem Framed.keeps {s : MyliteStmt} (h : Framed s d) :
    Keeps s.executed d := (Silent.quiet h).imp (fun _ hc => hc) fun _ hr => hr.1

namespace MyliteStmt

variable (s : MyliteStmt)

theorem keeps_finishExecution : Keeps s.executed s.finishExecution := by
  unfold finishExecution
  refine .ite (fun _ => Framed.keeps (framed_fetchStatementRow s.frame_refl)) fun _ => ?_
  exact .bind (quiet_ask nofun) fun affected _ => .pure rfl

/-- Behind the execution the flag is set before anything can fail. -/
theorem keeps_executionDone : Keeps true s.executionDone := by
  unfold executionDone
  refine .bind (quiet_ask nofun) fun insertId _ => ?_
  refine .ite (fun _ => keeps_finishExecution _) fun _ => ?_
  refine .bind (quiet_ask nofun) fun count _ => ?_
  refine .ite (fun _ => ?_) fun _ => keeps_finishExecution _
  refine .bind (Framed.keeps (framed_initializeStatementResults (frame_refl _) false)) ?_
  rintro ⟨code, s'⟩ hs'
  refine .ite (fun _ => ?_) fun _ => .pure hs'
  exact (keeps_finishExecution s').imp (fun _ hc => hc) fun _ hr => hr.trans hs'

/-- A reset clears the flag where it succeeds, and of the members only the parameters and their
    binds are left; otherwise the flag stays. -/
theorem quiet_myliteReset :
    Quiet (fun r => (r.1 = .ok → ∃ db, r.2 =
        { db := db, parameters := s.parameters, parameterBinds := s.parameterBinds }) ∧
      (r.1 ≠ .ok → r.2.executed = s.executed)) s.myliteReset := by
  unfold myliteReset
  refine .bind (silent_releaseStatementResults _).quiet fun s' hs' => ?_
  obtain rfl := hs'
  refine .bind (quiet_ask nofun) fun done _ => .ite (fun _ => ?_) fun _ => ?_
  · exact .pure ⟨fun _ => ⟨_, rfl⟩, fun h => absurd rfl h⟩
  · refine .bind (quiet_ask nofun) fun e _ => ?_
    exact .pure ⟨nofun, fun _ => rfl⟩

/-! ### At most one execution -/

/-- How many executions are left until the next reset. -/
def budget : ℕ := if s.executed then 0 else 1

end MyliteStmt

/-- The executions are taken from `n`, and what is left is enough for the statement that is
    returned. -/
def Spends {α : Type} (n : ℕ) (d : Backend (α × MyliteStmt)) : Prop :=
  Ensures (fun said returned => executions said ≤ n ∧
    ∀ r, returned = some r → executions said + r.2.budget ≤ n) d

variable {n : ℕ}

theorem Spends.pure {r : α × MyliteStmt} (h : r.2.budget ≤ n) :
    Spends n (Pure.pure r : Backend (α × MyliteStmt)) := by
  refine Ensures.pure ⟨Nat.zero_le n, fun r' hr' => ?_⟩
  obtain rfl := Option.some.inj hr'
  exact (Nat.zero_add _).trans_le h

/-- A quiet part in front. -/
theorem Quiet.spends_bind {β : Type} {P : α → Prop} {d : Backend α}
    {f : α → Backend (β × MyliteStmt)} (hd : Quiet P d) (hf : ∀ a, P a → Spends n (f a)) :
    Spends n (d >>= f) := by
  refine Ensures.bind hd
    (fun said h => ⟨(executions_eq_zero h.1).trans_le (Nat.zero_le n), nofun⟩)
    fun said a h => ?_
  refine Ensures.imp (hf a (h.2 a rfl)) fun said' returned h' => ?_
  rw [executions_append, executions_eq_zero h.1, Nat.zero_add]
  exact h'

/-- A quiet dialogue, where the flag stays set or nothing was spent before. -/
theorem Quiet.spends (h : Quiet (fun r => r.2.budget ≤ n) d) : Spends n d := by
  refine Ensures.imp h fun said returned hquiet => ?_
  rw [executions_eq_zero hquiet.1]
  exact ⟨Nat.zero_le n, fun r hr => (Nat.zero_add _).trans_le (hquiet.2 r hr)⟩

namespace MyliteStmt

variable (s : MyliteStmt)

theorem budget_le_one : s.budget ≤ 1 := by
  unfold budget
  split_ifs
  · exact Nat.zero_le 1
  · exact le_rfl

theorem budget_congr {s t : MyliteStmt} (h : s.executed = t.executed) : s.budget = t.budget := by
  unfold budget
  rw [h]

theorem executed_bind (index : ℕ) (parameter : Option ParameterBinding) :
    (s.bind index parameter).2.executed = s.executed := by
  unfold bind
  cases parameter with
  | none => rfl
  | some parameter =>
    dsimp only
    split_ifs
    · rfl
    · rfl

theorem executed_clearBindings : s.clearBindings.2.executed = s.executed := by
  unfold clearBindings
  split_ifs
  · rfl
  · rfl

theorem spends_andThen {s : MyliteStmt} {next : MyliteStmt → Backend (Result × MyliteStmt)}
    (hd : Framed s d) (hnext : ∀ s, Spends 1 (next s)) :
    Spends 1 (d >>= fun r => andThen r next) := by
  refine Quiet.spends_bind hd.quiet fun r _ => ?_
  unfold andThen
  by_cases hok : r.1 = .ok
  · rw [if_pos hok]
    exact hnext r.2
  · rw [if_neg hok]
    exact .pure r.2.budget_le_one

theorem ensures_mysqlStmtExecute : Ensures (fun said (executed : Option Bool) =>
    executions said = if executed = some true then 1 else 0) mysqlStmtExecute := by
  have hsaid : ∀ executed : Bool,
      executions [⟨.execute, executed⟩] = if some executed = some true then 1 else 0 := by
    intro executed
    cases executed with
    | false | true => rfl
  intro rs
  cases rs with
  | nil => rfl
  | cons r rs => exact hsaid (r .execute)

/-- The one call of `mysql_stmt_execute`: where it succeeds, nothing is left to spend. -/
theorem spends_execute : Spends 1 (mysqlStmtExecute >>= fun executed =>
    if executed then s.executionDone else s.failWithStatementError) := by
  refine Ensures.bind ensures_mysqlStmtExecute
    (fun said h => ⟨h.trans_le (Nat.zero_le 1), fun _ hr => nomatch hr⟩) fun said executed h => ?_
  cases executed with
  | false =>
    refine Ensures.imp (Framed.keeps (framed_failWithStatementError s.frame_refl)) ?_
    intro said' returned h'
    rw [executions_append, h, executions_eq_zero h'.1]
    refine ⟨Nat.zero_le 1, fun r _ => ?_⟩
    exact (Nat.zero_add _).trans_le r.2.budget_le_one
  | true =>
    refine Ensures.imp s.keeps_executionDone fun said' returned h' => ?_
    rw [executions_append, h, executions_eq_zero h'.1]
    refine ⟨le_rfl, fun r hr => ?_⟩
    unfold budget
    rw [h'.2 r hr]
    exact le_rfl

/-- The executing part of a step. -/
theorem spends_executeStatement : Spends 1 s.executeStatement := by
  unfold executeStatement
  refine spends_andThen (framed_bindParameters s.frame_refl) fun s₁ => ?_
  exact spends_andThen (framed_initializeStatementResults s₁.frame_refl true)
    fun s₂ => s₂.spends_execute

theorem spends_myliteStep : Spends s.budget s.myliteStep := by
  unfold myliteStep
  cases hs : s.executed with
  | false =>
    have hbudget : s.budget = 1 := by
      unfold budget
      rw [hs]
      rfl
    have hset : (!(s.withDiagnostics setOk).executed) = true := congrArg (!·) hs
    rw [hbudget, if_pos hset]
    exact spends_executeStatement _
  | true =>
    have hset : ¬(!(s.withDiagnostics setOk).executed) = true := by
      show ¬(!s.executed) = true
      rw [hs]
      decide
    rw [if_neg hset]
    have hfetch := Framed.keeps (framed_fetchStatementRow (s.withDiagnostics setOk).frame_refl)
    have hkeeps : Keeps s.executed (if (s.withDiagnostics setOk).hasResult then
        (s.withDiagnostics setOk).fetchStatementRow else pure (.done, s.withDiagnostics setOk)) :=
      .ite (fun _ => hfetch) fun _ => .pure rfl
    exact Quiet.spends (hkeeps.imp (fun _ hc => hc) fun r hr => (budget_congr hr).le)

end MyliteStmt

/-- `mylite_reset` with `MYLITE_OK`. -/
def Entry.IsReset (e : Entry) : Prop := e.call = .reset ∧ e.returned = some (.code .ok)

/-- The executions of a part of a record. -/
def totalExecutions (entries : List Entry) : ℕ := (entries.map fun e => executions e.said).sum

variable (numbers : Numbers)

variable {part : List Entry}

/-- **One call.** Unless it is a reset that succeeds, a call executes no more often than is left,
    and leaves the rest. -/
theorem spends_call (s : MyliteStmt) (c : Call) :
    Ensures (fun said returned => executions said ≤ s.budget ∧ ∀ r, returned = some r →
      ¬(c = .reset ∧ r.1 = .code .ok) → executions said + r.2.budget ≤ s.budget)
      (call numbers s c) := by
  -- All calls but a reset are settled by what they spend.
  have hspends : ∀ {d : Backend (Returned × MyliteStmt)}, Spends s.budget d →
      Ensures (fun said returned => executions said ≤ s.budget ∧ ∀ r, returned = some r →
        ¬(c = .reset ∧ r.1 = .code .ok) → executions said + r.2.budget ≤ s.budget) d :=
    fun h => Ensures.imp h fun _ _ hd => ⟨hd.1, fun r hr _ => hd.2 r hr⟩
  have hread : ∀ r : Returned, Spends s.budget (pure (r, s) : Backend (Returned × MyliteStmt)) :=
    fun _ => .pure le_rfl
  cases c with
  | bind index parameter =>
    refine hspends (.pure (MyliteStmt.budget_congr ?_).le)
    exact s.executed_bind index parameter
  | clearBindings => exact hspends (.pure (MyliteStmt.budget_congr s.executed_clearBindings).le)
  | step =>
    refine hspends ?_
    refine Ensures.bind s.spends_myliteStep (fun said h => ⟨h.1, fun _ hr => nomatch hr⟩)
      fun said r h => ?_
    refine Ensures.pure ⟨(append_nil said).symm ▸ h.1, fun r' hr' => ?_⟩
    obtain rfl := Option.some.inj hr'
    rw [append_nil]
    exact h.2 r rfl
  | reset =>
    refine Ensures.bind s.quiet_myliteReset
      (fun said h => ⟨(executions_eq_zero h.1).trans_le (Nat.zero_le _), fun _ hr => nomatch hr⟩)
      fun said r h => ?_
    refine Ensures.pure ?_
    rw [append_nil, executions_eq_zero h.1]
    refine ⟨Nat.zero_le _, fun r' hr' hnot => ?_⟩
    obtain rfl := Option.some.inj hr'
    have hfailed : r.1 ≠ .ok := fun hok => hnot ⟨rfl, congrArg Returned.code hok⟩
    exact (Nat.zero_add _).trans_le (MyliteStmt.budget_congr ((h.2 r rfl).2 hfailed)).le
  | columnCount =>
    have hquiet : Quiet (fun _ => True) s.columnCount :=
      .ite (fun _ => quiet_ask nofun) fun _ => .pure trivial
    exact hspends (hquiet.spends_bind fun _ _ => .pure le_rfl)
  | _ => exact hspends (hread _)

/-- From the beginning of a record up to the first successful reset. -/
theorem totalExecutions_le_budget (calls : List Call) (s : MyliteStmt) (rs : List (∀ c, Reply c))
    (hpart : part <+: record numbers calls s rs) (hreset : ∀ e ∈ part, ¬e.IsReset) :
    totalExecutions part ≤ s.budget := by
  induction calls generalizing s rs part with
  | nil =>
    rw [record, prefix_nil] at hpart
    subst hpart
    exact Nat.zero_le _
  | cons c calls ih =>
    cases part with
    | nil => exact Nat.zero_le _
    | cons e part =>
      obtain ⟨hsaid, hleft⟩ := spends_call numbers s c rs
      rcases record_cons_cases numbers c calls s rs with
        ⟨said, hcall, hrecord⟩ | ⟨said, returned, s', rs', hcall, hrecord⟩
      · rw [hcall] at hsaid
        rw [hrecord] at hpart
        obtain ⟨rfl, hnil⟩ := cons_prefix_cons.mp hpart
        rw [prefix_nil] at hnil
        subst hnil
        exact hsaid
      · rw [hcall] at hleft
        rw [hrecord] at hpart
        obtain ⟨rfl, hrest⟩ := cons_prefix_cons.mp hpart
        rw [forall_mem_cons] at hreset
        have hrest' := ih s' rs' hrest hreset.2
        have hentry := hleft (returned, s') rfl fun h => hreset.1 ⟨h.1, congrArg some h.2⟩
        show executions said + totalExecutions part ≤ _
        exact (Nat.add_le_add_left hrest' _).trans hentry

/-- The same from any place of a record on. -/
theorem totalExecutions_le_one (calls : List Call) (s : MyliteStmt) (rs : List (∀ c, Reply c))
    (hpart : part <:+: record numbers calls s rs) (hreset : ∀ e ∈ part, ¬e.IsReset) :
    totalExecutions part ≤ 1 := by
  induction calls generalizing s rs with
  | nil =>
    rw [record, infix_nil] at hpart
    subst hpart
    exact Nat.zero_le 1
  | cons c calls ih =>
    -- The part begins with this call, or it is a part of what follows.
    by_cases hfront : part <+: record numbers (c :: calls) s rs
    · exact (totalExecutions_le_budget numbers _ s rs hfront hreset).trans s.budget_le_one
    · rcases record_cons_cases numbers c calls s rs with
        ⟨said, -, hrecord⟩ | ⟨said, returned, s', rs', -, hrecord⟩
      · rw [hrecord] at hpart hfront
        have hnil := (infix_cons_iff.mp hpart).resolve_left hfront
        rw [infix_nil] at hnil
        subst hnil
        exact Nat.zero_le 1
      · rw [hrecord] at hpart hfront
        exact ih s' rs' ((infix_cons_iff.mp hpart).resolve_left hfront)

/-- A backend where everything succeeds and no statement has a result. -/
def Reply.success : ∀ c, Reply c
  | .bindParam _ | .bindResult _ | .execute | .storeResult | .freeResult | .reset => true
  | .allocate _ => true
  | .resultMetadata => none
  | .fieldCount | .insertId | .affectedRows => (0 : ℕ)
  | .fetch => Fetch.noData
  | .fetchColumn _ _ => none
  | .nextResult => NextResult.noMore
  | .freeMetadata => ()
  | .stmtError => ({ errno := 0, sqlstate := [], message := [] } : ClientError)

/-- Numbers are not looked at. -/
def Numbers.zero : Numbers where
  strtoll _ := 0
  strtoull _ := 0
  strtod _ := 0

/-! ### A reset statement and a new one -/

/-- The same, but for the binds that were handed over in an earlier execution. -/
def Alike (s t : MyliteStmt) : Prop := ∃ binds, t = { s with parameterBinds := binds }

/-- The same code, and statements that are alike. -/
def AlikeResult {α : Type} (p q : α × MyliteStmt) : Prop := p.1 = q.1 ∧ Alike p.2 q.2

namespace MyliteStmt

variable {s t : MyliteStmt}

/-- Every bind is written over before it is handed over. -/
theorem copyBinds_eq {binds parameters : List ParameterBinding}
    (h : binds.length = parameters.length) : copyBinds binds parameters = parameters := by
  unfold copyBinds
  apply ext_getElem
  · rw [length_mapIdx, h]
  · intro index _ hindex
    rw [getElem_mapIdx, getD_eq_getElem?_getD, List.getElem?_eq_getElem hindex,
      Option.getD_some]

theorem similar_failWithStatementError (h : Alike s t) :
    Similar AlikeResult s.failWithStatementError t.failWithStatementError := by
  obtain ⟨binds, rfl⟩ := h
  exact .bind_same fun e => .pure ⟨rfl, binds, rfl⟩

theorem similar_andThen {e : Backend (Result × MyliteStmt)}
    {next next' : MyliteStmt → Backend (Result × MyliteStmt)} (hde : Similar AlikeResult d e)
    (hnext : ∀ s t, Alike s t → Similar AlikeResult (next s) (next' t)) :
    Similar AlikeResult (d >>= fun r => andThen r next) (e >>= fun r => andThen r next') := by
  refine .bind hde ?_
  rintro ⟨code, s⟩ ⟨_, t⟩ ⟨rfl, h⟩
  exact .ite (hnext s t h) (.pure ⟨rfl, h⟩)

theorem similar_releaseStatementResults (h : Alike s t) :
    Similar Alike s.releaseStatementResults t.releaseStatementResults := by
  obtain ⟨binds, rfl⟩ := h
  exact .bind_same fun _ => .bind_same fun _ => .pure ⟨binds, rfl⟩

/-- What the earlier binds were does not matter. -/
theorem similar_bindParameters (h : Alike s t) :
    Similar AlikeResult s.bindParameters t.bindParameters := by
  obtain ⟨binds, rfl⟩ := h
  unfold bindParameters
  have hcopy : ∀ old : List ParameterBinding,
      copyBinds (old.takeD s.parameters.length .null) s.parameters = s.parameters :=
    fun old => copyBinds_eq (takeD_length _ _ _)
  refine .ite (.pure ⟨rfl, binds, rfl⟩) ?_
  dsimp only
  rw [hcopy, hcopy]
  refine .bind_same fun bound => .ite (.pure ⟨rfl, s.parameters, rfl⟩) ?_
  exact similar_failWithStatementError ⟨s.parameters, rfl⟩

theorem similar_configureColumns (fields : List MysqlField) (index : ℕ) (h : Alike s t) :
    Similar AlikeResult (configureColumns fields index s) (configureColumns fields index t) := by
  induction fields generalizing index s t with
  | nil => exact .pure ⟨rfl, h⟩
  | cons field fields ih =>
    obtain ⟨binds, rfl⟩ := h
    refine .bind_same fun allocated => .ite (.pure ⟨rfl, binds, rfl⟩) ?_
    exact ih (index + 1) ⟨binds, rfl⟩

theorem similar_setUpResults (h : Alike s t) :
    Similar AlikeResult s.setUpResults t.setUpResults := by
  obtain ⟨binds, rfl⟩ := h
  refine .bind_same fun metadata => ?_
  cases metadata with
  | none =>
    refine .bind_same fun count => .ite ?_ (.pure ⟨rfl, binds, rfl⟩)
    exact similar_failWithStatementError ⟨binds, rfl⟩
  | some fields =>
    refine similar_andThen (similar_configureColumns fields 0 ⟨binds, rfl⟩) ?_
    rintro s _ ⟨binds, rfl⟩
    refine .bind_same fun bound => .ite (.pure ⟨rfl, binds, rfl⟩) ?_
    exact similar_failWithStatementError ⟨binds, rfl⟩

theorem similar_initializeStatementResults (h : Alike s t) (releaseExistingResults : Bool) :
    Similar AlikeResult (s.initializeStatementResults releaseExistingResults)
      (t.initializeStatementResults releaseExistingResults) := by
  refine .ite ?_ (similar_setUpResults h)
  exact .bind (similar_releaseStatementResults h) fun _ _ h' => similar_setUpResults h'

theorem similar_refreshDirtyResultBinds (h : Alike s t) :
    Similar AlikeResult s.refreshDirtyResultBinds t.refreshDirtyResultBinds := by
  obtain ⟨binds, rfl⟩ := h
  refine .ite (.pure ⟨rfl, binds, rfl⟩) ?_
  refine .bind_same fun bound => .ite (.pure ⟨rfl, binds, rfl⟩) ?_
  exact similar_failWithStatementError ⟨binds, rfl⟩

theorem similar_drainRemainingStatementResults (h : Alike s t) :
    Similar AlikeResult s.drainRemainingStatementResults t.drainRemainingStatementResults := by
  refine .bind_same fun result => .ite (.pure ⟨rfl, h⟩) ?_
  exact similar_failWithStatementError h

theorem similar_fetchTruncatedColumns (indices : List ℕ) (h : Alike s t) :
    Similar AlikeResult (fetchTruncatedColumns indices s) (fetchTruncatedColumns indices t) := by
  induction indices generalizing s t with
  | nil => exact .pure ⟨rfl, h⟩
  | cons index indices ih =>
    obtain ⟨binds, rfl⟩ := h
    unfold fetchTruncatedColumns
    refine .ite (ih ⟨binds, rfl⟩) (.ite (.pure ⟨rfl, binds, rfl⟩) ?_)
    refine .bind_same fun allocated => .ite (.pure ⟨rfl, binds, rfl⟩) ?_
    refine .bind_same fun fetched => ?_
    cases fetched with
    | none => exact similar_failWithStatementError ⟨binds, rfl⟩
    | some cell => exact ih ⟨binds, rfl⟩

section

variable (h : Alike s t)

include h

theorem similar_completeRow (truncated : Bool) :
    Similar AlikeResult (s.completeRow truncated) (t.completeRow truncated) := by
  refine .ite ?_ (.pure ⟨rfl, h⟩)
  obtain ⟨binds, rfl⟩ := h
  exact similar_fetchTruncatedColumns _ ⟨binds, rfl⟩

theorem similar_fetchBound : Similar AlikeResult s.fetchBound t.fetchBound := by
  obtain ⟨binds, rfl⟩ := h
  refine .bind_same fun fetched => ?_
  cases fetched with
  | noData =>
    refine similar_andThen (similar_drainRemainingStatementResults ⟨binds, rfl⟩) ?_
    rintro s _ ⟨binds, rfl⟩
    exact .pure ⟨rfl, binds, rfl⟩
  | failed => exact similar_failWithStatementError ⟨binds, rfl⟩
  | row truncated cells =>
    refine similar_andThen (similar_completeRow ⟨binds, rfl⟩ truncated) ?_
    rintro s _ ⟨binds, rfl⟩
    exact .pure ⟨rfl, binds, rfl⟩

theorem similar_fetchStatementRow : Similar AlikeResult s.fetchStatementRow t.fetchStatementRow :=
  similar_andThen (similar_refreshDirtyResultBinds h) fun _ _ h' => similar_fetchBound h'

theorem similar_finishExecution : Similar AlikeResult s.finishExecution t.finishExecution := by
  obtain ⟨binds, rfl⟩ := h
  refine .ite (similar_fetchStatementRow ⟨binds, rfl⟩) ?_
  exact .bind_same fun affected => .pure ⟨rfl, binds, rfl⟩

theorem similar_executionDone : Similar AlikeResult s.executionDone t.executionDone := by
  obtain ⟨binds, rfl⟩ := h
  refine .bind_same fun insertId => .ite (similar_finishExecution ⟨binds, rfl⟩) ?_
  refine .bind_same fun count => .ite ?_ (similar_finishExecution ⟨binds, rfl⟩)
  refine similar_andThen (similar_initializeStatementResults ⟨binds, rfl⟩ false) ?_
  exact fun _ _ h' => similar_finishExecution h'

theorem similar_executeStatement : Similar AlikeResult s.executeStatement t.executeStatement := by
  refine similar_andThen (similar_bindParameters h) fun s₁ t₁ h₁ => ?_
  refine similar_andThen (similar_initializeStatementResults h₁ true) fun s₂ t₂ h₂ => ?_
  refine .bind_same fun executed => ?_
  exact .ite (similar_executionDone h₂) (similar_failWithStatementError h₂)

theorem similar_myliteStep : Similar AlikeResult s.myliteStep t.myliteStep := by
  obtain ⟨binds, rfl⟩ := h
  refine .ite (similar_executeStatement ⟨binds, rfl⟩) ?_
  exact .ite (similar_fetchStatementRow ⟨binds, rfl⟩) (.pure ⟨rfl, binds, rfl⟩)

theorem similar_myliteReset : Similar AlikeResult s.myliteReset t.myliteReset := by
  obtain ⟨binds, rfl⟩ := h
  refine .bind (similar_releaseStatementResults ⟨binds, rfl⟩) ?_
  rintro s _ ⟨binds, rfl⟩
  refine .bind_same fun done => .ite (.pure ⟨rfl, binds, rfl⟩) ?_
  exact similar_failWithStatementError ⟨binds, rfl⟩

theorem alike_bind (index : ℕ) (parameter : Option ParameterBinding) :
    AlikeResult (s.bind index parameter) (t.bind index parameter) := by
  obtain ⟨binds, rfl⟩ := h
  unfold bind
  cases parameter with
  | none => exact ⟨rfl, binds, rfl⟩
  | some parameter =>
    dsimp only
    split_ifs
    · exact ⟨rfl, binds, rfl⟩
    · exact ⟨rfl, binds, rfl⟩

theorem alike_clearBindings : AlikeResult s.clearBindings t.clearBindings := by
  obtain ⟨binds, rfl⟩ := h
  unfold clearBindings
  dsimp only
  split_ifs
  · exact ⟨rfl, binds, rfl⟩
  · exact ⟨rfl, binds, rfl⟩

end

end MyliteStmt

theorem AlikeResult.code {p q : Result × MyliteStmt} (h : AlikeResult p q) :
    AlikeResult (p.map Returned.code id) (q.map Returned.code id) :=
  ⟨congrArg Returned.code h.1, h.2⟩

/-- **One call** on statements that are alike. -/
theorem similar_call {s t : MyliteStmt} (h : Alike s t) (c : Call) :
    Similar AlikeResult (call numbers s c) (call numbers t c) := by
  cases c with
  | bind index parameter => exact .pure (MyliteStmt.alike_bind h index parameter).code
  | clearBindings => exact .pure (MyliteStmt.alike_clearBindings h).code
  | step => exact .bind (MyliteStmt.similar_myliteStep h) fun _ _ h' => .pure h'.code
  | reset => exact .bind (MyliteStmt.similar_myliteReset h) fun _ _ h' => .pure h'.code
  | columnCount =>
    obtain ⟨binds, rfl⟩ := h
    exact .bind_same fun count => .pure ⟨rfl, binds, rfl⟩
  | _ =>
    obtain ⟨binds, rfl⟩ := h
    exact .pure ⟨rfl, binds, rfl⟩

/-- **A sequence of calls** on statements that are alike. -/
theorem record_congr (calls : List Call) {s t : MyliteStmt} (h : Alike s t)
    (rs : List (∀ c, Reply c)) : record numbers calls s rs = record numbers calls t rs := by
  induction calls generalizing s t rs with
  | nil => rfl
  | cons c calls ih =>
    obtain ⟨hsaid, hnext⟩ := similar_call numbers h c rs
    rcases record_cons_cases numbers c calls s rs with
      ⟨said, hs, hrecord⟩ | ⟨said, returned, s', rs₁, hs, hrecord⟩
    · rcases record_cons_cases numbers c calls t rs with
        ⟨said', ht, hrecord'⟩ | ⟨said', returned', t', rs₂, ht, hrecord'⟩
      · rw [hs, ht] at hsaid
        rw [hrecord, hrecord', show said = said' from hsaid]
      · rw [hs, ht] at hnext
        cases hnext
    · rcases record_cons_cases numbers c calls t rs with
        ⟨said', ht, hrecord'⟩ | ⟨said', returned', t', rs₂, ht, hrecord'⟩
      · rw [hs, ht] at hnext
        cases hnext
      · rw [hs, ht] at hsaid hnext
        cases hnext with
        | some hab =>
          obtain ⟨⟨hreturned, halike⟩, hrs⟩ := hab
          obtain rfl : returned = returned' := hreturned
          obtain rfl : rs₁ = rs₂ := hrs
          rw [hrecord, hrecord', show said = said' from hsaid, ih halike]

/-- The parameters are bound one after another, from an index on. -/
def MyliteStmt.bindAll (s : MyliteStmt) (index : ℕ) : List ParameterBinding → MyliteStmt
  | [] => s
  | parameter :: parameters => (s.bind index (some parameter)).2.bindAll (index + 1) parameters

theorem MyliteStmt.bindAll_eq (db : Db) (bound parameters : List ParameterBinding) :
    MyliteStmt.bindAll
      { db := db, parameters := bound ++ List.replicate parameters.length .null }
      (bound.length + 1) parameters = { db := db, parameters := bound ++ parameters } := by
  induction parameters generalizing bound with
  | nil => rfl
  | cons parameter parameters ih =>
    have hrange : ¬((bound.length + 1 = 0 || (bound ++ List.replicate (parameters.length + 1)
        ParameterBinding.null).length < bound.length + 1 || false) = true) := by
      simp
    have hset : (bound ++ List.replicate (parameters.length + 1) ParameterBinding.null).set
        bound.length parameter =
          bound ++ [parameter] ++ List.replicate parameters.length .null := by
      simp [replicate_succ]
    have hrest := ih (bound ++ [parameter])
    rw [length_append, length_singleton, append_assoc _ [parameter] parameters,
      singleton_append] at hrest
    rw [bindAll, bind, length_cons]
    dsimp only
    rw [if_neg hrange, Nat.add_sub_cancel, hset]
    exact hrest

theorem MyliteStmt.bindAll_prepared (db : Db) (parameters : List ParameterBinding) :
    (prepared db parameters.length).bindAll 1 parameters = { db := db, parameters := parameters } :=
  MyliteStmt.bindAll_eq db [] parameters

/-- What a successful reset leaves. -/
theorem MyliteStmt.alike_of_myliteReset {s s' : MyliteStmt} {rs rs' : List (∀ c, Reply c)}
    (h : s.myliteReset rs = (said, some ((.ok, s'), rs'))) :
    Alike { db := s'.db, parameters := s'.parameters } s' := by
  have hquiet := s.quiet_myliteReset rs
  rw [h] at hquiet
  obtain ⟨db, hs'⟩ := (hquiet.2 (.ok, s') rfl).1 rfl
  obtain rfl : s' = _ := hs'
  exact ⟨s.parameterBinds, rfl⟩

/-- **Reset restores a new statement.** Whatever happened before, behind a reset that succeeds every
    sequence of calls has the same record as on a statement that was just prepared, with the same
    parameters bound: the same backend calls and, on the same answers, the same results. -/
theorem record_eq_of_reset (numbers : Numbers) (s s' : MyliteStmt) (rs rs' : List (∀ c, Reply c))
    (said : List Event) (hreset : s.myliteReset rs = (said, some ((.ok, s'), rs')))
    (calls : List Call) (answers : List (∀ c, Reply c)) :
    record numbers calls s' answers = record numbers calls
      ((prepared s'.db s'.parameters.length).bindAll 1 s'.parameters) answers := by
  rw [MyliteStmt.bindAll_prepared]
  exact (record_congr numbers calls (MyliteStmt.alike_of_myliteReset hreset) answers).symm

/-- A statement that was executed with a parameter. -/
def executedOnce : MyliteStmt :=
  { parameters := [.int64Value 7], parameterBinds := [.int64Value 7], executed := true }

/-- It is reset and executed again. -/
theorem record_eq_of_reset_executedOnce :
    record .zero [.step, .columnCount]
        { executedOnce with db := { diagnostics := setOk }, executed := false }
        (List.replicate 8 Reply.success) =
      record .zero [.step, .columnCount]
        ((prepared { diagnostics := setOk } 1).bindAll 1 [.int64Value 7])
        (List.replicate 8 Reply.success) :=
  record_eq_of_reset .zero executedOnce _ [Reply.success] [] [⟨.reset, true⟩] rfl _ _

end MyLite.Api

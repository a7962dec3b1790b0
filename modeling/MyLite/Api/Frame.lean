import MyLite.Api.Statement
import MyLite.Lib.Environment

namespace MyLite.Api

open MyLite.Lib
open Dialogue (Only Under after_observe)

/-!
# What the parts of a step leave alone

Around the execution, the parts of `mylite_step` and `mylite_reset` neither execute nor ask for the
numbers of an execution, and of the handle they write the diagnostics only, with an error that they
return.  The results on executions, diagnostics and numbers start from this.

* `isSilent` — the calls they make.
* `Frame` — what they leave, and `Framed` — a part that leaves it whatever the backend answers.
* `framed_bindParameters`, `framed_initializeStatementResults`, `framed_fetchStatementRow` — the
  three parts around an execution.
* `Counts` — what `mylite_changes` and `mylite_last_insert_id` return.
* `told_myliteStep` — behind a step, the diagnostics tell what was returned, and the two numbers are
  those of the answers.
-/

/-- The codes of errors. -/
def Result.isError : Result → Bool
  | .ok | .row | .done => false
  | _ => true

/-- A part of the code has returned this code: an error is in the diagnostics, and otherwise they
    are as before. -/
def Reports (before : Diagnostics) (code : Result) (after : Diagnostics) : Prop :=
  if code.isError then after.errcode = code else after = before

/-- A call that neither executes nor asks for the numbers of an execution. -/
def BackendCall.isSilent : BackendCall → Bool
  | .execute | .insertId | .affectedRows => false
  | _ => true

/-- Only silent calls are made, and `P` holds of what is returned. -/
abbrev Silent {α : Type} (P : α → Prop) (d : Backend α) : Prop := Only (·.isSilent = true) P d

/-- Behind a part that returned `r`, the flag of the execution and the two numbers of the handle
    are as before, and so are the diagnostics unless `r` is an error. -/
def Frame (before : MyliteStmt) (r : Result × MyliteStmt) : Prop :=
  r.2.executed = before.executed ∧ r.2.db.changes = before.db.changes ∧
    r.2.db.lastInsertId = before.db.lastInsertId ∧
    Reports before.db.diagnostics r.1 r.2.db.diagnostics

/-- A part of the code that keeps the frame of a statement. -/
abbrev Framed (before : MyliteStmt) (d : Backend (Result × MyliteStmt)) : Prop :=
  Silent (Frame before) d

theorem silent_ask {c : BackendCall} (h : c.isSilent = true) : Silent (fun _ => True) (ask c) :=
  Only.ask h

theorem silent_askIf (b : Bool) {c : BackendCall} (h : c.isSilent = true) :
    Silent (fun _ => True) (askIf b c) := by
  unfold askIf
  refine .ite (fun _ => ?_) fun _ => .pure trivial
  exact .bind (silent_ask h) fun _ _ => .pure trivial

namespace MyliteStmt

theorem frame_refl (s : MyliteStmt) : Frame s (.ok, s) := ⟨rfl, rfl, rfl, rfl⟩

variable {before s : MyliteStmt}

theorem frame_failWith (hs : Frame before (.ok, s)) {code : Result} (hcode : code.isError = true)
    (message : String) : Frame before (s.failWith code message) := by
  refine ⟨hs.1, hs.2.1, hs.2.2.1, ?_⟩
  rw [Reports, if_pos (show (s.failWith code message).1.isError = true from hcode)]
  rfl

theorem framed_failWithStatementError (hs : Frame before (.ok, s)) :
    Framed before s.failWithStatementError :=
  .bind (silent_ask rfl) fun _ _ => .pure ⟨hs.1, hs.2.1, hs.2.2.1, rfl⟩

/-- Parts one behind the other. -/
theorem framed_andThen {d : Backend (Result × MyliteStmt)}
    {next : MyliteStmt → Backend (Result × MyliteStmt)} (hd : Framed before d)
    (hnext : ∀ s, Frame before (.ok, s) → Framed before (next s)) :
    Framed before (d >>= fun r => andThen r next) := by
  refine .bind hd fun r hr => ?_
  unfold andThen
  refine .ite (fun hok => hnext r.2 ?_) fun _ => .pure hr
  rwa [← hok]

theorem silent_releaseStatementResults (s : MyliteStmt) :
    Silent (fun s' => s' = { s with
      metadata := none, columns := [], resultBinds := [], resultBindsDirty := false
      hasResult := false, hasRow := false }) s.releaseStatementResults := by
  unfold releaseStatementResults
  refine .bind (silent_askIf s.hasResult rfl) fun _ _ => ?_
  exact .bind (silent_askIf s.metadata.isSome rfl) fun _ _ => .pure rfl

theorem framed_bindParameters (hs : Frame before (.ok, s)) : Framed before s.bindParameters := by
  unfold bindParameters
  refine .ite (fun _ => .pure hs) fun _ => ?_
  refine .bind (silent_ask rfl) fun bound _ => ?_
  exact .ite (fun _ => .pure hs) fun _ => framed_failWithStatementError hs

theorem silent_allocateColumnBuffer (n : ℕ) : Silent (fun _ => True) (allocateColumnBuffer n) := by
  unfold allocateColumnBuffer
  exact .ite (fun _ => .pure trivial) fun _ => silent_ask rfl

theorem framed_configureColumns (fields : List MysqlField) (index : ℕ)
    (hs : Frame before (.ok, s)) : Framed before (configureColumns fields index s) := by
  induction fields generalizing index s with
  | nil => exact .pure hs
  | cons field fields ih =>
    unfold configureColumns
    refine .bind (silent_allocateColumnBuffer _) fun allocated _ => ?_
    exact .ite (fun _ => .pure (frame_failWith hs rfl _)) fun _ => ih (index + 1) hs

theorem framed_setUpResults (hs : Frame before (.ok, s)) : Framed before s.setUpResults := by
  unfold setUpResults
  refine .bind (silent_ask rfl) fun metadata _ => ?_
  cases metadata with
  | none =>
    refine .bind (silent_ask rfl) fun count _ => ?_
    exact .ite (fun _ => framed_failWithStatementError hs) fun _ => .pure hs
  | some fields =>
    refine framed_andThen (framed_configureColumns fields 0 hs) fun s hs => ?_
    refine .bind (silent_ask rfl) fun bound _ => ?_
    exact .ite (fun _ => .pure hs) fun _ => framed_failWithStatementError hs

theorem framed_initializeStatementResults (hs : Frame before (.ok, s))
    (releaseExistingResults : Bool) :
    Framed before (s.initializeStatementResults releaseExistingResults) := by
  unfold initializeStatementResults
  refine .ite (fun _ => ?_) fun _ => framed_setUpResults hs
  refine .bind (silent_releaseStatementResults s) fun s' hs' => ?_
  obtain rfl := hs'
  exact framed_setUpResults hs

theorem framed_refreshDirtyResultBinds (hs : Frame before (.ok, s)) :
    Framed before s.refreshDirtyResultBinds := by
  unfold refreshDirtyResultBinds
  refine .ite (fun _ => .pure hs) fun _ => ?_
  refine .bind (silent_ask rfl) fun bound _ => ?_
  exact .ite (fun _ => .pure hs) fun _ => framed_failWithStatementError hs

theorem silent_drainTurn : Silent (fun _ => True) drainTurn := by
  unfold drainTurn
  refine .bind (silent_ask rfl) fun next _ => ?_
  cases next with
  | noMore | failed => exact .pure trivial
  | ok =>
    refine .bind (silent_ask rfl) fun count _ => .ite (fun _ => .pure trivial) fun _ => ?_
    refine .bind (silent_ask rfl) fun stored _ => .ite (fun _ => .pure trivial) fun _ => ?_
    refine .bind (silent_ask rfl) fun freed _ => ?_
    exact .ite (fun _ => .pure trivial) fun _ => .pure trivial

theorem framed_drainRemainingStatementResults (hs : Frame before (.ok, s)) :
    Framed before s.drainRemainingStatementResults := by
  unfold drainRemainingStatementResults
  refine .bind (.loop silent_drainTurn) fun result _ => ?_
  exact .ite (fun _ => .pure hs) fun _ => framed_failWithStatementError hs

theorem framed_fetchTruncatedColumns (indices : List ℕ) (hs : Frame before (.ok, s)) :
    Framed before (fetchTruncatedColumns indices s) := by
  induction indices generalizing s with
  | nil => exact .pure hs
  | cons index indices ih =>
    unfold fetchTruncatedColumns
    refine .ite (fun _ => ih hs) fun _ => ?_
    refine .ite (fun _ => .pure (frame_failWith hs rfl _)) fun _ => ?_
    refine .bind (silent_allocateColumnBuffer _) fun allocated _ => ?_
    refine .ite (fun _ => .pure (frame_failWith hs rfl _)) fun _ => ?_
    refine .bind (silent_ask rfl) fun fetched _ => ?_
    cases fetched with
    | none => exact framed_failWithStatementError hs
    | some cell => exact ih hs

theorem framed_completeRow (hs : Frame before (.ok, s)) (truncated : Bool) :
    Framed before (s.completeRow truncated) :=
  .ite (fun _ => framed_fetchTruncatedColumns _ hs) fun _ => .pure hs

theorem framed_fetchBound (hs : Frame before (.ok, s)) : Framed before s.fetchBound := by
  unfold fetchBound
  refine .bind (silent_ask rfl) fun fetched _ => ?_
  cases fetched with
  | noData =>
    refine framed_andThen (framed_drainRemainingStatementResults ?_) fun s hs => .pure hs
    exact hs
  | failed => exact framed_failWithStatementError hs
  | row truncated cells =>
    refine framed_andThen (framed_completeRow ?_ truncated) fun s hs => .pure hs
    exact hs

theorem framed_fetchStatementRow (hs : Frame before (.ok, s)) :
    Framed before s.fetchStatementRow :=
  framed_andThen (framed_refreshDirtyResultBinds hs) fun _ hs => framed_fetchBound hs

/-- A reset, which makes no other calls. -/
theorem silent_myliteReset (s : MyliteStmt) :
    Silent (fun r => r.2.db.changes = s.db.changes ∧ r.2.db.lastInsertId = s.db.lastInsertId ∧
      Reports setOk r.1 r.2.db.diagnostics) s.myliteReset := by
  unfold myliteReset
  refine .bind (silent_releaseStatementResults _) fun s' hs' => ?_
  obtain rfl := hs'
  refine .bind (silent_ask rfl) fun done _ => .ite (fun _ => .pure ⟨rfl, rfl, rfl⟩) fun _ => ?_
  exact (framed_failWithStatementError (frame_refl _)).imp (fun _ hc => hc) fun r hr => hr.2

end MyliteStmt

/-! ### What a step leaves -/

/-- `changes` and `last_insert_id`. -/
structure Counts where
  changes : ℕ
  lastInsertId : ℕ
  deriving DecidableEq

/-- What `mylite_changes` and `mylite_last_insert_id` return. -/
def Db.counts (db : Db) : Counts := ⟨db.changes, db.lastInsertId⟩

/-- An answer for an executed statement: the identifier comes first, and the number of rows behind
    it unless there is a result. -/
def Counts.note (c : Counts) : Event → Counts
  | ⟨.insertId, id⟩ => ⟨0, id⟩
  | ⟨.affectedRows, n⟩ => { c with changes := MyliteStmt.changesOf n }
  | _ => c

/-- What the answers leave of the two numbers. -/
def Counts.reported (c : Counts) (said : List Event) : Counts := said.foldl Counts.note c

theorem foldl_note_of_silent (c : Counts) {said : List Event}
    (h : ∀ e ∈ said, e.1.isSilent = true) : said.foldl Counts.note c = c := by
  induction said with
  | nil => rfl
  | cons e said ih =>
    obtain ⟨q, r⟩ := e
    have hnote : Counts.note c ⟨q, r⟩ = c := by
      cases q with
      | execute => rfl
      | insertId | affectedRows => cases h _ List.mem_cons_self
      | _ => rfl
    rw [List.foldl_cons, hnote]
    exact ih fun e he => h e (List.mem_cons_of_mem _ he)

/-- Calls that say nothing of the two numbers. -/
theorem Silent.under {α : Type} {P : α → Prop} {d : Backend α} (h : Silent P d) (c : Counts) :
    Under (fun c e => some (Counts.note c e)) c (fun r c' => P r ∧ c' = c) d := by
  intro rs c' hafter a ha
  rw [after_observe, foldl_note_of_silent c (h rs).1] at hafter
  exact ⟨(h rs).2 a ha, (Option.some.inj hafter).symm⟩

/-- What a part of a step returns is in the diagnostics, and the numbers of the handle are those of
    the answers, from `c` on. -/
def Told (c : Counts) (diagnostics : Diagnostics) (d : Backend (Result × MyliteStmt)) : Prop :=
  Under (fun c e => some (Counts.note c e)) c
    (fun r c' => r.2.db.counts = c' ∧ Reports diagnostics r.1 r.2.db.diagnostics) d

namespace MyliteStmt

variable {s : MyliteStmt} {c : Counts} {diagnostics : Diagnostics}

theorem told_of_framed {d : Backend (Result × MyliteStmt)} (h : Framed s d)
    (hs : s.db.counts = c) (hdiagnostics : s.db.diagnostics = diagnostics) :
    Told c diagnostics d := by
  refine Under.imp (Silent.under h c) fun r c' hr => ?_
  obtain ⟨⟨-, hchanges, hid, hreports⟩, rfl⟩ := hr
  rw [← hs, ← hdiagnostics, Db.counts, hchanges, hid]
  exact ⟨rfl, hreports⟩

/-- Parts one behind the other. -/
theorem told_andThen {d : Backend (Result × MyliteStmt)}
    {next : MyliteStmt → Backend (Result × MyliteStmt)} (hd : Framed s d) (hs : s.db.counts = c)
    (hdiagnostics : s.db.diagnostics = diagnostics)
    (hnext : ∀ s' c', s'.db.counts = c' → s'.db.diagnostics = diagnostics →
      Told c' diagnostics (next s')) : Told c diagnostics (d >>= fun r => andThen r next) := by
  refine .bind (told_of_framed hd hs hdiagnostics) fun r c' hr => ?_
  unfold andThen
  refine .ite (fun hok => hnext r.2 c' hr.1 ?_) fun _ => .pure hr
  have hreports := hr.2
  rwa [hok] at hreports

theorem told_finishExecution (hs : s.db.counts = c)
    (hdiagnostics : s.db.diagnostics = diagnostics) :
    Told c diagnostics s.finishExecution := by
  unfold finishExecution
  refine .ite (fun _ => ?_) fun _ => ?_
  · exact told_of_framed (framed_fetchStatementRow s.frame_refl) hs hdiagnostics
  · refine .bind (.ask (Q := fun n c' => c' = { c with changes := changesOf n })
      fun n c' hnext => (Option.some.inj hnext).symm) fun n c' hc => .pure ⟨?_, hdiagnostics⟩
    rw [hc, ← hs]
    rfl

theorem told_executionDone (c : Counts) (hdiagnostics : s.db.diagnostics = diagnostics) :
    Told c diagnostics s.executionDone := by
  unfold executionDone
  refine .bind (.ask (Q := fun id c' => c' = ⟨0, id⟩)
    fun id c' hnext => (Option.some.inj hnext).symm) fun id c' hc => ?_
  subst hc
  refine .ite (fun _ => told_finishExecution rfl hdiagnostics) fun _ => ?_
  refine .bind (Silent.under (silent_ask (c := .fieldCount) rfl) _) fun count c' hc => ?_
  obtain ⟨-, rfl⟩ := hc
  refine .ite (fun _ => ?_) fun _ => told_finishExecution rfl hdiagnostics
  exact told_andThen (framed_initializeStatementResults (frame_refl _) false) rfl hdiagnostics
    fun s' c' => told_finishExecution

theorem told_executeStatement (hs : s.db.counts = c)
    (hdiagnostics : s.db.diagnostics = diagnostics) : Told c diagnostics s.executeStatement := by
  refine told_andThen (framed_bindParameters s.frame_refl) hs hdiagnostics fun s₁ c₁ hs₁ h₁ => ?_
  refine told_andThen (framed_initializeStatementResults s₁.frame_refl true) hs₁ h₁ ?_
  intro s₂ c₂ hs₂ h₂
  refine .bind (P := fun _ c' => c' = c₂)
    (.ask fun _ _ hnext => (Option.some.inj hnext).symm) fun executed c' hc => ?_
  subst hc
  refine .ite (fun _ => told_executionDone c' h₂) fun _ => ?_
  exact told_of_framed (framed_failWithStatementError s₂.frame_refl) hs₂ h₂

/-- **Steps.** -/
theorem told_myliteStep (hs : s.db.counts = c) : Told c setOk s.myliteStep := by
  unfold myliteStep
  refine .ite (fun _ => told_executeStatement hs rfl) fun _ => ?_
  refine .ite (fun _ => ?_) fun _ => .pure ⟨hs, rfl⟩
  exact told_of_framed (framed_fetchStatementRow (frame_refl _)) hs rfl

end MyliteStmt

end MyLite.Api

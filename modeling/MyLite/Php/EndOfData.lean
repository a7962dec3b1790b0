import MyLite.Php.Reexecution

namespace MyLite.Php

open MyLite.Client MyLite.Lib MyLite.Prepared MyLite.Sql

/-!
# The end of the data of a `MyLite\Statement`

`MyLite\Statement::fetchAssociative` returns the row of the last step and reads the next one ahead.
A failure of that step is noted in `step_result` and never thrown: the next call takes it for the
end of the data.  One statement alone on its connection is executed and fetched from in any order,
and the backend fails wherever it likes.

* `Reading` — a statement with what an observer notes: the rows of the current execution, those that
  were returned, and a failure that was not reported.
* `NoSilentEnd` — `NULL` is returned only when all rows were returned and no failure is open.
* `noSilentEnd_iff` — that is so exactly if no fetch comes behind one that failed to read ahead.
-/

variable {Row : Type}

/-- A statement under observation. -/
structure Reading (Row : Type) where
  statement : Statement Row
  /-- The last call of `execute` did not throw. -/
  active : Bool := false
  /-- The rows of its execution. -/
  rows : List Row := []
  /-- The rows returned since. -/
  returned : List Row := []
  /-- A step that read ahead has failed, and no exception was thrown since. -/
  failedAhead : Bool := false

/-- The calls of a script. -/
inductive ReadCall (Row : Type)
  | execute (answer : Answer Row) (i : StepInput Row)
  | fetchAssociative (i : StepInput Row)

namespace Reading

/-- A statement as `MyLite\Connection::prepare` returns it. -/
def prepared (conn : Connection Row) (stmt : Stmt) (count : ℕ) : Reading Row :=
  { statement := { stmt := .prepared conn stmt count } }

variable (w : Reading Row)

/-- The state behind a call. -/
def next : ReadCall Row → Reading Row
  | .execute answer i =>
    match w.statement.execute answer i with
    | (true, s) => { statement := s, active := true, rows := firstRows i.answers }
    | (false, s) => { w with statement := s, active := false, failedAhead := false }
  | .fetchAssociative i =>
    match w.statement.fetchAssociative i with
    | (some r, s) => { w with
        statement := s, returned := w.returned ++ [r]
        failedAhead := decide s.stepResult.IsFailure }
    | (none, s) => { w with statement := s }

/-- `NULL` comes only behind all rows of the current execution, and no failure is left
    unreported. -/
def NoSilentEnd : ReadCall Row → Prop
  | .execute _ _ => True
  | .fetchAssociative i =>
    w.active = true → (w.statement.fetchAssociative i).1 = none →
      w.returned = w.rows ∧ w.failedAhead = false

/-- The statement is executed where it is ready for it. -/
def Ready : ReadCall Row → Prop
  | .execute answer i =>
    w.statement.Ready (.execute w.statement.stmt.handle.conn answer i)
  | .fetchAssociative _ => True

/-- No fetch comes behind one that failed to read ahead. -/
def ReadsOn (w : Reading Row) : ReadCall Row → Prop
  | .execute _ _ => True
  | .fetchAssociative _ => w.active = true → w.failedAhead = false

/-- What the observer can count on. -/
def Sound (w : Reading Row) : Prop :=
  w.active = true → match w.statement.stepResult with
    | .row r => w.failedAhead = false ∧ ∃ rest, w.rows = w.returned ++ r :: rest
        ∧ Pending w.statement.stmt.handle rest
    | .done => w.failedAhead = false ∧ w.rows = w.returned
    | _ => w.failedAhead = true

/-- A successful execution of a statement that is ready leaves the rows of its answer. -/
theorem delivers_execute {s : Statement Row} {answer : Answer Row} {i : StepInput Row}
    (hready : s.Ready (.execute s.stmt.handle.conn answer i))
    (hsuccess : (s.execute answer i).1 = true) :
    ¬(s.execute answer i).2.stepResult.IsFailure ∧
      Delivers (firstRows i.answers)
        ((s.execute answer i).2.stepResult, (s.execute answer i).2.stmt.handle) := by
  -- The call ends with a step of a statement that does not count as executed.
  suffices hstep : ∃ t : Statement Row, s.execute answer i = t.stepStatement i
      ∧ (¬(t.stmt.step i).1.IsFailure → t.stmt.handle.stmt.executed = false) by
    obtain ⟨t, hexecute, hnew⟩ := hstep
    obtain ⟨hstate, hok⟩ := t.stepStatement_eq i
    rw [hexecute] at hsuccess ⊢
    rw [hstate]
    exact ⟨hok.mp hsuccess, BoundStmt.delivers_step_new (hnew (hok.mp hsuccess)) i⟩
  rcases s.execute_cases answer i with
    ⟨-, hthrown⟩ | ⟨hfail, hexecute⟩ | ⟨-, t, hexecute, -, hnew⟩
  · cases hthrown.symm.trans hsuccess
  · refine ⟨s, hexecute, fun hok => ?_⟩
    by_contra hold
    rw [Bool.not_eq_false] at hold
    exact hok (hready hold hfail)
  · exact ⟨t, hexecute, fun _ => hnew⟩

/-- The rows that are left, by what the last step returned. -/
theorem sound_of_delivers {w : Reading Row} {rest : List Row}
    (hahead : w.failedAhead = decide w.statement.stepResult.IsFailure)
    (hrows : w.rows = w.returned ++ rest)
    (hd : Delivers rest (w.statement.stepResult, w.statement.stmt.handle)) : w.Sound := by
  intro _
  cases hresult : w.statement.stepResult with
  | row r =>
    rw [hresult] at hd hahead
    obtain ⟨rest', rfl, hp⟩ := hd
    exact ⟨hahead, rest', hrows, hp⟩
  | done =>
    rw [hresult] at hd hahead
    obtain rfl : rest = [] := hd
    exact ⟨hahead, hrows.trans (List.append_nil _)⟩
  | error | nomem =>
    rw [hresult] at hahead
    exact hahead

theorem sound_execute {w : Reading Row} {answer : Answer Row} {i : StepInput Row}
    (hready : w.Ready (.execute answer i)) : (w.next (.execute answer i)).Sound := by
  have hd := @delivers_execute _ w.statement answer i hready
  rw [next]
  generalize w.statement.execute answer i = p at hd ⊢
  obtain ⟨ok, s⟩ := p
  cases ok with
  | false => exact fun hactive => absurd hactive Bool.false_ne_true
  | true =>
    obtain ⟨hok, hdelivers⟩ := hd rfl
    exact sound_of_delivers (decide_eq_false hok).symm rfl hdelivers

theorem sound_fetchAssociative {w : Reading Row} (hs : w.Sound) (i : StepInput Row) :
    (w.next (.fetchAssociative i)).Sound := by
  rw [next]
  by_cases hrow : ∃ r, w.statement.stepResult = .row r
  · obtain ⟨r, hr⟩ := hrow
    rw [Scripted.fetchAssociative_row hr]
    intro hactive
    have hsound := hs hactive
    rw [hr] at hsound
    obtain ⟨-, rest, hrows, hp⟩ := hsound
    refine sound_of_delivers rfl ?_ (BoundStmt.delivers_step_pending hp i) hactive
    show w.rows = w.returned ++ [r] ++ rest
    rw [hrows, List.append_assoc]
    rfl
  · rw [Scripted.fetchAssociative_of_not_row fun r hr => hrow ⟨r, hr⟩]
    exact hs

/-- **Step.** What the observer notes stays right. -/
theorem sound_next {w : Reading Row} {c : ReadCall Row} (hs : w.Sound)
    (hready : w.Ready c) : (w.next c).Sound := by
  cases c with
  | execute answer i => exact sound_execute hready
  | fetchAssociative i => exact sound_fetchAssociative hs i

/-- **One fetch.** `NULL` is the truth exactly if no failure is open. -/
theorem noSilentEnd_iff_readsOn {w : Reading Row} (hs : w.Sound) (c : ReadCall Row) :
    w.NoSilentEnd c ↔ w.ReadsOn c := by
  cases c with
  | execute answer i => exact Iff.rfl
  | fetchAssociative i =>
    refine imp_congr_right fun hactive => ?_
    have hsound := hs hactive
    rw [Statement.fetchAssociative_fst]
    cases hresult : w.statement.stepResult with
    | row r =>
      rw [hresult] at hsound
      exact iff_of_true nofun hsound.1
    | done =>
      rw [hresult] at hsound
      exact iff_of_true (fun _ => ⟨hsound.2.symm, hsound.1⟩) hsound.1
    | error | nomem =>
      rw [hresult] at hsound
      exact ⟨fun hend => (hend rfl).2, fun hahead => absurd (hahead.symm.trans hsound) nofun⟩

/-- **No silent end of data.** In every sequence of calls in which a statement is executed only when
    it is ready, `NULL` always means that all rows were returned and that every failure was
    reported, exactly if no fetch comes behind one that failed to read ahead. -/
theorem noSilentEnd_iff {conn : Connection Row} {stmt : Stmt} {count : ℕ}
    {calls : List (ReadCall Row)}
    (hready : Along next Ready (prepared conn stmt count) calls) :
    Along next NoSilentEnd (prepared conn stmt count) calls
      ↔ Along next ReadsOn (prepared conn stmt count) calls := by
  have hs : (prepared conn stmt count).Sound := fun hactive => absurd hactive Bool.false_ne_true
  generalize prepared conn stmt count = w at hready hs ⊢
  induction calls generalizing w with
  | nil => exact Iff.rfl
  | cons c calls ih =>
    exact and_congr (noSilentEnd_iff_readsOn hs c) (ih _ hready.2 (sound_next hs hready.1))

/-- `SELECT` with two rows. -/
def selectTwo : Reading ℕ := prepared {} { state := .prepareDone, hasFields := true } 0

/-- It is executed. -/
def executeTwo : ReadCall ℕ := .execute .ok { answers := [.rows [1, 2] false] }

/-- All rows are fetched, and then `NULL`. -/
theorem noSilentEnd_selectTwo :
    Along next NoSilentEnd selectTwo [executeTwo, .fetchAssociative { answers := [] },
      .fetchAssociative { answers := [] }, .fetchAssociative { answers := [] }] := by
  refine (noSilentEnd_iff ?_).mpr ?_
  · exact ⟨fun hold => absurd hold (by decide), trivial, trivial, trivial, trivial⟩
  · exact ⟨trivial, fun _ => rfl, fun _ => rfl, fun _ => rfl, trivial⟩

/-- The second row cannot be read, and the second fetch returns `NULL`. -/
theorem not_noSilentEnd_selectTwo :
    ¬Along next NoSilentEnd selectTwo [executeTwo,
      .fetchAssociative { answers := [], fetch := false },
        .fetchAssociative { answers := [] }] := by
  rintro ⟨-, -, hend, -⟩
  exact absurd (hend rfl rfl).1 (by decide)

end Reading

end MyLite.Php

import MyLite.Api.Exec

namespace MyLite.Api

open MyLite.Lib MyLite.Sql MyLite.Policy
open Dialogue (Total after)

/-!
# The results of a direct execution

A statement that is executed directly may have any number of results.  `mylite_exec` hands the rows
of the first one to the callback, until that asks for the end, and reads the others away.

* `ResultSet`, `ResultQueue` — the results of a statement, and how far the client has read them.
* `ResultQueue.next` — the answers of a server that does not fail.
* `EmitsRows` — the rows a callback gets.
* `streams_iff` — the rows come to the callback and nothing is pending behind the call, unless the
  first result has more columns than an `int` can count.
-/

/-! ### Results -/

/-- A result of a statement; one without columns has no rows. -/
structure ResultSet where
  names : List Text
  rows : List QueryRow
  rows_length : ∀ row ∈ rows, row.length = names.length
  rows_nil : names = [] → rows = []

/-- A call of the callback. -/
structure CallbackCall where
  columnCount : ℕ
  values : QueryRow
  names : List Text
  returned : ℤ

/-- The results that wait on a connection. -/
structure ResultQueue where
  /-- The result that is to be stored next. -/
  current : Option ResultSet := none
  /-- `mysql_field_count`. -/
  fields : ℕ := 0
  /-- The results behind it. -/
  more : List ResultSet
  /-- The rows left in the results that are stored and not freed. -/
  stored : List (List QueryRow) := []
  /-- The calls of the callback so far. -/
  calls : List CallbackCall := []

namespace ResultQueue

/-- The next result is to be stored. -/
def advance (q : ResultQueue) (s : ResultSet) (rest : List ResultSet) : ResultQueue :=
  { q with current := some s, fields := s.names.length, more := rest }

/-- No result is pending on the connection or in the client's memory. -/
structure Drained (q : ResultQueue) : Prop where
  current : q.current = none
  more : q.more = []
  stored : q.stored = []

/-- `mysql_query` comes to the first result. -/
def query (q : ResultQueue) (sent : Bool) : Option ResultQueue :=
  match q.more with
  | s :: rest => if sent then some (q.advance s rest) else none
  | [] => none

/-- `mysql_store_result`: a result without columns is read with its header. -/
def storeResult (q : ResultQueue) (names : Option (List Text)) : Option ResultQueue :=
  match q.current with
  | some s =>
    if s.names = [] then if names = none then some { q with current := none } else none
    else if names = some s.names then
      some { q with current := none, stored := s.rows :: q.stored }
    else none
  | none => none

/-- `mysql_fetch_row`, from the result that was stored last. -/
def fetchRow (q : ResultQueue) (row : Option QueryRow) : Option ResultQueue :=
  match q.stored with
  | rows :: others =>
    if row = rows.head? then some { q with stored := rows.tail :: others } else none
  | [] => none

/-- `mysql_free_result`. -/
def freeResult (q : ResultQueue) : Option ResultQueue :=
  match q.stored with
  | _ :: others => some { q with stored := others }
  | [] => none

/-- `mysql_next_result`, which fails while a result is not stored. -/
def nextResult (q : ResultQueue) : NextResult → Option ResultQueue
  | .failed => if q.current.any (fun s => s.names ≠ []) then some q else none
  | .noMore => if q.current.isNone && q.more.isEmpty then some q else none
  | .ok =>
    match q.current, q.more with
    | none, s :: rest => some (q.advance s rest)
    | _, _ => none

open Classical in
/-- A callback that leaves the handle alone. -/
noncomputable def callback (q : ResultQueue) (db : MyliteDb) (call : CallbackCall)
    (db' : MyliteDb) : Option ResultQueue :=
  if db' = db then some { q with calls := q.calls ++ [call] } else none

/-- The answers of a server that does not fail, with callbacks that leave the handle alone. -/
noncomputable def next (q : ResultQueue) : ConnectionEvent → Option ResultQueue
  | ⟨.query _, sent⟩ => q.query sent
  | ⟨.storeResult, names⟩ => q.storeResult names
  | ⟨.fieldCount, (count : ℕ)⟩ => if count = q.fields then some q else none
  | ⟨.fetchRow, row⟩ => q.fetchRow row
  | ⟨.freeResult, _⟩ => q.freeResult
  | ⟨.nextResult, answer⟩ => q.nextResult answer
  | ⟨.callback db columnCount values names, (returned, db')⟩ =>
    q.callback db ⟨columnCount, values, names, returned⟩ db'
  | ⟨.affectedRows, _⟩ | ⟨.insertId, _⟩ | ⟨.connectionError, _⟩ | ⟨.malloc _, _⟩ => some q
  | _ => none

end ResultQueue

/-- A server that has the results of a statement ready. -/
def ResultQueue.ready (first : ResultSet) (more : List ResultSet) : ResultQueue :=
  { more := first :: more }

/-- The callback gets the rows in order, up to and including the first call that does not return
    zero. -/
def EmitsRows (names : List Text) : List QueryRow → List CallbackCall → Prop
  | [], calls => calls = []
  | row :: rows, calls =>
    ∃ returned rest, calls = ⟨names.length, row, names, returned⟩ :: rest ∧
      if returned = 0 then EmitsRows names rows rest else rest = []

/-- What `mylite_exec` does with the results of its statement. -/
structure Streams (first : ResultSet) (hasCallback : Bool) (r : Executed) (q : ResultQueue) :
    Prop where
  rows : if hasCallback then EmitsRows first.names first.rows q.calls else q.calls = []
  code : r.code = .ok ↔ ∀ call ∈ q.calls, call.returned = 0
  drained : q.Drained

/-! ### Steps of the server -/

section

variable {q q' : ResultQueue}

theorem next_query {sql : Text} {sent : Bool} {s : ResultSet} {rest : List ResultSet}
    (hmore : q.more = s :: rest) (h : q.next ⟨.query sql, sent⟩ = some q') :
    sent = true ∧ q' = q.advance s rest := by
  have h : q.query sent = some q' := h
  rw [ResultQueue.query, hmore] at h
  dsimp only at h
  split_ifs at h with hsent
  exact ⟨hsent, (Option.some.inj h).symm⟩

theorem next_storeResult {s : ResultSet} {names : Option (List Text)}
    (hcurrent : q.current = some s)
    (h : q.next ⟨.storeResult, names⟩ = some q') :
    (s.names = [] ∧ names = none ∧ q' = { q with current := none }) ∨
      (s.names ≠ [] ∧ names = some s.names ∧
        q' = { q with current := none, stored := s.rows :: q.stored }) := by
  have h : q.storeResult names = some q' := h
  rw [ResultQueue.storeResult, hcurrent] at h
  dsimp only at h
  split_ifs at h with hnames hnone hsome
  · exact .inl ⟨hnames, hnone, (Option.some.inj h).symm⟩
  · exact .inr ⟨hnames, hsome, (Option.some.inj h).symm⟩

theorem next_fieldCount {count : ℕ} (h : q.next ⟨.fieldCount, count⟩ = some q') :
    count = q.fields ∧ q' = q := by
  have h : (if count = q.fields then some q else none) = some q' := h
  split_ifs at h with hcount
  exact ⟨hcount, (Option.some.inj h).symm⟩

theorem next_fetchRow {rows : List QueryRow} {row : Option QueryRow} (hstored : q.stored = [rows])
    (h : q.next ⟨.fetchRow, row⟩ = some q') :
    row = rows.head? ∧ q' = { q with stored := [rows.tail] } := by
  have h : q.fetchRow row = some q' := h
  rw [ResultQueue.fetchRow, hstored] at h
  dsimp only at h
  split_ifs at h with hrow
  exact ⟨hrow, (Option.some.inj h).symm⟩

theorem next_freeResult {rows : List QueryRow} {freed : Unit} (hstored : q.stored = [rows])
    (h : q.next ⟨.freeResult, freed⟩ = some q') : q' = { q with stored := [] } := by
  have h : q.freeResult = some q' := h
  rw [ResultQueue.freeResult, hstored] at h
  exact (Option.some.inj h).symm

/-- Where the last result was stored, the next one is come to, or there is none. -/
theorem next_nextResult {answer : NextResult} (hcurrent : q.current = none)
    (h : q.next ⟨.nextResult, answer⟩ = some q') :
    (q.more = [] ∧ answer = .noMore ∧ q' = q) ∨
      ∃ s rest, q.more = s :: rest ∧ answer = .ok ∧ q' = q.advance s rest := by
  have h : q.nextResult answer = some q' := h
  cases answer with
  | failed =>
    rw [ResultQueue.nextResult, hcurrent] at h
    cases h
  | noMore =>
    rw [ResultQueue.nextResult] at h
    split_ifs at h with hnone
    rw [Bool.and_eq_true, List.isEmpty_iff] at hnone
    exact .inl ⟨hnone.2, rfl, (Option.some.inj h).symm⟩
  | ok =>
    rw [ResultQueue.nextResult, hcurrent] at h
    cases hmore : q.more with
    | nil =>
      rw [hmore] at h
      cases h
    | cons s rest =>
      rw [hmore] at h
      exact .inr ⟨s, rest, rfl, rfl, (Option.some.inj h).symm⟩

theorem next_callback {db : MyliteDb} {columnCount : ℕ} {values : QueryRow} {names : List Text}
    {answer : ℤ × MyliteDb} (h : q.next ⟨.callback db columnCount values names, answer⟩ = some q') :
    answer.2 = db ∧
      q' = { q with calls := q.calls ++ [⟨columnCount, values, names, answer.1⟩] } := by
  have h : q.callback db ⟨columnCount, values, names, answer.1⟩ answer.2 = some q' := h
  rw [ResultQueue.callback] at h
  split_ifs at h with hdb
  exact ⟨hdb, (Option.some.inj h).symm⟩

end

/-! ### The loops -/

/-- A conversation with a server that has these results, in at most `n` calls. -/
abbrev Serves {α : Type} (n : ℕ) (q : ResultQueue) (Q : α → ResultQueue → Prop)
    (d : Conversation α) : Prop :=
  Total ResultQueue.next n q Q d

/-- A turn takes one result from the queue, or it is the last. -/
theorem serves_drainQueryTurn {q : ResultQueue} (hcurrent : q.current = none)
    (hstored : q.stored = []) :
    Serves 3 q (fun ended q' => q'.current = none ∧ q'.stored = [] ∧ q'.calls = q.calls ∧
      match ended with
      | none => q'.more.length + 1 ≤ q.more.length
      | some drained => drained = true ∧ q'.more = []) drainQueryTurn := by
  refine Total.asks (n := 2) fun answer q₁ h₁ => ?_
  rcases next_nextResult hcurrent h₁ with ⟨hmore, rfl, rfl⟩ | ⟨s, rest, hmore, rfl, rfl⟩
  · exact Total.mono (.pure ⟨hcurrent, hstored, rfl, rfl, hmore⟩) (Nat.zero_le _)
  · refine Total.asks (n := 1) fun names q₂ h₂ => ?_
    have hless : rest.length + 1 ≤ q.more.length := by rw [hmore, List.length_cons]
    rcases next_storeResult rfl h₂ with ⟨hnames, rfl, rfl⟩ | ⟨hnames, rfl, rfl⟩
    · refine Total.asks (n := 0) fun count q₃ h₃ => ?_
      obtain ⟨rfl, rfl⟩ := next_fieldCount h₃
      have hzero : s.names.length = 0 := by rw [hnames, List.length_nil]
      exact .ite (fun hcount => absurd hzero hcount) fun _ => .pure ⟨rfl, hstored, rfl, hless⟩
    · have hone : s.rows :: q.stored = [s.rows] := by rw [hstored]
      refine Total.asks (n := 0) fun _ q₃ h₃ => ?_
      obtain rfl := next_freeResult hone h₃
      exact .pure ⟨rfl, rfl, rfl, hless⟩

/-- **Draining.** All results that are left are stored and freed. -/
theorem serves_drainRemainingQueryResults {q : ResultQueue} (hcurrent : q.current = none)
    (hstored : q.stored = []) (db : MyliteDb) :
    Serves (3 * (q.more.length + 1)) q
      (fun r q' => r = (.ok, db) ∧ q'.Drained ∧ q'.calls = q.calls)
      (drainRemainingQueryResults db) := by
  have hloop : Serves (3 * (q.more.length + 1)) q
      (fun drained q' => drained = true ∧ q'.Drained ∧ q'.calls = q.calls) drainQueryLoop := by
    refine Total.loopFrom (n := 3)
      (I := fun _ (q' : ResultQueue) => q'.current = none ∧ q'.stored = [] ∧ q'.calls = q.calls)
      (v := fun q' => q'.more.length) (by decide) ⟨hcurrent, hstored, rfl⟩ fun _ q₁ h₁ => ?_
    obtain ⟨hcurrent₁, hstored₁, hcalls₁⟩ := h₁
    refine Total.bind (n := 3) (m := 0) (serves_drainQueryTurn hcurrent₁ hstored₁)
      fun ended q₂ h₂ => ?_
    obtain ⟨hcurrent₂, hstored₂, hcalls₂, hended⟩ := h₂
    cases ended with
    | none => exact .pure ⟨⟨hcurrent₂, hstored₂, hcalls₂.trans hcalls₁⟩, hended⟩
    | some drained =>
      obtain ⟨rfl, hmore⟩ := hended
      exact .pure ⟨rfl, ⟨hcurrent₂, hmore, hstored₂⟩, hcalls₂.trans hcalls₁⟩
  refine Total.bind (m := 0) hloop fun drained q' h => ?_
  obtain ⟨rfl, hdrained, hcalls⟩ := h
  exact .pure ⟨rfl, hdrained, hcalls⟩

/-- How far the rows of a result have come to the callback: the rows `rest` are left, and what the
    callback is going to get of them completes what it has got. -/
structure Emitting (first : ResultSet) (hasCallback : Bool) (more : List ResultSet)
    (rest : List QueryRow) (q : ResultQueue) : Prop where
  current : q.current = none
  more : q.more = more
  stored : q.stored = [rest]
  zero : ∀ call ∈ q.calls, call.returned = 0
  rows : if hasCallback then
      ∀ calls, EmitsRows first.names rest calls →
        EmitsRows first.names first.rows (q.calls ++ calls)
    else q.calls = []

/-- The rows that have come to the callback, at the end of the loop. -/
structure Emitted (first : ResultSet) (hasCallback : Bool) (more : List ResultSet)
    (aborted : Bool) (q : ResultQueue) : Prop where
  current : q.current = none
  more : q.more = more
  stored : ∃ rest, q.stored = [rest]
  rows : if hasCallback then EmitsRows first.names first.rows q.calls else q.calls = []
  zero : aborted = false ↔ ∀ call ∈ q.calls, call.returned = 0

variable {first : ResultSet} {hasCallback : Bool} {more : List ResultSet}

theorem Emitting.emitted {q : ResultQueue} (h : Emitting first hasCallback more [] q) :
    Emitted first hasCallback more false q where
  current := h.current
  more := h.more
  stored := ⟨[], h.stored⟩
  rows := by
    have hrows := h.rows
    cases hasCallback with
    | false => exact hrows
    | true =>
      have hall := hrows [] rfl
      rwa [List.append_nil] at hall
  zero := ⟨fun _ => h.zero, fun _ => rfl⟩

/-- The callback is called for a row. -/
theorem serves_emitRow {row : QueryRow} {rest : List QueryRow} {q : ResultQueue}
    (h : Emitting first hasCallback more (row :: rest) { q with stored := [row :: rest] })
    (hstored : q.stored = [rest]) (db : MyliteDb) :
    Serves 1 q (fun emitted q' => if emitted.1 then Emitted first hasCallback more true q'
        else Emitting first hasCallback more rest q')
      (emitRow hasCallback first.names db row) := by
  have hrows := h.rows
  unfold emitRow
  cases hasCallback with
  | false =>
    exact Total.mono (.pure ⟨h.current, h.more, hstored, h.zero, hrows⟩) (Nat.zero_le _)
  | true =>
    refine Total.asks (n := 0) fun answer q₁ h₁ => .pure ?_
    obtain ⟨-, rfl⟩ := next_callback h₁
    by_cases hzero : answer.1 = 0
    · -- The next rows go on behind this one.
      rw [if_neg (by simpa using hzero)]
      refine ⟨h.current, h.more, hstored, ?_, fun calls hcalls => ?_⟩
      · intro call hcall
        rcases List.mem_append.mp hcall with hcall | hcall
        · exact h.zero call hcall
        · obtain rfl := List.mem_singleton.mp hcall
          exact hzero
      · rw [List.append_assoc]
        refine hrows _ ⟨answer.1, calls, rfl, ?_⟩
        rw [if_pos hzero]
        exact hcalls
    · rw [if_pos (by simpa using hzero)]
      refine ⟨h.current, h.more, ⟨rest, hstored⟩, ?_, ⟨nofun, fun hall => ?_⟩⟩
      · refine hrows _ ⟨answer.1, [], rfl, ?_⟩
        rw [if_neg hzero]
      · exact absurd (hall _ (List.mem_append_right _ List.mem_cons_self)) hzero

/-- **The rows.** They come to the callback until it asks for the end. -/
theorem serves_emitRows {q : ResultQueue} (h : Emitting first hasCallback more first.rows q)
    (db : MyliteDb) :
    Serves (2 * (first.rows.length + 1)) q
      (fun emitted q' => Emitted first hasCallback more emitted.1 q')
      (emitRows hasCallback first.names db) := by
  have hvariant : (q.stored.headD []).length = first.rows.length := by
    rw [h.stored]
    rfl
  rw [← hvariant]
  refine Total.loopFrom (n := 2) (I := fun _ q' => ∃ rest, Emitting first hasCallback more rest q')
    (v := fun q' => (q'.stored.headD []).length) (by decide) ⟨_, h⟩ fun db q₁ h₁ => ?_
  obtain ⟨rest, h₁⟩ := h₁
  refine Total.asks (n := 1) fun row q₂ h₂ => ?_
  obtain ⟨rfl, rfl⟩ := next_fetchRow h₁.stored h₂
  cases rest with
  | nil =>
    refine Total.mono (.pure ?_) (Nat.zero_le _)
    exact ⟨h₁.current, h₁.more, ⟨[], rfl⟩, h₁.emitted.rows, h₁.emitted.zero⟩
  | cons row rest =>
    have hrow : Emitting first hasCallback more (row :: rest)
        { q₁ with stored := [row :: rest] } :=
      ⟨h₁.current, h₁.more, rfl, h₁.zero, h₁.rows⟩
    refine Total.bind (n := 1) (m := 0) (serves_emitRow
      (q := { q₁ with stored := [rest] }) hrow rfl db)
      fun emitted q₃ h₃ => ?_
    refine .ite (fun habort => .pure ?_) fun hgoes => .pure ?_
    · rw [if_pos habort] at h₃
      show Emitted first hasCallback more emitted.1 q₃
      rw [habort]
      exact h₃
    · rw [if_neg hgoes] at h₃
      refine ⟨⟨rest, h₃⟩, ?_⟩
      rw [h₃.stored, h₁.stored]
      exact Nat.le_refl _

/-! ### The call -/

variable {sql : Text}

/-- What `store_and_emit_result` leaves. -/
structure StoresAndEmits (first : ResultSet) (hasCallback : Bool) (r : Result × MyliteDb)
    (q : ResultQueue) : Prop where
  rows : if hasCallback then EmitsRows first.names first.rows q.calls else q.calls = []
  code : r.1 = .ok ↔ ∀ call ∈ q.calls, call.returned = 0
  error : r.1 ≠ .ok → r.2.errcode ≠ .ok
  drained : q.Drained

/-- A result whose columns can be counted is handed on, and the others are read away. -/
theorem serves_emitResult {q : ResultQueue} (hcount : first.names.length ≤ intMax)
    (h : Emitting first hasCallback more first.rows q) (db : MyliteDb) :
    Serves (2 * (first.rows.length + 1) + (1 + 3 * (more.length + 1))) q
      (StoresAndEmits first hasCallback)
      (emitResult hasCallback first.names db) := by
  unfold emitResult
  refine .ite (fun hmany => absurd hmany (Nat.not_lt.mpr hcount)) fun _ => ?_
  refine Total.bind (serves_emitRows h db) fun emitted q₁ h₁ => ?_
  obtain ⟨rest, hstored⟩ := h₁.stored
  refine .asks fun _ q₂ h₂ => ?_
  obtain rfl := next_freeResult hstored h₂
  have hdrain := serves_drainRemainingQueryResults (q := { q₁ with stored := [] }) h₁.current rfl
    emitted.2
  have hmore : q₁.more.length = more.length := congrArg List.length h₁.more
  refine Total.mono (Total.bind (m := 0) hdrain fun drained q₃ h₃ => ?_) (by
    show 3 * (q₁.more.length + 1) + 0 ≤ 3 * (more.length + 1)
    omega)
  obtain ⟨rfl, hdrained, hcalls⟩ := h₃
  have hrows := h₁.rows
  have hzero := h₁.zero
  rw [← show q₃.calls = q₁.calls from hcalls] at hrows hzero
  refine .ite (fun habort => .pure ⟨hrows, ?_, nofun, hdrained⟩)
    fun hend => .pure ⟨hrows, ?_, fun hfailed => absurd rfl hfailed, hdrained⟩
  · refine ⟨nofun, fun hall => ?_⟩
    cases habort.symm.trans (hzero.mpr hall)
  · exact ⟨fun _ => hzero.mp (Bool.eq_false_iff.mpr hend), fun _ => rfl⟩

/-- The first result is stored. -/
theorem serves_storeAndEmitResult {q : ResultQueue} (hcount : first.names.length ≤ intMax)
    (hcurrent : q.current = some first) (hfields : q.fields = first.names.length)
    (hmore : q.more = more) (hstored : q.stored = []) (hcalls : q.calls = []) (hasCallback : Bool)
    (db : MyliteDb) :
    Serves (2 + (2 * (first.rows.length + 1) + (1 + 3 * (more.length + 1)))) q
      (fun r q' => StoresAndEmits first hasCallback r.2 q')
      (storeAndEmitResult hasCallback db) := by
  refine Total.mono
    (n := 1 + (1 + (2 * (first.rows.length + 1) + (1 + 3 * (more.length + 1))))) ?_ (by omega)
  refine .asks fun names q₁ h₁ => ?_
  rcases next_storeResult hcurrent h₁ with ⟨hnames, rfl, rfl⟩ | ⟨hnames, rfl, rfl⟩
  · refine .asks fun count q₂ h₂ => ?_
    obtain ⟨rfl, rfl⟩ := next_fieldCount h₂
    have hzero : q.fields = 0 := by rw [hfields, hnames, List.length_nil]
    refine .ite (fun hfailed => absurd hzero hfailed) fun _ => ?_
    have hdrain := serves_drainRemainingQueryResults (q := { q with current := none }) rfl hstored
      db
    refine Total.mono (Total.bind (m := 0) hdrain fun drained q₃ h₃ => ?_) ?_
    · obtain ⟨rfl, hdrained, hcalls₃⟩ := h₃
      have hnone : q₃.calls = [] := hcalls₃.trans hcalls
      refine .pure ⟨?_, ?_, fun hfailed => absurd rfl hfailed, hdrained⟩
      · rw [hnone, first.rows_nil hnames]
        cases hasCallback <;> rfl
      · rw [hnone]
        exact ⟨fun _ => List.forall_mem_nil _, fun _ => rfl⟩
    · show 3 * (q.more.length + 1) + 0 ≤ _
      rw [hmore]
      omega
  · have hemit : Emitting first hasCallback more first.rows
        { q with current := none, stored := first.rows :: q.stored } := by
      refine ⟨rfl, hmore, by rw [hstored], ?_, ?_⟩
      · show ∀ call ∈ q.calls, _
        rw [hcalls]
        exact List.forall_mem_nil _
      · show if hasCallback then ∀ calls, _ → EmitsRows _ _ (q.calls ++ calls) else q.calls = []
        rw [hcalls]
        cases hasCallback with
        | false => rfl
        | true => exact fun calls h => h
    refine Total.mono (Total.bind (m := 0) (serves_emitResult hcount hemit db)
      fun r q₂ h₂ => .pure h₂) ?_
    omega

variable {db : MyliteDb}

theorem serves_copyErrorMessage (q : ResultQueue) (hdb : db.errcode ≠ .ok) (wanted : Bool) :
    Serves 1 q (fun r q' => r.code ≠ .ok ∧ q' = q) (copyErrorMessage db wanted) := by
  unfold copyErrorMessage
  refine .ite (fun _ => ?_) fun _ => ?_
  · exact Total.mono (.pure ⟨hdb, rfl⟩) (Nat.zero_le _)
  · refine Total.asks (n := 0) fun (allocated : Bool) q₁ h₁ => ?_
    obtain rfl : q = q₁ := Option.some.inj h₁
    exact .ite (fun _ => .pure ⟨hdb, rfl⟩) fun _ => .pure ⟨nofun, rfl⟩

/-- A text that the gate lets through. -/
theorem rejectUnsupportedSqlPolicy_of_not_rejects (hgate : rejects db.currentSchema sql = false) :
    (db.withDiagnostics setOk).rejectUnsupportedSqlPolicy sql =
      (.ok, db.withDiagnostics setOk) := by
  have hnone : Policy.rejectUnsupportedSqlPolicy db.currentSchema sql = none :=
    Option.isNone_iff_eq_none.mp (Option.isSome_eq_false_iff.mp hgate)
  unfold MyliteDb.rejectUnsupportedSqlPolicy
  rw [show (db.withDiagnostics setOk).currentSchema = db.currentSchema from rfl, hnone]

/-- It is sent to the server. -/
theorem execImpl_of_not_rejects (hgate : rejects db.currentSchema sql = false)
    (hasCallback wantsErrmsg : Bool) :
    execImpl db sql hasCallback wantsErrmsg =
      runQuery (db.withDiagnostics setOk) sql hasCallback wantsErrmsg := by
  rw [execImpl, rejectUnsupportedSqlPolicy_of_not_rejects hgate, if_neg (fun h => h rfl)]

/-- The calls of a direct execution, at most. -/
def execCalls (first : ResultSet) (more : List ResultSet) : ℕ :=
  1 + (1 + (1 + (2 + (2 * (first.rows.length + 1) + (1 + 3 * (more.length + 1))) + 1)))

/-- A direct execution of a text that the gate lets through is what `store_and_emit_result` makes of
    the results. -/
theorem serves_execImpl_of_store (hgate : rejects db.currentSchema sql = false) {n : ℕ}
    {P : Result × MyliteDb → ResultQueue → Prop} {Q : Executed → ResultQueue → Prop}
    (hstore : ∀ db, Serves n (ResultQueue.advance { more := first :: more } first more)
      (fun r q => P r.2 q) (storeAndEmitResult hasCallback db))
    (hfails : ∀ r q, P r q → r.1 ≠ .ok → r.2.errcode ≠ .ok ∧ ∀ e : Executed, e.code ≠ .ok → Q e q)
    (hends : ∀ r q, P r q → r.1 = .ok → ∀ e : Executed, e.code = .ok → Q e q) (wantsErrmsg : Bool) :
    Serves (1 + (1 + (1 + (n + 1)))) (.ready first more) Q
      (execImpl db sql hasCallback wantsErrmsg) := by
  rw [execImpl_of_not_rejects hgate]
  refine .asks fun sent q₁ h₁ => ?_
  obtain ⟨rfl, rfl⟩ := next_query rfl h₁
  refine .ite nofun fun _ => ?_
  refine .asks fun affected q₂ h₂ => .asks fun insertId q₃ h₃ => ?_
  obtain rfl : _ = q₂ := Option.some.inj h₂
  obtain rfl : _ = q₃ := Option.some.inj h₃
  refine Total.bind (hstore _) fun emitted q₄ h₄ => ?_
  refine .ite (fun hfailed => ?_) fun hok => ?_
  · obtain ⟨herror, hQ⟩ := hfails emitted.2 q₄ h₄ hfailed
    refine (serves_copyErrorMessage q₄ herror wantsErrmsg).imp ?_ (Nat.le_refl 1)
    rintro r q₅ ⟨hr, rfl⟩
    exact hQ r hr
  · rw [ne_eq, not_not] at hok
    exact Total.mono (.pure (hends emitted.2 q₄ h₄ hok _ rfl)) (Nat.zero_le 1)

/-- **Direct execution** of a text that the gate lets through, with a first result whose columns
    can be counted. -/
theorem serves_execImpl (hgate : rejects db.currentSchema sql = false)
    (hcount : first.names.length ≤ intMax) (more : List ResultSet)
    (hasCallback wantsErrmsg : Bool) :
    Serves (execCalls first more) (.ready first more) (Streams first hasCallback)
      (execImpl db sql hasCallback wantsErrmsg) := by
  refine serves_execImpl_of_store hgate
    (serves_storeAndEmitResult hcount rfl rfl rfl rfl rfl hasCallback) ?_ ?_ wantsErrmsg
  · intro r q h hfailed
    refine ⟨h.error hfailed, fun e he => ⟨h.rows, ⟨fun hok => absurd hok he, ?_⟩, h.drained⟩⟩
    exact fun hall => absurd (h.code.mpr hall) hfailed
  · intro r q h hok e he
    exact ⟨h.rows, ⟨fun _ => h.code.mp hok, fun _ => he⟩, h.drained⟩

/-! ### Too many columns -/

/-- A server that answers with the first result. -/
def answering (first : ResultSet) : (c : ConnectionCall) → ConnectionReply c
  | .query _ | .stmtInit | .stmtPrepare _ | .malloc _ => true
  | .affectedRows | .insertId | .fieldCount | .stmtParamCount => (0 : ℕ)
  | .storeResult => some first.names
  | .fetchRow => none
  | .freeResult | .stmtAttrSet | .stmtClose | .release => ()
  | .nextResult => NextResult.noMore
  | .callback db _ _ _ => (0, db)
  | .connectionError | .stmtError => commandsOutOfSync

/-- `store_and_emit_result` refuses a result with more columns than an `int` can count. -/
theorem storeAndEmitResult_of_many (hcount : intMax < first.names.length) (hasCallback : Bool)
    (db : MyliteDb) (rs : List (∀ c, ConnectionReply c)) :
    storeAndEmitResult hasCallback db (answering first :: answering first :: rs) =
      ([⟨.storeResult, some first.names⟩, ⟨.freeResult, ()⟩],
        some ((true, db.failWith .error "result has too many columns"), rs)) := by
  have hstore : mysqlStoreResult (answering first :: answering first :: rs) =
      ([⟨.storeResult, some first.names⟩], some (some first.names, answering first :: rs)) := rfl
  have hemit : emitResult hasCallback first.names db (answering first :: rs) =
      ([⟨.freeResult, ()⟩], some (db.failWith .error "result has too many columns", rs)) := by
    rw [emitResult, if_pos hcount]
    rfl
  rw [storeAndEmitResult, Dialogue.bind_next hstore]
  dsimp only
  rw [Dialogue.bind_next hemit]
  rfl

/-- Behind the query this is an error, with its text if it is wanted. -/
theorem runQuery_of_many (hcount : intMax < first.names.length) (db : MyliteDb) (sql : Text)
    (hasCallback wantsErrmsg : Bool) (rs : List (∀ c, ConnectionReply c)) :
    runQuery db sql hasCallback wantsErrmsg
        (answering first :: answering first :: answering first :: answering first ::
          answering first :: rs) =
      (⟨.query sql, true⟩ :: ⟨.affectedRows, (0 : ℕ)⟩ :: ⟨.insertId, (0 : ℕ)⟩ ::
          ⟨.storeResult, some first.names⟩ :: ⟨.freeResult, ()⟩ ::
          (copyErrorMessage (db.failWith .error "result has too many columns").2 wantsErrmsg rs).1,
        (copyErrorMessage (db.failWith .error "result has too many columns").2 wantsErrmsg
          rs).2) := by
  have hquery : runQuery db sql hasCallback wantsErrmsg
      (answering first :: answering first :: answering first :: answering first ::
        answering first :: rs) =
      Prod.map (⟨.query sql, true⟩ :: ⟨.affectedRows, (0 : ℕ)⟩ :: ⟨.insertId, (0 : ℕ)⟩ :: ·) id
        (Bind.bind (storeAndEmitResult hasCallback db)
          (fun emitted => if emitted.2.1 ≠ .ok then copyErrorMessage emitted.2.2 wantsErrmsg
            else pure (finishExec emitted.2.2 sql emitted.1 0 0))
          (answering first :: answering first :: rs)) := rfl
  rw [hquery, Dialogue.bind_next (storeAndEmitResult_of_many hcount hasCallback db rs)]
  rfl

/-- The server's side of it: nothing is stored, and the other results are not come to. -/
theorem after_of_many (hcount : intMax < first.names.length) (more : List ResultSet) (sql : Text)
    {tail : List ConnectionEvent}
    (htail : ∀ q : ResultQueue, after ResultQueue.next q tail = some q) :
    after ResultQueue.next (.ready first more)
        (⟨.query sql, true⟩ :: ⟨.affectedRows, (0 : ℕ)⟩ :: ⟨.insertId, (0 : ℕ)⟩ ::
          ⟨.storeResult, some first.names⟩ :: ⟨.freeResult, ()⟩ :: tail) =
      some { more := more, fields := first.names.length } := by
  have hnames : first.names ≠ [] := by
    intro hnil
    rw [hnil] at hcount
    cases hcount
  have hstore : ({ current := some first, more := more, fields := first.names.length } :
      ResultQueue).storeResult (some first.names) =
        some { more := more, fields := first.names.length, stored := [first.rows] } := by
    rw [ResultQueue.storeResult]
    dsimp only
    rw [if_neg hnames, if_pos rfl]
  show ((({ current := some first, more := more, fields := first.names.length } :
      ResultQueue).storeResult (some first.names)).bind fun q =>
        (q.freeResult).bind fun q => after ResultQueue.next q tail) = _
  rw [hstore]
  exact htail _

/-- So there is an error without any call of the callback, and the results behind it are not
    read. -/
theorem refuses_of_many (hgate : rejects db.currentSchema sql = false)
    (hcount : intMax < first.names.length) (more : List ResultSet)
    (hasCallback wantsErrmsg : Bool) :
    ∃ rs said r q, Dialogue.Returns (execImpl db sql hasCallback wantsErrmsg) rs said r ∧
      after ResultQueue.next (.ready first more) said = some q ∧
      r.code = .error ∧ q.calls = [] ∧ q.more = more := by
  have hrun := runQuery_of_many hcount (db.withDiagnostics setOk) sql hasCallback wantsErrmsg
    [answering first]
  rw [execImpl_of_not_rejects hgate]
  cases wantsErrmsg with
  | false =>
    exact ⟨_, _, _, _, ⟨_, hrun⟩, after_of_many hcount more sql fun _ => rfl, rfl, rfl, rfl⟩
  | true => exact ⟨_, _, _, _, ⟨_, hrun⟩, after_of_many hcount more sql fun _ => rfl, rfl, rfl, rfl⟩

/-- With too many columns, there is an error in every conversation. -/
theorem serves_execImpl_of_many (hgate : rejects db.currentSchema sql = false)
    (hcount : intMax < first.names.length) (more : List ResultSet)
    (hasCallback wantsErrmsg : Bool) :
    Serves 6 (.ready first more) (fun r _ => r.code ≠ .ok)
      (execImpl db sql hasCallback wantsErrmsg) := by
  refine serves_execImpl_of_store (n := 2) hgate
    (P := fun r _ => r.1 ≠ .ok ∧ r.2.errcode ≠ .ok) (fun db => ?_)
    (fun r q h _ => ⟨h.2, fun e he => he⟩) (fun r q h hok => absurd hok h.1) wantsErrmsg
  refine Total.asks (n := 1) fun names q₁ h₁ => ?_
  rcases next_storeResult rfl h₁ with ⟨hnames, -, -⟩ | ⟨-, rfl, rfl⟩
  · rw [hnames] at hcount
    cases hcount
  · refine Total.bind (n := 1) (m := 0) ?_ fun r q₂ h₂ => .pure h₂
    rw [emitResult, if_pos hcount]
    exact Total.asks (n := 0) fun _ _ _ => .pure ⟨nofun, nofun⟩

/-- **Streams of rows.** Whatever results the server has and whatever the callback returns, a
    direct execution hands the rows of the first result to the callback as far as it wants them, its
    code tells whether all were wanted, and no result is left, exactly if an `int` can count the
    columns of the first result. -/
theorem streams_iff (db : MyliteDb) (sql : Text) (hgate : rejects db.currentSchema sql = false)
    (hasCallback wantsErrmsg : Bool) (first : ResultSet) (more : List ResultSet) :
    (∃ n, Serves n (.ready first more) (Streams first hasCallback)
        (execImpl db sql hasCallback wantsErrmsg)) ↔
      first.names.length ≤ intMax := by
  constructor
  · rintro ⟨n, h⟩
    by_contra hcount
    obtain ⟨rs, said, r, q, ⟨rs', hreturns⟩, hafter, hcode, hcalls, -⟩ :=
      refuses_of_many hgate (Nat.lt_of_not_le hcount) more hasCallback wantsErrmsg
    have hstreams := h rs q (by rw [hreturns]; exact hafter)
    rw [hreturns] at hstreams
    have hok := hstreams.2.code.mpr (by rw [hcalls]; exact List.forall_mem_nil _)
    rw [hcode] at hok
    cases hok
  · exact fun hcount => ⟨_, serves_execImpl hgate hcount more hasCallback wantsErrmsg⟩

/-- A result with one column. -/
def oneColumn (values : List (Option Text)) : ResultSet where
  names := [ascii "a"]
  rows := values.map fun value => [value]
  rows_length := by simp
  rows_nil := nofun

/-- A result without columns, as a procedure has it at its end. -/
def noColumns : ResultSet := ⟨[], [], List.forall_mem_nil _, fun _ => rfl⟩

/-- A column with two rows, and the end of a procedure behind it. -/
theorem streams_twoRows :
    (∃ n, Serves n (.ready (oneColumn [some (ascii "1"), none]) [noColumns])
        (Streams (oneColumn [some (ascii "1"), none]) true) (execImpl {} [] true true)) ↔
      (oneColumn [some (ascii "1"), none]).names.length ≤ intMax :=
  streams_iff {} [] rfl true true (oneColumn [some (ascii "1"), none]) [noColumns]

end MyLite.Api

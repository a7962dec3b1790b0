import MyLite.Lib.Run
import MyLite.Prepared.Bindings

namespace MyLite.Prepared

open MyLite.Client MyLite.Lib MyLite.Sql List

/-!
# What an execution reads

Over any sequence of calls on one statement, an execution reads for every parameter the value of
the last successful bind, as the caller's memory was at that call; an empty string is read as `NULL`
where the session's `sql_mode` has `EMPTY_STRING_IS_NULL`.

* `StoreCall`, `Store.call` — the calls; the caller may also write to its own memory.
* `Entry`, `lastBound` — the successful calls, and the value they leave for a parameter.
* `Recorded` — a store with the record of its successful calls and of its executions.
* `reads_lastBound_of_run` — the parameter store.
-/

variable {Row : Type}

/-- A call on a statement, or what else may happen between two calls. -/
inductive StoreCall (Row : Type)
  | bindNull (index : ℕ)
  | bindInt64 (index : ℕ) (value : Int64)
  | bindUint64 (index : ℕ) (value : UInt64)
  | bindDouble (index : ℕ) (bits : UInt64)
  | bindText (index : ℕ) (value : Option ℕ) (valueLen : ℕ) (destructor : Destructor) (address : ℕ)
  | bindBlob (index : ℕ) (value : Option ℕ) (valueLen : ℕ) (destructor : Destructor) (address : ℕ)
  | clearBindings
  | step (i : StepInput Row)
  | reset (answer : Answer Row)
  /-- The caller changes a buffer of its own. -/
  | callerWrites (address : ℕ) (bytes : Text)
  /-- Other statements have used the connection, and the session may have another `sql_mode`. -/
  | onConnection (conn : Connection Row) (emptyStringIsNull : Bool)

/-- The parameter that a call binds. -/
def StoreCall.index : StoreCall Row → Option ℕ
  | .bindNull index | .bindInt64 index _ | .bindUint64 index _ | .bindDouble index _
  | .bindText index _ _ _ _ | .bindBlob index _ _ _ _ => some index
  | _ => none

/-- The store behind a call; `false` is `MYLITE_MISUSE`. -/
def Store.call (s : Store Row) : StoreCall Row → Bool × Store Row
  | .bindNull index => s.bindNullValue index
  | .bindInt64 index value => s.bindInt64 index value
  | .bindUint64 index value => s.bindUint64 index value
  | .bindDouble index bits => s.bindDouble index bits
  | .bindText index value valueLen destructor address =>
    s.bindText index value valueLen destructor address
  | .bindBlob index value valueLen destructor address =>
    s.bindBlob index value valueLen destructor address
  | .clearBindings => s.clearBindings
  | .step i => (true, (s.step i).2)
  | .reset answer => (true, (s.reset answer).2)
  | .callerWrites address bytes =>
    (true, { s with memory := Function.update s.memory address bytes })
  | .onConnection conn emptyStringIsNull =>
    (true, { s with handle := { s.handle with conn := conn }, emptyStringIsNull })

/-- The vector of a parameter gets a buffer that no other one has, and the caller's buffer is as
    long as the caller says. -/
def Store.ValidBytes (s : Store Row) (index : ℕ) (value : Option ℕ) (valueLen address : ℕ) : Prop :=
  (∀ (j : ℕ) (q : StoredParameter), j ≠ index - 1 → s.parameters[j]? = some q →
    q.bytes ≠ some address) ∧
  ∀ a, value = some a → valueLen = ulongMax ∨ valueLen ≤ (s.memory a).length

/-- What the allocator and the caller guarantee. -/
def Store.Valid (s : Store Row) : StoreCall Row → Prop
  | .bindText index value valueLen _ address | .bindBlob index value valueLen _ address =>
    s.ValidBytes index value valueLen address
  | .callerWrites address _ => ∀ p ∈ s.parameters, p.bytes ≠ some address
  | _ => True

/-! ### The record -/

/-- A successful bind, with the buffer that goes to a custom destructor, or a successful clear. -/
inductive Entry
  | bound (index : ℕ) (value : Value) (freed : Option ℕ)
  | cleared

/-- The buffer of an entry. -/
def Entry.freed : Entry → Option ℕ
  | .bound _ _ freed => freed
  | .cleared => none

/-- The buffer that goes to the destructor. -/
def Destructor.freed (destructor : Destructor) (value : Option ℕ) : Option ℕ :=
  if destructor = .custom then value else none

/-- What a call amounts to if it succeeds, on the memory as it is. -/
def StoreCall.entry (s : Store Row) : StoreCall Row → Option Entry
  | .bindNull index => some (.bound index .null none)
  | .bindInt64 index value => some (.bound index (.int64 value) none)
  | .bindUint64 index value => some (.bound index (.uint64 value) none)
  | .bindDouble index bits => some (.bound index (.double bits) none)
  | .bindText index value valueLen destructor _ =>
    some (.bound index (.text (s.callerBytes value (s.resolvedLen value valueLen)))
      (destructor.freed value))
  | .bindBlob index value valueLen destructor _ =>
    some (.bound index (.blob (s.callerBytes value valueLen)) (destructor.freed value))
  | .clearBindings => some .cleared
  | _ => none

/-- The value of a parameter, from the entries, the last one first: that of its last bind since
    the last clear. -/
def lastBound (index : ℕ) : List Entry → Value
  | [] => .null
  | .cleared :: _ => .null
  | .bound i value _ :: rest => if i = index then value else lastBound index rest

/-- What an execution has read, the mode of the session, and the successful calls before it. -/
structure ExecutionRecord where
  values : List (Option Value)
  emptyStringIsNull : Bool
  log : List Entry

/-- The execution has read what the calls before it have bound, as the mode has it. -/
def ExecutionRecord.ReadsLastBound (count : ℕ) (run : ExecutionRecord) : Prop :=
  run.values = (List.range count).map fun i =>
    some ((lastBound (i + 1) run.log).taken run.emptyStringIsNull)

/-- A store, the successful calls so far, the last one first, and the executions. -/
structure Recorded (Row : Type) where
  store : Store Row
  log : List Entry := []
  executions : List ExecutionRecord := []

namespace Recorded

/-- A statement as `mylite_prepare` returns it. -/
def prepared (conn : Connection Row) (stmt : Stmt) (memory : ℕ → Text) (count : ℕ) :
    Recorded Row where
  store := .prepared conn stmt memory count

/-- The record behind a call that returns `ok` and leaves `store`. -/
def next (o : Recorded Row) (ok : Bool) (store : Store Row) (entry : Option Entry) :
    Recorded Row where
  store := store
  log := (if ok then entry else none).toList ++ o.log
  executions := o.executions ++ (store.runs.drop o.store.runs.length).map fun run =>
    ⟨run, o.store.emptyStringIsNull, o.log⟩

/-- One call. -/
def call (o : Recorded Row) (c : StoreCall Row) : Recorded Row :=
  o.next (o.store.call c).1 (o.store.call c).2 (c.entry o.store)

/-- The store holds what the record says. -/
structure Tracked (count : ℕ) (o : Recorded Row) : Prop where
  refines : ∃ t : BoundStmt Row, Refines o.store t ∧
    t.parameters.map ParameterBinding.value
      = (List.range count).map fun i => lastBound (i + 1) o.log
  destroyed : o.store.destroyed = o.log.reverse.filterMap Entry.freed
  executions : ∀ run ∈ o.executions, run.ReadsLastBound count

end Recorded

/-! ### Binding and the record -/

theorem value_bytesParameter_blob (value : Text) :
    (bytesParameter true value).value = .blob value := by
  have htext := value_bytesParameter value
  unfold bytesParameter at htext ⊢
  exact congrArg Value.blob (Value.text.inj htext)

/-- A bind sets one value. -/
theorem values_set {parameters : List ParameterBinding} {count : ℕ} {log : List Entry}
    (h : parameters.map ParameterBinding.value
      = (List.range count).map fun i => lastBound (i + 1) log) {index : ℕ} (hpos : 0 < index)
    (b : ParameterBinding) (freed : Option ℕ) :
    (parameters.set (index - 1) b).map ParameterBinding.value
      = (List.range count).map fun i => lastBound (i + 1) (.bound index b.value freed :: log) := by
  rw [map_set, h]
  refine ext_getElem (by simp) fun i hi hi' => ?_
  rw [getElem_set, getElem_map, getElem_map, getElem_range, lastBound]
  exact if_congr (by omega) rfl rfl

/-- After a clear every value is `NULL`. -/
theorem values_cleared (count : ℕ) (log : List Entry) :
    (List.replicate count ParameterBinding.null).map ParameterBinding.value
      = (List.range count).map fun i => lastBound (i + 1) (.cleared :: log) := by
  rw [map_replicate]
  exact (eq_replicate_iff.mpr ⟨by simp, fun v hv => by
    obtain ⟨_, -, rfl⟩ := mem_map.mp hv
    rfl⟩).symm

namespace Recorded

variable {count : ℕ} {o : Recorded Row}

/-- A call that executes nothing. -/
theorem executions_next {ok : Bool} {store : Store Row} {entry : Option Entry}
    (hruns : store.runs = o.store.runs) : (o.next ok store entry).executions = o.executions := by
  rw [next, hruns, drop_length]
  exact append_nil _

/-- A refused call. -/
theorem Tracked.refused (h : Tracked count o) (entry : Option Entry) :
    Tracked count (o.next false o.store entry) := by
  refine ⟨h.refines, h.destroyed, ?_⟩
  rw [executions_next rfl]
  exact h.executions

/-- A call that neither binds nor executes. -/
theorem Tracked.silent (h : Tracked count o) {store : Store Row}
    (hrefines : ∀ t, Refines o.store t → ∃ t', Refines store t' ∧ t'.parameters = t.parameters)
    (hdestroyed : store.destroyed = o.store.destroyed) (hruns : store.runs = o.store.runs) :
    Tracked count (o.next true store none) := by
  obtain ⟨t, ht, hvalues⟩ := h.refines
  obtain ⟨t', ht', hsame⟩ := hrefines t ht
  refine ⟨⟨t', ht', by rw [hsame]; exact hvalues⟩, hdestroyed.trans h.destroyed, ?_⟩
  rw [executions_next hruns]
  exact h.executions

/-- A call that binds `b`, or refuses to. -/
theorem Tracked.bound (h : Tracked count o) {index : ℕ} {b : ParameterBinding} {freed : Option ℕ}
    {r : Bool × Store Row}
    (hrefines : ∀ t, Refines o.store t →
      (r.1 = (t.bind index b).1 ∧ Refines r.2 (t.bind index b).2) ∨ r = (false, o.store))
    (hruns : r.2.runs = o.store.runs)
    (hdestroyed : r.2.destroyed = o.store.destroyed ++ if r.1 then freed.toList else []) :
    Tracked count (o.next r.1 r.2 (some (.bound index b.value freed))) := by
  obtain ⟨t, ht, hvalues⟩ := h.refines
  rcases hrefines t ht with ⟨hok, hr⟩ | hrefused
  · by_cases hrefused : index = 0 ∨ t.parameters.length < index ∨ t.handle.stmt.executed = true
    · rw [BoundStmt.refused_bind hrefused] at hok hr
      rw [hok, if_neg Bool.false_ne_true, append_nil] at hdestroyed
      rw [hok]
      refine ⟨⟨t, hr, hvalues⟩, hdestroyed.trans h.destroyed, ?_⟩
      rw [executions_next hruns]
      exact h.executions
    · rw [BoundStmt.accepted_bind hrefused] at hok hr
      rw [hok, if_pos rfl, h.destroyed] at hdestroyed
      rw [hok]
      refine ⟨⟨_, hr, values_set hvalues (by omega) b freed⟩, ?_, ?_⟩
      · show r.2.destroyed
          = (Entry.bound index b.value freed :: o.log).reverse.filterMap Entry.freed
        rw [hdestroyed, reverse_cons, filterMap_append]
        rfl
      · rw [executions_next hruns]
        exact h.executions
  · rw [hrefused]
    exact h.refused _

/-- An execution reads what the record says. -/
theorem Tracked.step (h : Tracked count o) (i : StepInput Row) :
    Tracked count (o.next true (o.store.step i).2 none) := by
  obtain ⟨t, ht, hvalues⟩ := h.refines
  refine ⟨⟨_, ht.step i, hvalues⟩, h.destroyed, fun run hrun => ?_⟩
  rcases mem_append.mp hrun with hold | hnew
  · exact h.executions run hold
  · obtain ⟨values, hmem, rfl⟩ := mem_map.mp hnew
    change values ∈ (if o.store.handle.sendsExecute (o.store.stepInput i)
      then o.store.runs ++ [o.store.values] else o.store.runs).drop o.store.runs.length at hmem
    split at hmem
    · rw [drop_left] at hmem
      rw [mem_singleton.mp hmem, ExecutionRecord.ReadsLastBound, ht.values]
      show t.parameters.map ((fun v => some (v.taken o.store.emptyStringIsNull)) ∘
        ParameterBinding.value) = _
      rw [← map_map, hvalues, map_map]
      rfl
    · rw [drop_length] at hmem
      cases hmem

/-- Clearing, or a refusal to clear. -/
theorem Tracked.cleared (h : Tracked count o) :
    Tracked count (o.next o.store.clearBindings.1 o.store.clearBindings.2 (some .cleared)) := by
  obtain ⟨t, ht, hvalues⟩ := h.refines
  obtain ⟨hok, hrefines, hdestroyed, hruns⟩ := ht.clearBindings
  by_cases hexecuted : t.handle.stmt.executed = true
  · rw [BoundStmt.clearBindings, if_pos hexecuted] at hok hrefines
    rw [hok]
    refine ⟨⟨t, hrefines, hvalues⟩, hdestroyed.trans h.destroyed, ?_⟩
    rw [executions_next hruns]
    exact h.executions
  · rw [BoundStmt.clearBindings, if_neg hexecuted] at hok hrefines
    rw [hok]
    refine ⟨⟨_, hrefines, ?_⟩, ?_, ?_⟩
    · have hlength : t.parameters.length = count := by
        rw [← length_map ParameterBinding.value, hvalues, length_map, length_range]
      show (List.replicate t.parameters.length ParameterBinding.null).map _ = _
      rw [hlength]
      exact values_cleared count o.log
    · show o.store.clearBindings.2.destroyed
        = (Entry.cleared :: o.log).reverse.filterMap Entry.freed
      rw [reverse_cons, filterMap_append, ← h.destroyed, hdestroyed]
      exact (append_nil _).symm
    · rw [executions_next hruns]
      exact h.executions

/-! ### The calls that bind bytes -/

end Recorded

namespace Store

variable {s : Store Row} {index valueLen address : ℕ} {value : Option ℕ}

/-- A bind leaves the destroyed buffers and the executions. -/
theorem frame_bindScalar (write : StoredParameter → StoredParameter) (bind : ℕ → MysqlBind) :
    (s.bindScalar index write bind).2.destroyed = s.destroyed ∧
      (s.bindScalar index write bind).2.runs = s.runs := by
  unfold bindScalar
  cases s.parameterAt index with
  | none => exact ⟨rfl, rfl⟩
  | some p =>
    dsimp only
    split <;> exact ⟨rfl, rfl⟩

theorem runs_bindBytes (isBlob : Bool) (destructor : Destructor) :
    (s.bindBytes index value valueLen isBlob destructor address).2.runs = s.runs := by
  unfold bindBytes
  cases s.parameterAt index with
  | none => rfl
  | some p =>
    dsimp only
    split <;> rfl

/-- A custom destructor gets the buffer of the caller, once, if the bind succeeds. -/
theorem destroyed_bindBytes (isBlob : Bool) (destructor : Destructor) :
    (s.bindBytes index value valueLen isBlob destructor address).2.destroyed
      = s.destroyed ++ if (s.bindBytes index value valueLen isBlob destructor address).1
          then (destructor.freed value).toList else [] := by
  unfold bindBytes Destructor.freed
  cases s.parameterAt index with
  | none => exact (append_nil _).symm
  | some p =>
    dsimp only
    split
    · exact (append_nil _).symm
    · rw [if_pos rfl]
      by_cases hcustom : destructor = .custom
      · rw [if_pos hcustom, if_pos hcustom]
      · rw [if_neg hcustom, if_neg hcustom]
        rfl

theorem bindBytes_of_long (h : ulongMax < valueLen) (isBlob : Bool) (destructor : Destructor) :
    s.bindBytes index value valueLen isBlob destructor address = (false, s) := by
  unfold bindBytes
  cases s.parameterAt index with
  | none => rfl
  | some p =>
    dsimp only
    rw [if_pos (by rw [decide_eq_true h, Bool.or_true])]

/-- The caller's buffer is as long as the caller says. -/
theorem length_callerBytes (hnone : value = none → valueLen = 0)
    (hlength : ∀ a, value = some a → valueLen ≤ (s.memory a).length) :
    (s.callerBytes value valueLen).length = valueLen := by
  cases value with
  | none => exact (hnone rfl).symm
  | some a => exact length_take_of_le (hlength a rfl)

/-- A text that ends with a zero is in the caller's buffer. -/
theorem resolvedLen_le (hvalid : ∀ a, value = some a → valueLen = ulongMax ∨
      valueLen ≤ (s.memory a).length) {a : ℕ} (ha : value = some a) :
    s.resolvedLen value valueLen ≤ (s.memory a).length := by
  unfold resolvedLen
  split
  · rw [ha]
    calc (((s.memory a).take valueLen).takeWhile (· != 0)).length
        ≤ ((s.memory a).take valueLen).length := (takeWhile_sublist _).length_le
      _ ≤ (s.memory a).length := length_take_le' ..
  · next hlen => exact (hvalid a ha).resolve_left hlen

end Store

namespace Recorded

variable {count : ℕ} {o : Recorded Row}

/-- `bind_bytes`. -/
theorem Tracked.bindBytes (h : Tracked count o) {index valueLen address : ℕ} {value : Option ℕ}
    (isBlob : Bool) (destructor : Destructor)
    (hlength : (o.store.callerBytes value valueLen).length = valueLen)
    (hother : ∀ (j : ℕ) (q : StoredParameter), j ≠ index - 1 → o.store.parameters[j]? = some q →
      q.bytes ≠ some address) :
    Tracked count (o.next (o.store.bindBytes index value valueLen isBlob destructor address).1
      (o.store.bindBytes index value valueLen isBlob destructor address).2
      (some (.bound index (bytesParameter isBlob (o.store.callerBytes value valueLen)).value
        (destructor.freed value)))) := by
  refine h.bound (fun t ht => ?_) (Store.runs_bindBytes isBlob destructor)
    (Store.destroyed_bindBytes isBlob destructor)
  by_cases hlong : ulongMax < valueLen
  · exact .inr (Store.bindBytes_of_long hlong isBlob destructor)
  · have hrefines : _ ∧ Refines
        (o.store.bindBytes index value valueLen isBlob destructor address).2 _ :=
      ht.bindBytes hlength hother
    rw [BoundStmt.bindBytes, hlength, if_neg hlong] at hrefines
    exact .inl hrefines

/-- A call that binds no bytes. -/
theorem Tracked.bindScalar (h : Tracked count o) {index : ℕ}
    {write : StoredParameter → StoredParameter} {bind : ℕ → MysqlBind} (b : ParameterBinding)
    (hbytes : ∀ p, (write p).bytes = p.bytes)
    (hrepresents : ∀ p memory,
      Represents memory (index - 1) { write p with bind := bind (index - 1) } b) :
    Tracked count (o.next (o.store.bindScalar index write bind).1
      (o.store.bindScalar index write bind).2 (some (.bound index b.value none))) := by
  obtain ⟨hdestroyed, hruns⟩ := Store.frame_bindScalar write bind
  refine h.bound (fun t ht => .inl (ht.bindScalar hbytes hrepresents)) hruns ?_
  rw [hdestroyed, Option.toList_none, ite_self, append_nil]

/-- `mylite_bind_text`. -/
theorem Tracked.bindText (h : Tracked count o) {index valueLen address : ℕ} {value : Option ℕ}
    (destructor : Destructor) (hvalid : o.store.ValidBytes index value valueLen address) :
    Tracked count (o.call (.bindText index value valueLen destructor address)) := by
  show Tracked count (o.next (o.store.bindText index value valueLen destructor address).1
    (o.store.bindText index value valueLen destructor address).2 _)
  by_cases hnone : (value.isNone && valueLen != 0) = true
  · rw [Store.bindText, if_pos hnone]
    exact h.refused _
  · have hlength : (o.store.callerBytes value (o.store.resolvedLen value valueLen)).length
        = o.store.resolvedLen value valueLen := by
      apply Store.length_callerBytes
      · rintro rfl
        have hzero : valueLen = 0 := by simpa using hnone
        subst hzero
        rfl
      · exact fun a ha => Store.resolvedLen_le hvalid.2 ha
    have htracked := h.bindBytes false destructor hlength hvalid.1
    rw [value_bytesParameter] at htracked
    rw [Store.bindText, if_neg hnone]
    exact htracked

/-- `mylite_bind_blob`. -/
theorem Tracked.bindBlob (h : Tracked count o) {index valueLen address : ℕ} {value : Option ℕ}
    (destructor : Destructor) (hvalid : o.store.ValidBytes index value valueLen address) :
    Tracked count (o.call (.bindBlob index value valueLen destructor address)) := by
  show Tracked count (o.next (o.store.bindBlob index value valueLen destructor address).1
    (o.store.bindBlob index value valueLen destructor address).2 _)
  by_cases hrefused : (value.isNone && valueLen != 0 || valueLen == ulongMax) = true
  · rw [Store.bindBlob, if_pos hrefused]
    exact h.refused _
  · have hok := hrefused
    rw [Bool.or_eq_true, not_or, beq_iff_eq] at hok
    have hlength : (o.store.callerBytes value valueLen).length = valueLen := by
      apply Store.length_callerBytes
      · rintro rfl
        simpa using hok.1
      · exact fun a ha => (hvalid.2 a ha).resolve_left hok.2
    have htracked := h.bindBytes true destructor hlength hvalid.1
    rw [value_bytesParameter_blob] at htracked
    rw [Store.bindBlob, if_neg hrefused]
    exact htracked

/-! ### Runs -/

/-- **One call.** -/
theorem Tracked.call (h : Tracked count o) {c : StoreCall Row} (hvalid : o.store.Valid c) :
    Tracked count (o.call c) := by
  cases c with
  | bindNull index => exact h.bindScalar .null (fun _ => rfl) fun _ _ => ⟨rfl, rfl⟩
  | bindInt64 index value =>
    exact h.bindScalar (.int64Value value) (fun _ => rfl) fun _ _ => ⟨rfl, rfl, rfl⟩
  | bindUint64 index value =>
    exact h.bindScalar (.uint64Value value) (fun _ => rfl) fun _ _ => ⟨rfl, rfl, rfl⟩
  | bindDouble index bits =>
    exact h.bindScalar (.doubleValue bits) (fun _ => rfl) fun _ _ => ⟨rfl, rfl, rfl⟩
  | bindText index value valueLen destructor address => exact h.bindText destructor hvalid
  | bindBlob index value valueLen destructor address => exact h.bindBlob destructor hvalid
  | clearBindings => exact h.cleared
  | step i => exact h.step i
  | reset answer => exact h.silent (fun t ht => ⟨_, ht.reset answer, rfl⟩) rfl rfl
  | callerWrites address bytes =>
    exact h.silent (fun t ht => ⟨t, ht.callerWrites bytes hvalid, rfl⟩) rfl rfl
  | onConnection conn mode =>
    exact h.silent (fun t ht => ⟨_, ht.onConnection conn mode, rfl⟩) rfl rfl

/-- A new statement has `NULL` for every parameter. -/
theorem tracked_prepared (conn : Connection Row) (stmt : Stmt) (memory : ℕ → Text) (count : ℕ) :
    Tracked count (prepared conn stmt memory count) := by
  obtain ⟨hrefines, hdestroyed⟩ := refines_prepared conn stmt memory count
  refine ⟨⟨_, hrefines, values_cleared count []⟩, hdestroyed, fun run hrun => ?_⟩
  cases hrun

/-- The calls that keep to what the allocator and the caller guarantee. -/
def Calls : Recorded Row → List (StoreCall Row) → Recorded Row → Prop :=
  Run (Restrict (fun o c => o.store.Valid c) (ofFun call))

end Recorded

/-- A bind of a bad index or of an executed statement is refused. -/
theorem Store.call_of_refused {s : Store Row} {c : StoreCall Row} {index : ℕ}
    (hindex : c.index = some index)
    (h : index = 0 ∨ s.parameters.length < index ∨ s.handle.stmt.executed = true) :
    s.call c = (false, s) := by
  cases c with
  | bindNull | bindInt64 | bindUint64 | bindDouble =>
    obtain rfl := Option.some.inj hindex
    simp only [call, bindNullValue, bindInt64, bindUint64, bindDouble, refused_bindScalar h]
  | bindText _ value valueLen =>
    obtain rfl := Option.some.inj hindex
    show bindText .. = _
    rw [bindText, refused_bindBytes h, ite_self]
  | bindBlob _ value valueLen =>
    obtain rfl := Option.some.inj hindex
    show bindBlob .. = _
    rw [bindBlob, refused_bindBytes h, ite_self]
  | clearBindings | step | reset | callerWrites | onConnection => cases hindex

/-- A statement with one placeholder is given a text, the caller then changes its buffer, and the
    statement is executed, reset and executed again. -/
def changedBuffer : List (StoreCall Unit) :=
  [.bindText 1 (some 0) 2 .custom 1, .callerWrites 0 [], .step { answers := [.ok] }, .reset .ok,
    .step { answers := [.ok] }]

/-- The statement of `changedBuffer` before the calls. -/
def changedBufferStart : Recorded Unit :=
  .prepared {} { state := .prepareDone } (fun _ => ascii "hi") 1

theorem calls_changedBuffer :
    Recorded.Calls changedBufferStart changedBuffer
      (changedBuffer.foldl Recorded.call changedBufferStart) := by
  refine .cons ⟨⟨fun j q hj hq => ?_, fun a ha => .inr ?_⟩, rfl⟩ (.cons ⟨?_, rfl⟩
    (.cons ⟨trivial, rfl⟩ (.cons ⟨trivial, rfl⟩ (.cons ⟨trivial, rfl⟩ (.nil _)))))
  · cases j with
    | zero => exact absurd rfl hj
    | succ j => cases hq
  · cases ha
    decide
  · show ∀ p ∈ _, StoredParameter.bytes p ≠ some 0
    decide

end MyLite.Prepared

import MyLite.Prepared.Parameters

namespace MyLite.Prepared

open MyLite.Client MyLite.Lib MyLite.Sql List

/-!
# The parameter store in memory

A `ParameterBinding` of `database.cc` holds a value in one of its members and a `MYSQL_BIND` with
pointers to its own members and to the buffer of its vector.  Every execution copies the binds to
the client library, and the server reads the values through the pointers.

* `StoredParameter`, `Store` — the members, the memory, and the calls on them.
* `Store.readParam` — what the server reads; `none` where a pointer leads nowhere.
* `Represents`, `Refines` — the store is as the values of `BoundStmt` say.
* `Refines.values` — every execution reads the values, as the session's mode has them.
* `Refines.bindScalar`, `Refines.bindBytes`, `Refines.clearBindings` — the calls keep the relation.
-/

/-! ### Members and pointers -/

/-- The values of `enum_field_types` that occur. -/
inductive BufferType
  /-- `MYSQL_TYPE_DECIMAL`, the value of a cleared bind. -/
  | decimal
  | double
  | null
  | longlong
  | blob
  | string
  deriving DecidableEq, Repr

/-- What a member of `MYSQL_BIND` may point to.  `stmt->parameters` keeps its size and place, so
    a member of a parameter is named by the number of the parameter. -/
inductive Pointer
  | null
  /-- `int_is_null_true` and `int_is_null_false` of the client library. -/
  | constant (value : Bool)
  /-- `buffer_length` of the bind itself. -/
  | ownLength
  | length (parameter : ℕ)
  | isNull (parameter : ℕ)
  | int64Value (parameter : ℕ)
  | uint64Value (parameter : ℕ)
  | doubleValue (parameter : ℕ)
  /-- The buffer of a vector. -/
  | heap (address : ℕ)
  deriving DecidableEq, Repr

/-- `MYSQL_BIND`. -/
structure MysqlBind where
  bufferType : BufferType := .decimal
  buffer : Pointer := .null
  bufferLength : ℕ := 0
  length : Pointer := .null
  isNull : Pointer := .null
  isUnsigned : Bool := false
  deriving DecidableEq, Repr

/-- `ParameterBinding` with its members; `bytes` is where the buffer of the vector is, if it has
    one, and a `double` is given by its bits. -/
structure StoredParameter where
  bind : MysqlBind := {}
  bytes : Option ℕ := none
  length : ℕ := 0
  isNull : Bool := false
  int64Value : Int64 := 0
  uint64Value : UInt64 := 0
  doubleValue : UInt64 := 0
  deriving DecidableEq

/-- How the caller wants its buffer to be released. -/
inductive Destructor
  /-- `MYLITE_STATIC`. -/
  | static
  /-- `MYLITE_TRANSIENT`. -/
  | transient
  | custom
  deriving DecidableEq, Repr

/-- A statement with its parameters in memory.  `memory` has the buffers of the vectors and of the
    caller, `destroyed` the buffers a custom destructor was called with, `runs` what the server has
    read at every execution, and `emptyStringIsNull` is that flag of the session's `sql_mode`. -/
structure Store (Row : Type) where
  handle : Handle Row
  memory : ℕ → Text
  parameters : List StoredParameter
  destroyed : List ℕ := []
  runs : List (List (Option Value)) := []
  emptyStringIsNull : Bool := false

variable {Row : Type}

namespace Store

variable (s : Store Row)

/-! ### Binding -/

variable (index : ℕ)

/-- `parameter_at`. -/
def parameterAt : Option StoredParameter :=
  if index = 0 || s.parameters.length < index then none else s.parameters[index - 1]?

/-- The memory behind `parameter->bytes.clear()`. -/
def cleared (p : StoredParameter) : ℕ → Text :=
  match p.bytes with
  | some address => Function.update s.memory address []
  | none => s.memory

/-- A parameter and the memory are written. -/
def assign (p : StoredParameter) (memory : ℕ → Text) : Store Row :=
  { s with parameters := s.parameters.set (index - 1) p, memory := memory }

/-- What the functions that bind no bytes share: the members are written by `write`, and the bind
    is made anew; `false` is `MYLITE_MISUSE`. -/
def bindScalar (write : StoredParameter → StoredParameter) (bind : ℕ → MysqlBind) :
    Bool × Store Row :=
  match s.parameterAt index with
  | none => (false, s)
  | some p =>
    if s.handle.stmt.executed then (false, s)
    else (true, s.assign index { write p with bind := bind (index - 1) } (s.cleared p))

/-- `bind_null_value`, `mylite_bind_null`. -/
def bindNullValue : Bool × Store Row :=
  s.bindScalar index (fun p => { p with length := 0, isNull := true })
    fun i => { bufferType := .null, length := .length i, isNull := .isNull i }

/-- `mylite_bind_int64`. -/
def bindInt64 (value : Int64) : Bool × Store Row :=
  s.bindScalar index (fun p => { p with int64Value := value, length := 8, isNull := false })
    fun i => { bufferType := .longlong, buffer := .int64Value i, length := .length i,
               isNull := .isNull i }

/-- `mylite_bind_uint64`. -/
def bindUint64 (value : UInt64) : Bool × Store Row :=
  s.bindScalar index (fun p => { p with uint64Value := value, length := 8, isNull := false })
    fun i => { bufferType := .longlong, buffer := .uint64Value i, length := .length i,
               isNull := .isNull i, isUnsigned := true }

/-- `mylite_bind_double`. -/
def bindDouble (bits : UInt64) : Bool × Store Row :=
  s.bindScalar index (fun p => { p with doubleValue := bits, length := 8, isNull := false })
    fun i => { bufferType := .double, buffer := .doubleValue i, length := .length i,
               isNull := .isNull i }

variable (value : Option ℕ) (valueLen : ℕ) (destructor : Destructor) (address : ℕ)

/-- The first `valueLen` bytes at a pointer of the caller. -/
def callerBytes : Text :=
  match value with
  | some address => (s.memory address).take valueLen
  | none => []

/-- `bind_bytes`; `address` is where the vector has its buffer behind `assign`. -/
def bindBytes (isBlob : Bool) (destructor : Destructor) (address : ℕ) : Bool × Store Row :=
  match s.parameterAt index with
  | none => (false, s)
  | some p =>
    if s.handle.stmt.executed || ulongMax < valueLen then (false, s)
    else
      let content := s.callerBytes value valueLen
      let bind : MysqlBind :=
        { bufferType := if isBlob then .blob else .string, buffer := .heap address,
          bufferLength := valueLen, length := .length (index - 1), isNull := .isNull (index - 1) }
      let written :=
        { p with bytes := some address, length := valueLen, isNull := false, bind := bind }
      let s' := s.assign index written
        (Function.update (s.cleared p) address (if content.isEmpty then [0] else content))
      (true, { s' with
        destroyed := s.destroyed ++ (if destructor = .custom then value.toList else []) })

/-- The length that `MYLITE_NUL_TERMINATED` stands for. -/
def resolvedLen : ℕ :=
  if valueLen = ulongMax then ((s.callerBytes value valueLen).takeWhile (· != 0)).length
  else valueLen

/-- `mylite_bind_text`. -/
def bindText : Bool × Store Row :=
  if value.isNone && valueLen != 0 then (false, s)
  else s.bindBytes index value (s.resolvedLen value valueLen) false destructor address

/-- `mylite_bind_blob`. -/
def bindBlob : Bool × Store Row :=
  if value.isNone && valueLen != 0 || valueLen == ulongMax then (false, s)
  else s.bindBytes index value valueLen true destructor address

/-- The loop over `bind_null_value`. -/
def bindNulls : List ℕ → Store Row → Bool × Store Row
  | [], s => (true, s)
  | index :: rest, s =>
    match s.bindNullValue index with
    | (true, s) => bindNulls rest s
    | (false, s) => (false, s)

/-- `mylite_clear_bindings`. -/
def clearBindings : Bool × Store Row :=
  if s.handle.stmt.executed then (false, s)
  else bindNulls (List.range' 1 s.parameters.length) s

/-- The parameters of a statement with `count` placeholders, as `mylite_prepare` returns it. -/
def prepared (conn : Connection Row) (stmt : Stmt) (memory : ℕ → Text) (count : ℕ) : Store Row :=
  (bindNulls (List.range' 1 count)
    { handle := ⟨conn, { stmt := stmt }⟩, memory := memory,
      parameters := List.replicate count {} }).2

/-! ### Executing -/

end Store

/-- What `mysql_stmt_bind_param` makes of one bind. -/
def MysqlBind.registered (b : MysqlBind) : MysqlBind :=
  let b := if b.isNull = .null then { b with isNull := .constant false } else b
  let b := match b.bufferType with
    | .null => { b with isNull := .constant true }
    | .longlong | .double => { b with length := .ownLength, bufferLength := 8 }
    | _ => b
  if b.length = .null then { b with length := .ownLength } else b

namespace Store

variable (s : Store Row)

/-- A `my_bool` behind a pointer. -/
def readFlag : Pointer → Option Bool
  | .constant value => some value
  | .isNull i => s.parameters[i]?.map StoredParameter.isNull
  | _ => none

/-- The length of a bind. -/
def readLength (b : MysqlBind) : Option ℕ :=
  match b.length with
  | .ownLength => some b.bufferLength
  | .length i => s.parameters[i]?.map StoredParameter.length
  | _ => none

/-- Eight bytes behind a pointer. -/
def readWord : Pointer → Option UInt64
  | .int64Value i => s.parameters[i]?.map fun p => p.int64Value.toUInt64
  | .uint64Value i => s.parameters[i]?.map StoredParameter.uint64Value
  | .doubleValue i => s.parameters[i]?.map StoredParameter.doubleValue
  | _ => none

/-- Bytes behind a pointer: the buffer has to be that of a vector, and to have so many. -/
def readBytes (pointer : Pointer) (length : ℕ) : Option Text :=
  match pointer with
  | .heap address =>
    if s.parameters.any (fun p => p.bytes == some address) && length ≤ (s.memory address).length
    then some ((s.memory address).take length)
    else none
  | _ => none

/-- `Item_param::set_param_str`. -/
def setParamStr (make : Text → Value) (buffer : Pointer) (length : ℕ) : Option Value :=
  if length = 0 ∧ s.emptyStringIsNull = true then some .null
  else (s.readBytes buffer length).map make

/-- `emb_insert_params`, for one bind. -/
def readParam (b : MysqlBind) : Option Value :=
  match s.readFlag b.isNull, s.readLength b with
  | some true, _ => some .null
  | some false, some length =>
    match b.bufferType with
    | .longlong => (s.readWord b.buffer).map fun word =>
        if b.isUnsigned then .uint64 word else .int64 word.toInt64
    | .double => (s.readWord b.buffer).map .double
    | .string => s.setParamStr .text b.buffer length
    | .blob => s.setParamStr .blob b.buffer length
    | .decimal | .null => none
  | _, _ => none

/-- `bind_parameters`: the binds the client library has for the execution. -/
def bindParameters : List MysqlBind := s.parameters.map fun p => p.bind.registered

/-- What the server reads. -/
def values : List (Option Value) := s.bindParameters.map s.readParam

/-- What `bind_parameters` makes of the backend's part. -/
def stepInput (i : StepInput Row) : StepInput Row :=
  { i with bindParameters := s.parameters.isEmpty || i.bindParameters }

/-- `mylite_step`. -/
def step (i : StepInput Row) : StepResult Row × Store Row :=
  match s.handle.step (s.stepInput i) with
  | (result, h) =>
    (result, { s with
      handle := h
      runs := if s.handle.sendsExecute (s.stepInput i) then s.runs ++ [s.values] else s.runs })

/-- `mylite_reset`. -/
def reset (answer : Answer Row) : Bool × Store Row :=
  ((s.handle.reset answer).1, { s with handle := (s.handle.reset answer).2 })

end Store

/-- A value as the server takes it: an empty string is `NULL` in a session that wants it so. -/
def Value.taken (emptyStringIsNull : Bool) : Value → Value
  | .text [] => if emptyStringIsNull then .null else .text []
  | .blob [] => if emptyStringIsNull then .null else .blob []
  | value => value

/-! ### The store and its values -/

/-- The bind of parameter `i` with its pointers, apart from the buffer. -/
def memberBind (i : ℕ) (bufferType : BufferType) (buffer : Pointer) (bufferLength : ℕ)
    (isUnsigned : Bool) : MysqlBind :=
  ⟨bufferType, buffer, bufferLength, .length i, .isNull i, isUnsigned⟩

/-- Parameter `i` is as the value says, and its pointers lead to its own members. -/
def Represents (memory : ℕ → Text) (i : ℕ) (p : StoredParameter) : ParameterBinding → Prop
  | .null => p.bind = memberBind i .null .null 0 false ∧ p.isNull = true
  | .int64Value value =>
    p.bind = memberBind i .longlong (.int64Value i) 0 false ∧ p.isNull = false ∧
      p.int64Value = value
  | .uint64Value value =>
    p.bind = memberBind i .longlong (.uint64Value i) 0 true ∧ p.isNull = false ∧
      p.uint64Value = value
  | .doubleValue bits =>
    p.bind = memberBind i .double (.doubleValue i) 0 false ∧ p.isNull = false ∧
      p.doubleValue = bits
  | .bytes isBlob buffer length => ∃ address, p.bytes = some address ∧ memory address = buffer ∧
    p.bind = memberBind i (if isBlob then .blob else .string) (.heap address) length false ∧
    p.isNull = false ∧ p.length = length ∧ length ≤ buffer.length

/-- The parameters that are `done` are as the values say, and every vector has a buffer of its
    own. -/
structure RefinesOn (done : ℕ → Prop) (s : Store Row) (t : BoundStmt Row) : Prop where
  handle : s.handle = t.handle
  length : s.parameters.length = t.parameters.length
  represents : ∀ i p b, done i → s.parameters[i]? = some p → t.parameters[i]? = some b →
    Represents s.memory i p b
  separate : ∀ (i j : ℕ) (p q : StoredParameter) (address : ℕ), s.parameters[i]? = some p →
    s.parameters[j]? = some q → p.bytes = some address → q.bytes = some address → i = j

/-- All parameters are as the values say. -/
abbrev Refines (s : Store Row) (t : BoundStmt Row) : Prop := RefinesOn (fun _ => True) s t

variable {b : ParameterBinding} {done done' : ℕ → Prop}

/-- The server takes the bytes it reads. -/
theorem Store.setParamStr_of_readBytes {s : Store Row} {buffer : Pointer} {length : ℕ}
    {bytes : Text}
    (h : s.readBytes buffer length = some bytes) (hlength : bytes.length = length) :
    s.setParamStr .text buffer length = some ((Value.text bytes).taken s.emptyStringIsNull) ∧
      s.setParamStr .blob buffer length = some ((Value.blob bytes).taken s.emptyStringIsNull) := by
  rw [setParamStr, setParamStr, h]
  cases bytes with
  | nil =>
    obtain rfl : 0 = length := hlength
    cases s.emptyStringIsNull <;> exact ⟨rfl, rfl⟩
  | cons c rest =>
    have hpos : length ≠ 0 := by
      rw [← hlength]
      exact Nat.succ_ne_zero _
    rw [if_neg fun hzero => hpos hzero.1, if_neg fun hzero => hpos hzero.1]
    exact ⟨rfl, rfl⟩

/-- The server reads the value of a parameter. -/
theorem readParam_of_represents {s : Store Row} {i : ℕ} {p : StoredParameter}
    (hp : s.parameters[i]? = some p) (h : Represents s.memory i p b) :
    s.readParam p.bind.registered = some (b.value.taken s.emptyStringIsNull) := by
  cases b with
  | null =>
    obtain ⟨hbind, -⟩ := h
    rw [hbind]
    rfl
  | int64Value _ | uint64Value _ | doubleValue _ =>
    obtain ⟨hbind, hnull, rfl⟩ := h
    rw [hbind]
    simp only [memberBind, MysqlBind.registered, Store.readParam, Store.readFlag, Store.readLength,
      Store.readWord, hp, hnull, Option.map_some, reduceCtorEq, if_true, if_false,
      Bool.false_eq_true, Int64.toInt64_toUInt64, ParameterBinding.value, Value.taken]
  | bytes isBlob buffer length =>
    obtain ⟨address, haddress, rfl, hbind, hnull, rfl, hlength⟩ := h
    have hlive : s.parameters.any (fun q => q.bytes == some address) = true := by
      rw [any_eq_true]
      exact ⟨p, mem_of_getElem? hp, by rw [haddress, beq_self_eq_true]⟩
    have hbytes : s.readBytes (.heap address) p.length =
        some ((s.memory address).take p.length) := by
      simp [Store.readBytes, hlive, hlength]
    have hstr := Store.setParamStr_of_readBytes hbytes (length_take_of_le hlength)
    rw [hbind]
    cases isBlob <;>
      simp [memberBind, MysqlBind.registered, Store.readParam, Store.readFlag, Store.readLength,
        hp, hnull, hstr, ParameterBinding.value]

variable {s : Store Row} {t : BoundStmt Row}

/-- **Every execution reads the values.** -/
theorem Refines.values (h : Refines s t) :
    s.values = t.parameters.map fun b => some (b.value.taken s.emptyStringIsNull) := by
  refine ext_getElem (by simp [Store.values, Store.bindParameters, h.length]) fun i hi hi' => ?_
  simp only [Store.values, Store.bindParameters, getElem_map]
  exact readParam_of_represents (List.getElem?_eq_getElem _)
    (h.represents i _ _ trivial (List.getElem?_eq_getElem _) (List.getElem?_eq_getElem _))

/-- One parameter is written, and its vector has a buffer that no other one has. -/
theorem RefinesOn.assign (h : RefinesOn done s t) {i : ℕ} {p : StoredParameter}
    {memory : ℕ → Text} (hdone : ∀ j, done' j → j ≠ i → done j)
    (hrepresents : Represents memory i p b)
    (howned : ∀ j q address, j ≠ i → s.parameters[j]? = some q → q.bytes = some address →
      p.bytes ≠ some address ∧ memory address = s.memory address) :
    RefinesOn done' { s with parameters := s.parameters.set i p, memory := memory }
      (t.withParameters (t.parameters.set i b)) := by
  have hself : ∀ q, (s.parameters.set i p)[i]? = some q → q = p := by
    intro q hq
    rw [List.getElem?_set, if_pos rfl] at hq
    split at hq
    · exact (Option.some.inj hq).symm
    · cases hq
  have hother : ∀ j, j ≠ i → (s.parameters.set i p)[j]? = s.parameters[j]? :=
    fun j hj => List.getElem?_set_ne hj.symm
  refine ⟨h.handle, ?_, fun j q c hj' hq hc => ?_, fun j k q r address hq hr haq har => ?_⟩
  · show (s.parameters.set i p).length = (t.parameters.set i b).length
    rw [length_set, length_set, h.length]
  · change (s.parameters.set i p)[j]? = some q at hq
    change (t.parameters.set i b)[j]? = some c at hc
    by_cases hj : j = i
    · subst hj
      rw [List.getElem?_set, if_pos rfl] at hc
      split at hc
      · rw [hself q hq, ← Option.some.inj hc]
        exact hrepresents
      · cases hc
    · rw [hother j hj] at hq
      rw [List.getElem?_set_ne (Ne.symm hj)] at hc
      have hold := h.represents j q c (hdone j hj' hj) hq hc
      cases c with
      | bytes isBlob buffer length =>
        obtain ⟨address, haddress, hbuffer, hrest⟩ := hold
        exact ⟨address, haddress, (howned j q address hj hq haddress).2.trans hbuffer, hrest⟩
      | null | int64Value | uint64Value | doubleValue => exact hold
  · change (s.parameters.set i p)[j]? = some q at hq
    change (s.parameters.set i p)[k]? = some r at hr
    by_cases hj : j = i
    · by_cases hk : k = i
      · exact hj.trans hk.symm
      · rw [hj] at hq
        rw [hself q hq] at haq
        rw [hother k hk] at hr
        exact absurd haq (howned k r address hk hr har).1
    · rw [hother j hj] at hq
      by_cases hk : k = i
      · rw [hk] at hr
        rw [hself r hr] at har
        exact absurd har (howned j q address hj hq haq).1
      · rw [hother k hk] at hr
        exact h.separate j k q r address hq hr haq har

/-- Clearing the vector of one parameter leaves the buffers of the others. -/
theorem RefinesOn.cleared (h : RefinesOn done s t) {i j : ℕ} {p q : StoredParameter} {address : ℕ}
    (hp : s.parameters[i]? = some p) (hj : j ≠ i) (hq : s.parameters[j]? = some q)
    (haddress : q.bytes = some address) : s.cleared p address = s.memory address := by
  cases hbytes : p.bytes with
  | none => rw [Store.cleared, hbytes]
  | some old =>
    rw [Store.cleared, hbytes]
    apply Function.update_of_ne
    rintro rfl
    exact hj (h.separate j i q p _ hq hp haddress hbytes)

/-! ### The calls on the store -/

namespace Store

variable {s : Store Row} {index : ℕ}

theorem parameterAt_of_refused
    (h : index = 0 ∨ s.parameters.length < index ∨ s.handle.stmt.executed = true) :
    s.parameterAt index = none ∨ s.handle.stmt.executed = true := by
  rcases h with h | h | h
  · exact .inl (by simp [parameterAt, h])
  · exact .inl (by simp [parameterAt, h])
  · exact .inr h

theorem exists_parameterAt
    (h : ¬(index = 0 ∨ s.parameters.length < index ∨ s.handle.stmt.executed = true)) :
    ∃ p, s.parameterAt index = some p ∧ s.parameters[index - 1]? = some p ∧
      s.handle.stmt.executed = false := by
  rw [← or_assoc, not_or] at h
  have hlt : index - 1 < s.parameters.length := by omega
  have hp := List.getElem?_eq_getElem hlt
  refine ⟨s.parameters[index - 1], ?_, hp, Bool.eq_false_iff.mpr h.2⟩
  unfold parameterAt
  rw [if_neg (by simpa using h.1), hp]

/-- A call that only refuses bad indexes and executed statements. -/
theorem refused_bindScalar {write : StoredParameter → StoredParameter} {bind : ℕ → MysqlBind}
    (h : index = 0 ∨ s.parameters.length < index ∨ s.handle.stmt.executed = true) :
    s.bindScalar index write bind = (false, s) := by
  unfold bindScalar
  rcases parameterAt_of_refused h with hnone | hexecuted
  · rw [hnone]
  · rw [hexecuted]
    cases s.parameterAt index <;> rfl

theorem refused_bindBytes {valueLen address : ℕ} {value : Option ℕ} {isBlob : Bool}
    {destructor : Destructor}
    (h : index = 0 ∨ s.parameters.length < index ∨ s.handle.stmt.executed = true) :
    s.bindBytes index value valueLen isBlob destructor address = (false, s) := by
  unfold bindBytes
  rcases parameterAt_of_refused h with hnone | hexecuted
  · rw [hnone]
  · rw [hexecuted]
    cases s.parameterAt index <;> rfl

end Store

theorem BoundStmt.refused_bind {t : BoundStmt Row} {index : ℕ}
    (h : index = 0 ∨ t.parameters.length < index ∨ t.handle.stmt.executed = true) :
    t.bind index b = (false, t) := by
  unfold bind
  rw [if_pos (by simpa [or_assoc] using h)]

theorem BoundStmt.accepted_bind {t : BoundStmt Row} {index : ℕ}
    (h : ¬(index = 0 ∨ t.parameters.length < index ∨ t.handle.stmt.executed = true)) :
    t.bind index b = (true, t.withParameters (t.parameters.set (index - 1) b)) := by
  unfold bind
  rw [if_neg (by simpa [or_assoc] using h)]
  rfl

/-- The two sides agree on what is refused. -/
theorem RefinesOn.refused_iff (h : RefinesOn done s t) {index : ℕ} :
    (index = 0 ∨ s.parameters.length < index ∨ s.handle.stmt.executed = true) ↔
      (index = 0 ∨ t.parameters.length < index ∨ t.handle.stmt.executed = true) := by
  rw [h.length, h.handle]

section Scalar

variable {index : ℕ} {write : StoredParameter → StoredParameter} {bind : ℕ → MysqlBind}
  (hbytes : ∀ p, (write p).bytes = p.bytes)
  (hrepresents : ∀ p memory,
    Represents memory (index - 1) { write p with bind := bind (index - 1) } b)

include hbytes hrepresents

/-- A call that binds no bytes and is not refused. -/
theorem RefinesOn.bindScalar (h : RefinesOn done s t)
    (hdone : ∀ j, done' j → j ≠ index - 1 → done j)
    (hok : ¬(index = 0 ∨ s.parameters.length < index ∨ s.handle.stmt.executed = true)) :
    ∃ s', s.bindScalar index write bind = (true, s') ∧
      RefinesOn done' s' (t.withParameters (t.parameters.set (index - 1) b)) ∧
      s'.runs = s.runs ∧ s'.destroyed = s.destroyed := by
  obtain ⟨p, hat, hp, hnew⟩ := Store.exists_parameterAt hok
  unfold Store.bindScalar
  rw [hat]
  dsimp only
  rw [hnew, if_neg Bool.false_ne_true]
  refine ⟨_, rfl, h.assign hdone (hrepresents p _) fun j q address hj hq haddress => ⟨?_, ?_⟩,
    rfl, rfl⟩
  · show (write p).bytes ≠ some address
    rw [hbytes]
    exact fun hown => hj (h.separate j (index - 1) q p address hq hp haddress hown)
  · exact h.cleared hp hj hq haddress

/-- A call that binds no bytes. -/
theorem Refines.bindScalar (h : Refines s t) :
    (s.bindScalar index write bind).1 = (t.bind index b).1 ∧
      Refines (s.bindScalar index write bind).2 (t.bind index b).2 := by
  by_cases hrefused : index = 0 ∨ s.parameters.length < index ∨ s.handle.stmt.executed = true
  · rw [Store.refused_bindScalar hrefused, BoundStmt.refused_bind (h.refused_iff.mp hrefused)]
    exact ⟨rfl, h⟩
  · rw [BoundStmt.accepted_bind fun hr => hrefused (h.refused_iff.mpr hr)]
    obtain ⟨s', heq, hs' : Refines s' _, -⟩ :=
      RefinesOn.bindScalar hbytes hrepresents h (fun _ _ _ => trivial) hrefused
    rw [heq]
    exact ⟨rfl, hs'⟩

end Scalar

/-- A call that binds bytes: the vector gets a buffer of its own, and the caller's buffer has as
    many bytes as the caller says. -/
theorem Refines.bindBytes (h : Refines s t) {index valueLen address : ℕ} {value : Option ℕ}
    {isBlob : Bool} {destructor : Destructor}
    (hlength : (s.callerBytes value valueLen).length = valueLen)
    (hother : ∀ (j : ℕ) (q : StoredParameter), j ≠ index - 1 → s.parameters[j]? = some q →
      q.bytes ≠ some address) :
    (s.bindBytes index value valueLen isBlob destructor address).1
        = (t.bindBytes index (s.callerBytes value valueLen) isBlob).1 ∧
      Refines (s.bindBytes index value valueLen isBlob destructor address).2
        (t.bindBytes index (s.callerBytes value valueLen) isBlob).2 := by
  rw [BoundStmt.bindBytes, hlength]
  by_cases hrefused : index = 0 ∨ s.parameters.length < index ∨ s.handle.stmt.executed = true
  · rw [Store.refused_bindBytes hrefused, BoundStmt.refused_bind (h.refused_iff.mp hrefused),
      ite_self]
    exact ⟨rfl, h⟩
  · rw [BoundStmt.accepted_bind fun hr => hrefused (h.refused_iff.mpr hr)]
    obtain ⟨p, hat, hp, hnew⟩ := Store.exists_parameterAt hrefused
    unfold Store.bindBytes
    rw [hat]
    dsimp only
    rw [hnew, Bool.false_or]
    by_cases hlong : ulongMax < valueLen
    · rw [if_pos (decide_eq_true hlong), if_pos hlong]
      exact ⟨rfl, h⟩
    · rw [if_neg (by simpa using hlong), if_neg hlong]
      have hlive : ∀ j q a, j ≠ index - 1 → s.parameters[j]? = some q → q.bytes = some a →
          a ≠ address := by
        rintro j q a hj hq ha rfl
        exact hother j q hj hq ha
      have hrepresents : Represents
          (Function.update (s.cleared p) address (if (s.callerBytes value valueLen).isEmpty then [0]
            else s.callerBytes value valueLen)) (index - 1)
          { p with
            bytes := some address
            length := valueLen
            isNull := false
            bind := memberBind (index - 1) (if isBlob then .blob else .string) (.heap address)
              valueLen false }
          (bytesParameter isBlob (s.callerBytes value valueLen)) := by
        refine ⟨address, rfl, Function.update_self .., by rw [hlength], rfl, hlength.symm, ?_⟩
        split
        · next hempty =>
          rw [List.isEmpty_iff] at hempty
          rw [hempty]
          exact Nat.zero_le 1
        · exact Nat.le_refl _
      have hassign : Refines _ _ := h.assign (fun _ _ _ => trivial) hrepresents
        fun j q a hj hq ha => ⟨fun heq => hlive j q a hj hq ha (Option.some.inj heq).symm, by
          rw [Function.update_of_ne (hlive j q a hj hq ha)]
          exact h.cleared hp hj hq ha⟩
      exact ⟨rfl, hassign.handle, hassign.length, hassign.represents, hassign.separate⟩

/-! ### Clearing -/

/-- **The loop makes every parameter `NULL`.** It goes on behind the first `k` ones. -/
theorem RefinesOn.bindNulls {k n : ℕ} (h : RefinesOn (· < k) s t)
    (hcount : k + n = t.parameters.length) (hnew : t.handle.stmt.executed = false)
    (hnull : ∀ i, t.parameters.set i .null = t.parameters) :
    ∃ s', Store.bindNulls (List.range' (k + 1) n) s = (true, s') ∧ Refines s' t ∧
      s'.runs = s.runs ∧ s'.destroyed = s.destroyed := by
  induction n generalizing k s with
  | zero =>
    refine ⟨s, rfl, ⟨h.handle, h.length, fun i p b _ hp hb => ?_, h.separate⟩, rfl, rfl⟩
    have hlt := (List.getElem?_eq_some_iff.mp hb).1
    exact h.represents i p b (by omega) hp hb
  | succ n ih =>
    have hok : ¬(k + 1 = 0 ∨ s.parameters.length < k + 1 ∨ s.handle.stmt.executed = true) := by
      rw [h.length, h.handle, hnew]
      simp
      omega
    obtain ⟨s', heq, hs', hruns, hdestroyed⟩ : ∃ s', s.bindNullValue (k + 1) = (true, s') ∧
        RefinesOn (· < k + 1) s' (t.withParameters (t.parameters.set k .null)) ∧
        s'.runs = s.runs ∧ s'.destroyed = s.destroyed :=
      RefinesOn.bindScalar (fun _ => rfl) (fun _ _ => ⟨rfl, rfl⟩) h
        (fun j (hj : j < k + 1) hne => Nat.lt_of_le_of_ne (Nat.le_of_lt_succ hj) hne) hok
    rw [hnull] at hs'
    obtain ⟨s'', heq', hs'', hruns', hdestroyed'⟩ := ih hs' (by omega)
    refine ⟨s'', ?_, hs'', hruns'.trans hruns, hdestroyed'.trans hdestroyed⟩
    rw [List.range'_succ, Store.bindNulls, heq]
    exact heq'

/-- A new statement has `NULL` for every placeholder. -/
theorem refines_prepared (conn : Connection Row) (stmt : Stmt) (memory : ℕ → Text) (count : ℕ) :
    Refines (Store.prepared conn stmt memory count) (BoundStmt.prepared conn stmt count) ∧
      (Store.prepared conn stmt memory count).destroyed = [] := by
  let s : Store Row :=
    { handle := ⟨conn, { stmt := stmt }⟩, memory := memory, parameters := List.replicate count {} }
  have hraw : RefinesOn (· < 0) s (BoundStmt.prepared conn stmt count) := by
    refine ⟨rfl, length_replicate.trans length_replicate.symm,
      fun i _ _ hi => absurd hi (Nat.not_lt_zero i), ?_⟩
    intro i j p q address hp _ hap _
    obtain rfl := eq_of_mem_replicate (mem_of_getElem? hp)
    cases hap
  obtain ⟨s', hs', hrefines, -, hdestroyed⟩ :=
    hraw.bindNulls (n := count) ((Nat.zero_add _).trans length_replicate.symm) rfl
      fun _ => List.set_replicate_self
  rw [show Store.prepared conn stmt memory count = s' from congrArg Prod.snd hs']
  exact ⟨hrefines, hdestroyed⟩

namespace Refines

/-- `mylite_clear_bindings` makes every parameter `NULL`. -/
theorem clearBindings (h : Refines s t) :
    s.clearBindings.1 = t.clearBindings.1 ∧ Refines s.clearBindings.2 t.clearBindings.2 ∧
      s.clearBindings.2.destroyed = s.destroyed ∧ s.clearBindings.2.runs = s.runs := by
  unfold Store.clearBindings BoundStmt.clearBindings
  rw [h.handle]
  by_cases hexecuted : t.handle.stmt.executed = true
  · rw [if_pos hexecuted, if_pos hexecuted]
    exact ⟨rfl, h, rfl, rfl⟩
  · rw [if_neg hexecuted, if_neg hexecuted]
    have hraw : RefinesOn (· < 0) s
        (t.withParameters (List.replicate t.parameters.length .null)) :=
      ⟨h.handle, h.length.trans length_replicate.symm,
        fun i _ _ hi => absurd hi (Nat.not_lt_zero i), h.separate⟩
    obtain ⟨s', hs', hrefines, hruns, hdestroyed⟩ :=
      hraw.bindNulls (n := s.parameters.length) ((Nat.zero_add _).trans hraw.length)
        (Bool.eq_false_iff.mpr hexecuted) fun _ => List.set_replicate_self
    rw [show Store.bindNulls (List.range' 1 s.parameters.length) s = _ from hs']
    exact ⟨rfl, hrefines, hdestroyed, hruns⟩

/-- `mylite_step` keeps the values. -/
theorem step (h : Refines s t) (i : StepInput Row) :
    Refines (s.step i).2 (t.step i).2 := by
  have hempty : s.parameters.isEmpty = t.parameters.isEmpty := by
    rw [Bool.eq_iff_iff, isEmpty_iff_length_eq_zero, isEmpty_iff_length_eq_zero, h.length]
  have hinput : s.stepInput i = t.stepInput i := by
    unfold Store.stepInput BoundStmt.stepInput
    rw [hempty]
  refine ⟨?_, h.length, h.represents, h.separate⟩
  show (s.handle.step (s.stepInput i)).2 = (t.handle.step (t.stepInput i)).2
  rw [hinput, h.handle]

/-- `mylite_reset` keeps the values. -/
theorem reset (h : Refines s t) (answer : Answer Row) :
    Refines (s.reset answer).2 (t.reset answer).2 := by
  refine ⟨?_, h.length, h.represents, h.separate⟩
  show (s.handle.reset answer).2 = (t.handle.reset answer).2
  rw [h.handle]

/-- The caller may do what it likes with its own memory. -/
theorem callerWrites (h : Refines s t) {address : ℕ} (bytes : Text)
    (hown : ∀ p ∈ s.parameters, p.bytes ≠ some address) :
    Refines { s with memory := Function.update s.memory address bytes } t := by
  refine ⟨h.handle, h.length, fun i p b _ hp hb => ?_, h.separate⟩
  have hold := h.represents i p b trivial hp hb
  cases b with
  | bytes isBlob buffer length =>
    obtain ⟨a, ha, hbuffer, hrest⟩ := hold
    refine ⟨a, ha, ?_, hrest⟩
    rw [← hbuffer]
    apply Function.update_of_ne
    rintro rfl
    exact hown p (mem_of_getElem? hp) ha
  | null | int64Value | uint64Value | doubleValue => exact hold

/-- Other handles may use the connection and set the session's mode. -/
theorem onConnection (h : Refines s t) (conn : Connection Row) (emptyStringIsNull : Bool) :
    Refines { s with handle := { s.handle with conn := conn }, emptyStringIsNull }
      (t.onConnection conn) := by
  refine ⟨?_, h.length, h.represents, h.separate⟩
  show { s.handle with conn := conn } = { t.handle with conn := conn }
  rw [h.handle]

end Refines

end MyLite.Prepared

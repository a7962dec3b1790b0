import MyLite.Prepared.Columns

namespace MyLite.Prepared

open MyLite.Lib MyLite.Sql List

/-!
# The buffers of a row

What the code relies on between two calls is `Columns.Sound`: every column has a buffer of its own,
one byte larger than the capacity of its bind.  On sound columns whose binds are the registered
ones, a fetch followed by the loop over the truncated columns leaves in every buffer the whole
value of its column.

* `Fetched`, `Holds`, `Terminated` — what a buffer has behind the fetch, behind
  `fetch_truncated_statement_columns`, and behind the loop that writes the zero bytes.
* `Columns.Sound.fetch`, `growColumns_sound`, `Columns.Sound.terminateAll` — the buffers stay sound.
* `fetched_of_fetch`, `holds_of_growColumns`, `terminated_of_terminateAll` — the values.
-/

/-! ### Bytes -/

variable {bytes : Text}

variable {capacity length : ℕ}

theorem length_store {value : Text} (h : capacity < bytes.length) :
    (store value capacity bytes).length = bytes.length := by
  unfold store
  by_cases hfits : value.length < capacity
  · rw [if_pos hfits, length_append, length_take, length_cons, length_drop]
    omega
  · rw [if_neg hfits, length_append, length_take, length_drop]
    omega

/-- A value that fits is stored whole. -/
theorem take_store {value : Text} (h : value.length ≤ capacity) :
    (store value capacity bytes).take value.length = value := by
  unfold store
  rw [take_of_length_le h, take_append_of_le_length le_rfl, take_length]

theorem length_terminate (length : ℕ) (bytes : Text) :
    (terminate length bytes).length = bytes.length := by
  unfold terminate
  split_ifs
  · exact length_set
  · exact length_set

theorem take_terminate (h : length < bytes.length) :
    (terminate length bytes).take length = bytes.take length := by
  rw [terminate, if_pos h]
  exact take_set_of_le le_rfl

theorem getElem?_terminate (h : length < bytes.length) :
    (terminate length bytes)[length]? = some 0 := by
  rw [terminate, if_pos h, List.getElem?_set_self h]

/-! ### One column -/

/-- The bind of a column is its buffer, without the last byte. -/
structure Matched (memory : ℕ → Text) (c : ResultColumn) : Prop where
  buffer : c.bind.buffer = c.buffer
  resultBind : c.resultBind = c.bind
  length : (memory c.buffer).length = c.bind.capacity + 1

variable {memory memory' : ℕ → Text} {c : ResultColumn}

theorem Matched.congr (h : Matched memory c)
    (hlength : (memory' c.buffer).length = (memory c.buffer).length) : Matched memory' c :=
  ⟨h.buffer, h.resultBind, hlength.trans h.length⟩

/-- A column behind `mysql_stmt_fetch`: the value is there unless it is flagged. -/
def Fetched (memory : ℕ → Text) (c : ResultColumn) : Option Text → Prop
  | none => c.isNull = true
  | some value =>
    c.isNull = false ∧ c.length = value.length
      ∧ c.error = decide (c.bind.capacity < value.length)
      ∧ (value.length ≤ c.bind.capacity → (memory c.buffer).take value.length = value)

/-- A column with its whole value. -/
def Holds (memory : ℕ → Text) (c : ResultColumn) : Option Text → Prop
  | none => c.isNull = true
  | some value =>
    c.isNull = false ∧ c.length = value.length ∧ value.length < (memory c.buffer).length
      ∧ (memory c.buffer).take value.length = value

/-- A column with its whole value and a zero byte behind it. -/
def Terminated (memory : ℕ → Text) (c : ResultColumn) : Option Text → Prop
  | none => c.isNull = true
  | some value =>
    c.isNull = false ∧ c.length = value.length
      ∧ (memory c.buffer).take value.length = value
      ∧ (memory c.buffer)[value.length]? = some 0

theorem Fetched.congr {value : Option Text} (h : Fetched memory c value)
    (heq : memory' c.buffer = memory c.buffer) : Fetched memory' c value := by
  cases value with
  | none => exact h
  | some value => rw [Fetched, heq]; exact h

theorem Holds.congr {value : Option Text} (h : Holds memory c value)
    (heq : memory' c.buffer = memory c.buffer) : Holds memory' c value := by
  cases value with
  | none => exact h
  | some value => rw [Holds, heq]; exact h

/-- A column that is not read again has its value. -/
theorem Fetched.holds {value : Option Text} (h : Fetched memory c value)
    (hmatched : Matched memory c) (hskip : (c.isNull || !c.error) = true) :
    Holds memory c value := by
  cases value with
  | none => exact h
  | some value =>
    obtain ⟨hnull, hlength, herror, hbytes⟩ := h
    have hfits : value.length ≤ c.bind.capacity := by
      rw [hnull, herror, Bool.false_or, Bool.not_eq_true', decide_eq_false_iff_not] at hskip
      omega
    have hroom := hmatched.length
    exact ⟨hnull, hlength, by omega, hbytes hfits⟩

/-- A column that is read again has a value, and its length is known. -/
theorem Fetched.value {value : Option Text} (h : Fetched memory c value)
    (hread : ¬(c.isNull || !c.error) = true) :
    ∃ v, value = some v ∧ c.length = v.length ∧ c.bind.capacity < v.length := by
  cases value with
  | none => exact absurd (show (c.isNull || !c.error) = true by rw [h]; rfl) hread
  | some v =>
    obtain ⟨hnull, hlength, herror, -⟩ := h
    rw [hnull, herror, Bool.false_or, Bool.not_eq_true', decide_eq_false_iff_not, not_not] at hread
    exact ⟨v, rfl, hlength, hread⟩

/-- The larger buffer of a column. -/
def grownBytes (value : Text) (c : ResultColumn) : Text :=
  store value (max c.length 1) (allocateColumnBuffer (max c.length 1))

theorem length_grownBytes (value : Text) (c : ResultColumn) :
    (grownBytes value c).length = max c.length 1 + 1 := by
  unfold grownBytes
  have hlength : (allocateColumnBuffer (max c.length 1)).length = max c.length 1 + 1 :=
    length_replicate
  rw [length_store (by omega), hlength]

theorem matched_grownColumn {value : Text} {fresh : ℕ} (h : memory fresh = grownBytes value c) :
    Matched memory (Columns.grownColumn value fresh c) :=
  ⟨rfl, rfl, by
    show (memory fresh).length = max c.length 1 + 1
    rw [h, length_grownBytes]⟩

theorem holds_grownColumn {value : Text} {fresh : ℕ} (h : memory fresh = grownBytes value c)
    (hlength : c.length = value.length) :
    Holds memory (Columns.grownColumn value fresh c) (some value) := by
  refine ⟨rfl, rfl, ?_, ?_⟩
  · show value.length < (memory fresh).length
    rw [h, length_grownBytes]
    omega
  · show (memory fresh).take value.length = value
    rw [h]
    exact take_store (by omega)

namespace Columns

/-! ### Sound buffers -/

variable {fresh : ℕ}

/-- Every column has a buffer of its own that its bind describes. -/
structure Sound (cs : Columns) : Prop where
  nodup : (cs.columns.map (·.buffer)).Nodup
  below : ∀ c ∈ cs.columns, c.buffer < cs.fresh
  matched : ∀ c ∈ cs.columns, Matched cs.memory c

/-- The client library has the binds of the columns. -/
def Registered (cs : Columns) : Prop := ∀ c ∈ cs.columns, c.registered = c.resultBind

theorem sound_cons {cs : List ResultColumn} :
    Sound ⟨c :: cs, memory, fresh⟩ ↔ (∀ d ∈ cs, d.buffer ≠ c.buffer) ∧ c.buffer < fresh
      ∧ Matched memory c ∧ Sound ⟨cs, memory, fresh⟩ := by
  constructor
  · rintro ⟨hnodup, hbelow, hmatched⟩
    rw [map_cons, nodup_cons] at hnodup
    rw [forall_mem_cons] at hbelow hmatched
    exact ⟨fun d hd heq => hnodup.1 (heq ▸ mem_map_of_mem hd), hbelow.1, hmatched.1,
      hnodup.2, hbelow.2, hmatched.2⟩
  · rintro ⟨hne, hbelow, hmatched, h⟩
    refine ⟨?_, forall_mem_cons.mpr ⟨hbelow, h.below⟩,
      forall_mem_cons.mpr ⟨hmatched, h.matched⟩⟩
    rw [map_cons, nodup_cons, mem_map]
    exact ⟨fun ⟨d, hd, heq⟩ => hne d hd heq, h.nodup⟩

variable {cs : Columns}

/-- Memory that is not in use may change, and buffers keep their size. -/
theorem Sound.congr (h : cs.Sound) (hfresh : cs.fresh ≤ fresh)
    (hlength : ∀ c ∈ cs.columns, (memory c.buffer).length = (cs.memory c.buffer).length) :
    Sound ⟨cs.columns, memory, fresh⟩ :=
  ⟨h.nodup, fun c hc => lt_of_lt_of_le (h.below c hc) hfresh,
    fun c hc => (h.matched c hc).congr (hlength c hc)⟩

/-- What of a column its soundness is about. -/
def shape (c : ResultColumn) : ℕ × Bind × Bind := (c.buffer, c.bind, c.resultBind)

variable {columns : List ResultColumn}

/-- A change of the columns that leaves their buffers and binds as they are. -/
theorem Sound.of_shape (h : cs.Sound) (hshape : columns.map shape = cs.columns.map shape) :
    Sound { cs with columns := columns } := by
  have hbuffers : columns.map (·.buffer) = cs.columns.map (·.buffer) := by
    have hfst := congrArg (List.map Prod.fst) hshape
    rw [map_map, map_map] at hfst
    exact hfst
  have hof : ∀ c ∈ columns, ∃ d ∈ cs.columns, shape d = shape c := by
    intro c hc
    exact mem_map.mp (hshape ▸ mem_map_of_mem hc)
  refine ⟨hbuffers ▸ h.nodup, fun c hc => ?_, fun c hc => ?_⟩
  · obtain ⟨d, hd, heq⟩ := hof c hc
    have hbuffer : d.buffer = c.buffer := congrArg Prod.fst heq
    exact hbuffer ▸ h.below d hd
  · obtain ⟨d, hd, heq⟩ := hof c hc
    obtain ⟨hbuffer, hbind, hresult⟩ :
        d.buffer = c.buffer ∧ d.bind = c.bind ∧ d.resultBind = c.resultBind := by
      simpa only [shape, Prod.mk.injEq] using heq
    have hm := h.matched d hd
    exact ⟨hbind ▸ hbuffer ▸ hm.buffer, hresult ▸ hbind ▸ hm.resultBind,
      hbind ▸ hbuffer ▸ hm.length⟩

theorem map_shape_mapIdx {f : ℕ → ResultColumn → ResultColumn}
    (hf : ∀ k c, shape (f k c) = shape c) :
    (columns.mapIdx f).map shape = columns.map shape := by
  apply ext_getElem?
  intro n
  rw [List.getElem?_map, List.getElem?_map, List.getElem?_mapIdx, Option.map_map]
  congr 1
  funext c
  exact hf n c

/-! ### Setting up and binding -/

/-- The addresses `configure` takes are different. -/
theorem nodup_mapIdx_fresh {α : Type*} (fresh : ℕ) (fields : List ℕ) {f : ℕ → ℕ → α} {g : α → ℕ}
    (hf : ∀ k x, g (f k x) = fresh + k) : ((fields.mapIdx f).map g).Nodup := by
  have haddresses : (fields.mapIdx f).map g = List.range' fresh fields.length := by
    apply ext_getElem
    · rw [length_map, length_mapIdx, length_range']
    · intro n _ _
      rw [getElem_map, getElem_mapIdx, hf, getElem_range', Nat.one_mul]
  rw [haddresses]
  exact nodup_range' 1

theorem Sound.configure (cs : Columns) (fields : List ℕ) : (cs.configure fields).Sound := by
  have hof : ∀ c ∈ (cs.configure fields).columns, ∃ k length, fields[k]? = some length
      ∧ newColumn (cs.fresh + k) length = c := by
    intro c hc
    obtain ⟨k, hk, heq⟩ := mem_mapIdx.mp hc
    exact ⟨k, _, List.getElem?_eq_getElem hk, heq⟩
  refine ⟨nodup_mapIdx_fresh cs.fresh fields fun _ _ => rfl, fun c hc => ?_, fun c hc => ?_⟩
  · obtain ⟨k, length, hk, rfl⟩ := hof c hc
    have hlt : k < fields.length := (List.getElem?_eq_some_iff.mp hk).1
    show cs.fresh + k < cs.fresh + fields.length
    omega
  · obtain ⟨k, length, hk, rfl⟩ := hof c hc
    refine ⟨rfl, rfl, ?_⟩
    have hbytes : (cs.configure fields).memory (cs.fresh + k)
        = allocateColumnBuffer (initialCapacity length) := by
      refine applyWrites_mapIdx (f := fun k fieldLength =>
        (cs.fresh + k, fun _ => allocateColumnBuffer (initialCapacity fieldLength))) ?_ hk
      exact nodup_mapIdx_fresh cs.fresh fields fun _ _ => rfl
    show ((cs.configure fields).memory (cs.fresh + k)).length = initialCapacity length + 1
    rw [hbytes]
    exact length_replicate

theorem Sound.register (h : cs.Sound) : cs.register.Sound :=
  h.of_shape (by rw [map_map]; rfl)

theorem registered_register (cs : Columns) : cs.register.Registered := by
  intro c hc
  obtain ⟨d, -, rfl⟩ := mem_map.mp hc
  rfl

theorem Sound.refresh (h : cs.Sound) : cs.refresh.Sound :=
  h.of_shape (by rw [map_map]; rfl)

theorem registered_refresh (cs : Columns) : cs.refresh.Registered := by
  intro c hc
  obtain ⟨d, -, rfl⟩ := mem_map.mp hc
  rfl

/-! ### Fetching -/

variable {n : ℕ}

theorem shape_fetchedColumn (row : Row) (k : ℕ) (c : ResultColumn) :
    shape (fetchedColumn row k c) = shape c := by
  unfold fetchedColumn
  cases row k with
  | none | some value => rfl

theorem registered_fetchedColumn (row : Row) (k : ℕ) (c : ResultColumn) :
    (fetchedColumn row k c).registered = c.registered := by
  unfold fetchedColumn
  cases row k with
  | none | some value => rfl

/-- The memory behind a fetch, at the buffer of a column. -/
theorem memory_fetch (h : cs.Sound) (hreg : cs.Registered) (row : Row)
    (hc : cs.columns[n]? = some c) :
    (cs.fetch row).memory c.buffer
      = ((row n).elim id fun value => store value c.bind.capacity) (cs.memory c.buffer) := by
  have hregistered : ∀ d ∈ cs.columns, d.registered = d.bind := fun d hd =>
    (hreg d hd).trans (h.matched d hd).resultBind
  have haddress : ∀ d ∈ cs.columns, d.registered.buffer = d.buffer := fun d hd => by
    rw [hregistered d hd, (h.matched d hd).buffer]
  have hnodup : ((cs.columns.mapIdx (fetchedBytes row)).map Prod.fst).Nodup := by
    have hbuffers : (cs.columns.mapIdx (fetchedBytes row)).map Prod.fst
        = cs.columns.map (·.buffer) := by
      apply ext_getElem
      · rw [length_map, length_map, length_mapIdx]
      · intro k _ _
        rw [getElem_map, getElem_map, getElem_mapIdx]
        exact haddress _ (getElem_mem _)
    exact hbuffers ▸ h.nodup
  have hwrite : applyWrites (cs.columns.mapIdx (fetchedBytes row)) cs.memory
      (fetchedBytes row n c).1 = (fetchedBytes row n c).2 (cs.memory (fetchedBytes row n c).1) :=
    applyWrites_mapIdx hnodup hc
  have hmem := mem_of_getElem? hc
  rw [fetchedBytes, haddress c hmem, hregistered c hmem] at hwrite
  exact hwrite

theorem Sound.fetch (h : cs.Sound) (hreg : cs.Registered) (row : Row) : (cs.fetch row).Sound := by
  have hsound : Sound ⟨cs.columns, (cs.fetch row).memory, cs.fresh⟩ := by
    refine h.congr le_rfl fun c hc => ?_
    obtain ⟨n, hn⟩ := mem_iff_getElem?.mp hc
    rw [memory_fetch h hreg row hn]
    cases row n with
    | none => rfl
    | some value =>
      have hlength := (h.matched c hc).length
      exact length_store (by omega)
  exact hsound.of_shape (map_shape_mapIdx (shape_fetchedColumn row))

theorem Registered.fetch (hreg : cs.Registered) (row : Row) : (cs.fetch row).Registered := by
  intro c hc
  obtain ⟨k, hk, rfl⟩ := mem_mapIdx.mp hc
  have hresult : (fetchedColumn row k cs.columns[k]).resultBind = cs.columns[k].resultBind :=
    congrArg (fun s => s.2.2) (shape_fetchedColumn row k cs.columns[k])
  rw [registered_fetchedColumn, hresult]
  exact hreg _ (getElem_mem hk)

/-- **The fetch.** Every column is `NULL`, has its value, or is flagged as truncated. -/
theorem fetched_of_fetch (h : cs.Sound) (hreg : cs.Registered) (row : Row)
    (hc : (cs.fetch row).columns[n]? = some c) : Fetched (cs.fetch row).memory c (row n) := by
  rw [fetch, List.getElem?_mapIdx, Option.map_eq_some_iff] at hc
  obtain ⟨d, hd, rfl⟩ := hc
  have hmemory := memory_fetch h hreg row hd
  have hmem := mem_of_getElem? hd
  have hregistered : d.registered = d.bind := (hreg d hmem).trans (h.matched d hmem).resultBind
  unfold fetchedColumn
  cases hrow : row n with
  | none => rfl
  | some value =>
    rw [hrow] at hmemory
    refine ⟨rfl, rfl, by rw [hregistered], fun hfits => ?_⟩
    show ((cs.fetch row).memory d.buffer).take value.length = value
    rw [hmemory]
    exact take_store hfits

/-! ### Reading truncated columns again -/

section

variable (row : Row) (fetchColumn : ℕ → Bool) (k : ℕ) (cs : List ResultColumn) (memory : ℕ → Text)
  (fresh : ℕ)

/-- Only new addresses are written. -/
theorem growColumns_frame :
    fresh ≤ (growColumns row fetchColumn k cs memory fresh).fresh
      ∧ ∀ a < fresh, (growColumns row fetchColumn k cs memory fresh).memory a = memory a := by
  fun_induction growColumns row fetchColumn k cs memory fresh with
  | case1 k memory fresh => exact ⟨le_rfl, fun _ _ => rfl⟩
  | case2 k c cs memory fresh hskip g ih => exact ih
  | case3 k c cs memory fresh hskip hfails => exact ⟨le_rfl, fun _ _ => rfl⟩
  | case4 k c cs memory fresh hskip hfails value bytes g ih =>
    refine ⟨le_trans (Nat.le_succ fresh) ih.1, fun a ha => ?_⟩
    show g.memory a = memory a
    rw [ih.2 a (by omega), Function.update_of_ne (by omega)]

/-- A column keeps its buffer or gets a new one. -/
theorem growColumns_buffer :
    ∀ c ∈ (growColumns row fetchColumn k cs memory fresh).columns,
      (∃ d ∈ cs, d.buffer = c.buffer) ∨ fresh ≤ c.buffer := by
  fun_induction growColumns row fetchColumn k cs memory fresh with
  | case1 k memory fresh => exact fun c hc => (not_mem_nil hc).elim
  | case2 k c cs memory fresh hskip g ih =>
    refine forall_mem_cons.mpr ⟨.inl ⟨c, mem_cons_self, rfl⟩, fun d hd => ?_⟩
    exact (ih d hd).imp_left fun ⟨e, he, heq⟩ => ⟨e, mem_cons_of_mem _ he, heq⟩
  | case3 k c cs memory fresh hskip hfails => exact fun d hd => .inl ⟨d, hd, rfl⟩
  | case4 k c cs memory fresh hskip hfails value bytes g ih =>
    refine forall_mem_cons.mpr ⟨.inr le_rfl, fun d hd => ?_⟩
    exact (ih d hd).imp (fun ⟨e, he, heq⟩ => ⟨e, mem_cons_of_mem _ he, heq⟩) (by omega)

/-- A column in front of the others, none of which has taken its buffer. -/
theorem growColumns_ne {a : ℕ} (hne : ∀ d ∈ cs, d.buffer ≠ a) (ha : a < fresh) :
    ∀ d ∈ (growColumns row fetchColumn k cs memory fresh).columns, d.buffer ≠ a := by
  intro d hd
  rcases growColumns_buffer row fetchColumn k cs memory fresh d hd with ⟨e, he, heq⟩ | hle
  · exact heq ▸ hne e he
  · omega

theorem growColumns_sound (h : Sound ⟨cs, memory, fresh⟩) :
    Sound ⟨(growColumns row fetchColumn k cs memory fresh).columns,
      (growColumns row fetchColumn k cs memory fresh).memory,
      (growColumns row fetchColumn k cs memory fresh).fresh⟩ := by
  fun_induction growColumns row fetchColumn k cs memory fresh with
  | case1 k memory fresh => exact h
  | case2 k c cs memory fresh hskip g ih =>
    obtain ⟨hne, hbelow, hmatched, h⟩ := sound_cons.mp h
    obtain ⟨hfresh, hframe⟩ := growColumns_frame row fetchColumn (k + 1) cs memory fresh
    refine sound_cons.mpr
      ⟨growColumns_ne _ _ _ _ _ _ hne hbelow, lt_of_lt_of_le hbelow hfresh, ?_, ih h⟩
    exact hmatched.congr (congrArg List.length (hframe c.buffer hbelow))
  | case3 k c cs memory fresh hskip hfails => exact h
  | case4 k c cs memory fresh hskip hfails value bytes g ih =>
    obtain ⟨-, -, -, h⟩ := sound_cons.mp h
    obtain ⟨hfresh, hframe⟩ := growColumns_frame row fetchColumn (k + 1) cs
      (Function.update memory fresh bytes) (fresh + 1)
    have hsound : Sound ⟨cs, Function.update memory fresh bytes, fresh + 1⟩ := by
      refine h.congr (Nat.le_succ fresh) fun d hd => ?_
      rw [Function.update_of_ne (ne_of_lt (h.below d hd))]
    refine sound_cons.mpr
      ⟨growColumns_ne _ _ _ _ _ _ (fun d hd => ne_of_lt (h.below d hd))
      (Nat.lt_succ_self _), hfresh, matched_grownColumn ?_, ih hsound⟩
    rw [hframe fresh (Nat.lt_succ_self _), Function.update_self]
    rfl

/-- **The second reading.** Where it succeeds, every column has its value. -/
theorem holds_of_growColumns (h : Sound ⟨cs, memory, fresh⟩)
    (hfetched : ∀ n c, cs[n]? = some c → Fetched memory c (row (k + n)))
    (hok : (growColumns row fetchColumn k cs memory fresh).ok = true) :
    ∀ n c, (growColumns row fetchColumn k cs memory fresh).columns[n]? = some c →
      Holds (growColumns row fetchColumn k cs memory fresh).memory c (row (k + n)) := by
  fun_induction growColumns row fetchColumn k cs memory fresh with
  | case1 k memory fresh => exact nofun
  | case2 k c cs memory fresh hskip g ih =>
    obtain ⟨-, hbelow, hmatched, h⟩ := sound_cons.mp h
    have hframe := (growColumns_frame row fetchColumn (k + 1) cs memory fresh).2
    intro n d hd
    cases n with
    | zero =>
      obtain rfl : c = d := Option.some.inj hd
      exact ((hfetched 0 c rfl).holds hmatched hskip).congr (hframe c.buffer hbelow)
    | succ n =>
      have hrest := ih h (fun m d hd => Nat.succ_add_eq_add_succ k m ▸ hfetched (m + 1) d hd) hok
      exact Nat.succ_add_eq_add_succ k n ▸ hrest n d hd
  | case3 k c cs memory fresh hskip hfails => cases hok
  | case4 k c cs memory fresh hskip hfails value bytes g ih =>
    obtain ⟨-, -, -, h⟩ := sound_cons.mp h
    have hframe := (growColumns_frame row fetchColumn (k + 1) cs
      (Function.update memory fresh bytes) (fresh + 1)).2
    have hupdate : ∀ d ∈ cs, Function.update memory fresh bytes d.buffer = memory d.buffer :=
      fun d hd => Function.update_of_ne (ne_of_lt (h.below d hd)) _ _
    have hsound : Sound ⟨cs, Function.update memory fresh bytes, fresh + 1⟩ :=
      h.congr (Nat.le_succ fresh) fun d hd => congrArg List.length (hupdate d hd)
    intro n d hd
    cases n with
    | zero =>
      obtain rfl : grownColumn value fresh c = d := Option.some.inj hd
      obtain ⟨v, hv, hlength, -⟩ := (hfetched 0 c rfl).value hskip
      have hvalue : value = v := by
        show (row k).getD [] = v
        rw [show row k = some v from hv]
        rfl
      rw [show row (k + 0) = some v from hv, hvalue]
      refine holds_grownColumn ?_ hlength
      rw [hframe fresh (Nat.lt_succ_self _), Function.update_self, ← hvalue]
      rfl
    | succ n =>
      have htail : ∀ m d, cs[m]? = some d →
          Fetched (Function.update memory fresh bytes) d (row (k + 1 + m)) := by
        intro m d hd
        rw [Nat.succ_add_eq_add_succ]
        exact (hfetched (m + 1) d hd).congr (hupdate d (mem_of_getElem? hd))
      exact Nat.succ_add_eq_add_succ k n ▸ ih hsound htail hok n d hd

/-- No column has got a new buffer, so nothing has changed. -/
theorem growColumns_of_not_grown
    (h : (growColumns row fetchColumn k cs memory fresh).grown = false) :
    (growColumns row fetchColumn k cs memory fresh).columns = cs := by
  fun_induction growColumns row fetchColumn k cs memory fresh with
  | case1 k memory fresh => rfl
  | case2 k c cs memory fresh hskip g ih => exact congrArg (c :: ·) (ih h)
  | case3 k c cs memory fresh hskip hfails => rfl
  | case4 k c cs memory fresh hskip hfails value bytes g ih => cases h

/-- The second reading succeeds if it does for every column that is flagged. -/
theorem growColumns_ok
    (h : ∀ n c, cs[n]? = some c → (c.isNull || !c.error) = false →
      c.length ≠ ulongMax ∧ fetchColumn (k + n) = true) :
    (growColumns row fetchColumn k cs memory fresh).ok = true := by
  fun_induction growColumns row fetchColumn k cs memory fresh with
  | case1 k memory fresh => rfl
  | case2 k c cs memory fresh hskip g ih =>
    exact ih fun n d hd hread => Nat.succ_add_eq_add_succ k n ▸ h (n + 1) d hd hread
  | case3 k c cs memory fresh hskip hfails =>
    obtain ⟨hlength, hfetch⟩ := h 0 c rfl (Bool.eq_false_iff.mpr hskip)
    rw [show fetchColumn k = true from hfetch, Bool.not_true, Bool.or_false,
      decide_eq_true_eq] at hfails
    exact absurd hfails hlength
  | case4 k c cs memory fresh hskip hfails value bytes g ih =>
    exact ih fun n d hd hread => Nat.succ_add_eq_add_succ k n ▸ h (n + 1) d hd hread

end

/-! ### The second reading as a whole -/

variable {row : Row} {fetchColumn : ℕ → Bool}

/-- Where nothing is truncated, no column would be read again. -/
theorem skipped_of_not_truncated (h : ¬cs.truncated = true) (hc : c ∈ cs.columns) :
    (c.isNull || !c.error) = true := by
  rw [truncated, any_eq_true, not_exists] at h
  have := h c
  cases hnull : c.isNull
  · simpa [hc, hnull] using this
  · rfl

theorem Sound.readAgain (h : cs.Sound) (row : Row) (fetchColumn : ℕ → Bool) :
    Sound ⟨(cs.readAgain row fetchColumn).columns, (cs.readAgain row fetchColumn).memory,
      (cs.readAgain row fetchColumn).fresh⟩ := by
  unfold Columns.readAgain
  by_cases htruncated : cs.truncated = true
  · rw [if_pos htruncated]
    exact growColumns_sound row fetchColumn 0 cs.columns cs.memory cs.fresh h
  · rw [if_neg htruncated]
    exact h

theorem holds_of_readAgain (h : cs.Sound)
    (hfetched : ∀ n c, cs.columns[n]? = some c → Fetched cs.memory c (row n))
    (hok : (cs.readAgain row fetchColumn).ok = true)
    (hc : (cs.readAgain row fetchColumn).columns[n]? = some c) :
    Holds (cs.readAgain row fetchColumn).memory c (row n) := by
  unfold Columns.readAgain at hok hc ⊢
  by_cases htruncated : cs.truncated = true
  · rw [if_pos htruncated] at hok hc ⊢
    have := holds_of_growColumns row fetchColumn 0 cs.columns cs.memory cs.fresh h
      (fun n c hc => (Nat.zero_add n).symm ▸ hfetched n c hc) hok n c hc
    rwa [Nat.zero_add] at this
  · rw [if_neg htruncated] at hc ⊢
    have hmem := mem_of_getElem? hc
    exact (hfetched n c hc).holds (h.matched c hmem) (skipped_of_not_truncated htruncated hmem)

/-- The client library still has the binds, unless a column has got a new buffer. -/
theorem Registered.readAgain (hreg : cs.Registered)
    (h : (cs.readAgain row fetchColumn).grown = false) :
    ∀ c ∈ (cs.readAgain row fetchColumn).columns, c.registered = c.resultBind := by
  have hcolumns : (cs.readAgain row fetchColumn).columns = cs.columns := by
    unfold Columns.readAgain at h ⊢
    by_cases htruncated : cs.truncated = true
    · rw [if_pos htruncated] at h ⊢
      exact growColumns_of_not_grown row fetchColumn 0 cs.columns cs.memory cs.fresh h
    · rw [if_neg htruncated]
  rw [hcolumns]
  exact hreg

theorem readAgain_ok (hfetched : ∀ n c, cs.columns[n]? = some c → Fetched cs.memory c (row n))
    (h : ∀ n c v, cs.columns[n]? = some c → row n = some v → c.bind.capacity < v.length →
      v.length ≠ ulongMax ∧ fetchColumn n = true) : (cs.readAgain row fetchColumn).ok = true := by
  unfold Columns.readAgain
  by_cases htruncated : cs.truncated = true
  · rw [if_pos htruncated]
    refine growColumns_ok row fetchColumn 0 cs.columns cs.memory cs.fresh fun n c hc hread => ?_
    obtain ⟨v, hv, hlength, hlt⟩ := (hfetched n c hc).value (Bool.eq_false_iff.mp hread)
    rw [hlength, Nat.zero_add]
    exact h n c v hc hv hlt
  · rw [if_neg htruncated]

/-! ### The zero bytes -/

theorem memory_terminateAll (h : cs.Sound) (hc : c ∈ cs.columns) :
    cs.terminateAll.memory c.buffer = terminate c.length (cs.memory c.buffer) := by
  refine applyWrites_of_mem ?_ (mem_map_of_mem hc)
  rw [map_map]
  exact h.nodup

theorem Sound.terminateAll (h : cs.Sound) : cs.terminateAll.Sound := by
  refine h.congr le_rfl fun c hc => ?_
  show (cs.terminateAll.memory c.buffer).length = (cs.memory c.buffer).length
  rw [memory_terminateAll h hc, length_terminate]

/-- **The zero bytes.** They stand right behind the values. -/
theorem terminated_of_terminateAll (h : cs.Sound) (hc : c ∈ cs.columns) {value : Option Text}
    (hholds : Holds cs.memory c value) : Terminated cs.terminateAll.memory c value := by
  cases value with
  | none => exact hholds
  | some value =>
    obtain ⟨hnull, hlength, hroom, hbytes⟩ := hholds
    rw [Terminated, memory_terminateAll h hc, hlength]
    exact ⟨hnull, rfl, (take_terminate hroom).trans hbytes, getElem?_terminate hroom⟩

end Columns

end MyLite.Prepared

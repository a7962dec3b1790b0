import Mathlib.Algebra.Group.Nat.Defs
import MyLite.Lib.OrderedMap
import MyLite.Lib.Run
import MyLite.Sql.Bytes

namespace MyLite.Php

open MyLite.Lib MyLite.Sql List

/-!
# Rows of a `mysqli` result

A result keeps every row as a PHP array from column names to values, and makes the list of values
of `fetch_array` by looking the names up again.  PHP keeps a name that looks like an integer under
an integer key, where a look-up of a string does not find it, and a name that occurs twice has one
entry.

* `PhpArray` — arrays, with `addAssoc`, `addNextIndex` and look-up.
* `addCurrentRow`, `fetchArrayRow` — how a row is stored and handed out.
* `MysqliResult` — a result and its position.
* `fetchArray_complete_iff` — when nothing of a row is lost.
-/

/-! ### Arrays -/

/-- A key of a PHP array. -/
inductive Key
  | int (index : ℤ)
  | str (name : Text)
  deriving DecidableEq, Repr

/-- The number that decimal digits denote. -/
def digitsValue (digits : Text) : ℕ := digits.foldl (fun n b => n * 10 + (b.toNat - 0x30)) 0

/-- `MAX_LENGTH_OF_LONG - 1`. -/
def maxDigits : ℕ := 19

/-- Digits of a number that is written without leading zeros. -/
def isCanonical (digits : Text) : Bool :=
  !digits.isEmpty && digits.all isDigit && digits.length ≤ maxDigits

/-- `ZEND_HANDLE_NUMERIC_STR`: the integer that a string stands for as a key. -/
def integerKey : Text → Option ℤ
  | [] => none
  | [b] => if isDigit b then some (b.toNat - 0x30 : ℕ) else none
  | 0x2D :: b :: digits =>
    if b != 0x30 && isCanonical (b :: digits) && digitsValue (b :: digits) ≤ 2 ^ 63 then
      some (-(digitsValue (b :: digits) : ℤ))
    else none
  | b :: digits =>
    if b != 0x30 && isCanonical (b :: digits) && digitsValue (b :: digits) ≤ 2 ^ 63 - 1 then
      some (digitsValue (b :: digits))
    else none

example : integerKey (ascii "42") = some 42 := by decide

/-- The key under which `add_assoc_zval_ex` and PHP code find a name. -/
def symtableKey (name : Text) : Key :=
  match integerKey name with
  | some index => .int index
  | none => .str name

/-- A PHP array; `nextFree` is `nNextFreeElement`. -/
structure PhpArray (V : Type) where
  elements : OrderedMap Key V := .empty
  nextFree : ℕ := 0

variable {V : Type}

namespace PhpArray

variable (a : PhpArray V) (name : Text)

/-- `add_assoc_zval_ex`. -/
def addAssoc (value : V) : PhpArray V where
  elements := a.elements.insert (symtableKey name) value
  nextFree := match symtableKey name with
    | .int index => max a.nextFree (index + 1).toNat
    | .str _ => a.nextFree

/-- `add_next_index_zval`. -/
def addNextIndex (value : V) : PhpArray V where
  elements := a.elements.insert (.int a.nextFree) value
  nextFree := a.nextFree + 1

/-- `zend_hash_find`. -/
def hashFind : Option V := a.elements.find? (.str name)

/-- `$array[$name]`. -/
def get : Option V := a.elements.find? (symtableKey name)

/-- The list of some values. -/
def ofList (values : List V) : PhpArray V := values.foldl addNextIndex {}

end PhpArray

/-! ### Rows -/

variable (columns : List (Text × V))

/-- `php_mylite_mysqli_add_current_row`: the array of a row, from the names and values of its
    columns. -/
def addCurrentRow : PhpArray V :=
  columns.foldl (fun a column => a.addAssoc column.1 column.2) {}

variable (fields : List Text) (row : PhpArray V)

/-- `php_mylite_mysqli_fetch_array_row`; the bits of `mode` are `MYSQLI_NUM` and `MYSQLI_ASSOC`. -/
def fetchArrayRow (mode : ℕ) : PhpArray V :=
  let a : PhpArray V :=
    if mode &&& 2 ≠ 0 then
      row.elements.entries.foldl (fun a e =>
        match e.1 with
        | .str name => a.addAssoc name e.2
        | .int _ => a) {}
    else {}
  if mode &&& 1 ≠ 0 then
    fields.foldl (fun a name =>
      match row.hashFind name with
      | some value => a.addNextIndex value
      | none => a) a
  else a

/-- `MYSQLI_NUM`. -/
def mysqliNum : ℕ := 1

/-- `MYSQLI_ASSOC`. -/
def mysqliAssoc : ℕ := 2

/-- `php_mylite_mysqli_result`. -/
structure MysqliResult (V : Type) where
  rows : List (PhpArray V)
  fields : List Text
  position : ℕ := 0

/-- The columns of a row. -/
def namedValues (names : List Text) (row : ℕ → V) : List (Text × V) :=
  names.mapIdx fun column name => (name, row column)

namespace MysqliResult

/-- A result with all rows of a statement. -/
def stored (names : List Text) (rows : List (ℕ → V)) : MysqliResult V where
  rows := rows.map fun row => addCurrentRow (namedValues names row)
  fields := names

/-- `fetch_array`. -/
def fetchArray (r : MysqliResult V) (mode : ℕ) : Option (PhpArray V) × MysqliResult V :=
  match r.rows[r.position]? with
  | some row => (some (fetchArrayRow r.fields row mode), { r with position := r.position + 1 })
  | none => (none, r)

end MysqliResult

/-! ### Names and keys -/

theorem symtableKey_eq_str_iff {n name : Text} :
    symtableKey n = .str name ↔ n = name ∧ integerKey name = none := by
  unfold symtableKey
  cases hkey : integerKey n with
  | some index =>
    refine ⟨nofun, fun h => ?_⟩
    obtain ⟨rfl, hnone⟩ := h
    cases hkey.symm.trans hnone
  | none =>
    constructor
    · intro h
      obtain rfl := Key.str.inj h
      exact ⟨rfl, hkey⟩
    · rintro ⟨rfl, -⟩
      rfl

/-- Only names that do not look like integers are found as strings. -/
theorem lookup_symtableKey (name : Text) :
    (columns.map fun c => (symtableKey c.1, c.2)).lookup (.str name)
      = if integerKey name = none then columns.lookup name else none := by
  induction columns with
  | nil => rw [map_nil, lookup_nil, lookup_nil, ite_self]
  | cons c columns ih =>
    obtain ⟨n, v⟩ := c
    rw [map_cons, OrderedMap.lookup_cons_ite, OrderedMap.lookup_cons_ite, ih]
    by_cases hname : integerKey name = none
    · rw [if_pos hname, if_pos hname]
      by_cases hn : name = n
      · rw [if_pos hn, if_pos (symtableKey_eq_str_iff.mpr ⟨hn.symm, hname⟩).symm]
      · rw [if_neg hn, if_neg fun h => hn (symtableKey_eq_str_iff.mp h.symm).1.symm]
    · rw [if_neg hname, if_neg hname, if_neg fun h => hname (symtableKey_eq_str_iff.mp h.symm).2]

/-! ### The array of a row -/

theorem elements_foldl_addAssoc (a : PhpArray V) :
    (columns.foldl (fun a c => a.addAssoc c.1 c.2) a).elements
      = a.elements.insertAll (columns.map fun c => (symtableKey c.1, c.2)) := by
  induction columns generalizing a with
  | nil => rfl
  | cons c columns ih => exact ih (a.addAssoc c.1 c.2)

/-- A look-up in the array of a row: the last column of that name. -/
theorem hashFind_addCurrentRow (name : Text) :
    (addCurrentRow columns).hashFind name
      = if integerKey name = none then columns.reverse.lookup name else none := by
  unfold PhpArray.hashFind addCurrentRow
  rw [elements_foldl_addAssoc, OrderedMap.find?_insertAll, ← map_reverse, lookup_symtableKey]
  exact Option.or_none

/-- A string key of the array of a row does not look like an integer. -/
theorem integerKey_of_mem {columns : List (Text × V)} {e : Key × V}
    (he : e ∈ (addCurrentRow columns).elements.entries) {name : Text} (hname : e.1 = .str name) :
    integerKey name = none := by
  have hkey : e.1 ∈ (addCurrentRow columns).elements.entries.map Prod.fst :=
    mem_map_of_mem he
  rw [addCurrentRow, elements_foldl_addAssoc] at hkey
  have hin := (OrderedMap.mem_keys_insertAll.mp hkey).resolve_left not_mem_nil
  rw [map_map] at hin
  obtain ⟨c, -, heq⟩ := mem_map.mp hin
  exact (symtableKey_eq_str_iff.mp (heq.trans hname)).2

/-! ### Lists -/

namespace PhpArray

theorem ofList_append_singleton (values : List V) (value : V) :
    ofList (values ++ [value]) = (ofList values).addNextIndex value := by
  rw [ofList, foldl_append]
  rfl

/-- The list of some values has them under the indexes from zero on. -/
theorem entries_ofList (values : List V) :
    (ofList values).elements.entries = values.mapIdx (fun index value => (Key.int index, value)) ∧
      (ofList values).nextFree = values.length := by
  induction values using List.reverseRecOn with
  | nil => exact ⟨rfl, rfl⟩
  | append_singleton values value ih =>
    obtain ⟨hentries, hnext⟩ := ih
    rw [ofList_append_singleton, mapIdx_concat, length_append]
    refine ⟨?_, congrArg (· + 1) hnext⟩
    have hnew : Key.int (ofList values).nextFree ∉
        (ofList values).elements.entries.map Prod.fst := by
      rw [hentries, hnext]
      intro hmem
      obtain ⟨e, he, heq⟩ := mem_map.mp hmem
      obtain ⟨i, hi, rfl⟩ := mem_mapIdx.mp he
      have hindex : i = values.length := Int.ofNat.inj (Key.int.inj heq)
      omega
    show OrderedMap.insertEntry _ value (ofList values).elements.entries = _
    rw [OrderedMap.insertEntry_of_not_mem value hnew, hentries, hnext]

theorem map_snd_ofList (values : List V) :
    (ofList values).elements.entries.map Prod.snd = values := by
  rw [(entries_ofList values).1]
  apply ext_getElem?
  intro i
  rw [List.getElem?_map, List.getElem?_mapIdx, Option.map_map]
  exact Option.map_id'

theorem ofList_injective {values values' : List V} (h : ofList values = ofList values') :
    values = values' := by
  rw [← map_snd_ofList values, h, map_snd_ofList]

end PhpArray

/-! ### What is handed out -/

/-- The numeric array has the values that are found again under their names. -/
theorem fetchArrayRow_num :
    fetchArrayRow fields row mysqliNum = .ofList (fields.filterMap row.hashFind) := by
  rw [PhpArray.ofList, foldl_filterMap]
  rfl

/-- **Numeric rows.**  They are complete exactly if no name looks like an integer, and columns of
    one name have one value. -/
theorem numeric_iff :
    fetchArrayRow (columns.map Prod.fst) (addCurrentRow columns) mysqliNum
        = .ofList (columns.map Prod.snd) ↔
      (∀ c ∈ columns, integerKey c.1 = none) ∧
        ∀ c ∈ columns, ∀ d ∈ columns, c.1 = d.1 → c.2 = d.2 := by
  rw [fetchArrayRow_num]
  have hfound : PhpArray.ofList ((columns.map Prod.fst).filterMap (addCurrentRow columns).hashFind)
        = .ofList (columns.map Prod.snd) ↔
      ∀ c ∈ columns, (addCurrentRow columns).hashFind c.1 = some c.2 := by
    rw [← filterMap_eq_map_iff_forall_eq_some, filterMap_map]
    exact ⟨PhpArray.ofList_injective, fun h => congrArg _ h⟩
  rw [hfound]
  constructor
  · intro h
    have hnone : ∀ c ∈ columns, integerKey c.1 = none := by
      intro c hc
      by_contra hint
      have hc := h c hc
      rw [hashFind_addCurrentRow, if_neg hint] at hc
      cases hc
    refine ⟨hnone, fun c hc d hd hname => ?_⟩
    have hsame := h c hc
    rw [hname, h d hd] at hsame
    exact (Option.some.inj hsame).symm
  · rintro ⟨hnone, hsame⟩ c hc
    rw [hashFind_addCurrentRow, if_pos (hnone c hc)]
    obtain ⟨value, hvalue⟩ : ∃ value, columns.reverse.lookup c.1 = some value := by
      rw [← Option.isSome_iff_exists, lookup_isSome_iff]
      exact ⟨c, mem_reverse.mpr hc, beq_self_eq_true c.1⟩
    obtain ⟨before, after, heq, -⟩ := lookup_eq_some_iff.mp hvalue
    have hmem : (c.1, value) ∈ columns := by
      rw [← mem_reverse, heq]
      exact mem_append_right before mem_cons_self
    rw [hvalue, hsame c hc _ hmem rfl]

/-- The loop over the string keys of a row. -/
theorem find?_foldl_strKeys {entries : List (Key × V)}
    (hstr : ∀ e ∈ entries, ∀ name, e.1 = .str name → integerKey name = none) (a : PhpArray V)
    (key : Key) :
    (entries.foldl (fun a e =>
        match e.1 with
        | .str name => a.addAssoc name e.2
        | .int _ => a) a).elements.find? key
      = match key with
        | .str _ => (entries.reverse.lookup key).or (a.elements.find? key)
        | .int _ => a.elements.find? key := by
  induction entries generalizing a with
  | nil => cases key <;> rfl
  | cons e entries ih =>
    obtain ⟨k, v⟩ := e
    have ih := ih fun e he => hstr e (mem_cons_of_mem _ he)
    rw [foldl_cons, ih, reverse_cons, lookup_append, OrderedMap.lookup_cons_ite,
      lookup_nil]
    cases k with
    | int index =>
      cases key with
      | int i => rfl
      | str name =>
        rw [if_neg nofun, Option.or_none]
    | str n =>
      have hn : symtableKey n = .str n :=
        symtableKey_eq_str_iff.mpr ⟨rfl, hstr (.str n, v) mem_cons_self n rfl⟩
      dsimp only [PhpArray.addAssoc]
      rw [OrderedMap.find?_insert, hn]
      cases key with
      | int i => rw [if_neg nofun]
      | str name =>
        dsimp only
        rw [Option.or_assoc]
        congr 1
        split <;> rfl

/-- The associative array has the string keys of the row. -/
theorem find?_fetchArrayRow_assoc (columns : List (Text × V)) (key : Key) :
    (fetchArrayRow fields (addCurrentRow columns) mysqliAssoc).elements.find? key
      = match key with
        | .str name => (addCurrentRow columns).hashFind name
        | .int _ => none := by
  have hstr : ∀ e ∈ (addCurrentRow columns).elements.entries, ∀ name, e.1 = .str name →
      integerKey name = none := fun e he name hname => integerKey_of_mem he hname
  refine (find?_foldl_strKeys hstr {} key).trans ?_
  cases key with
  | int index => rfl
  | str name =>
    dsimp only
    rw [OrderedMap.lookup_reverse (addCurrentRow columns).elements.nodup]
    exact Option.or_none

/-- **Associative rows.**  They are complete exactly if no name looks like an integer. -/
theorem assoc_iff (columns : List (Text × V)) :
    (∀ c ∈ columns, (fetchArrayRow fields (addCurrentRow columns) mysqliAssoc).get c.1
        = columns.reverse.lookup c.1) ↔
      ∀ c ∈ columns, integerKey c.1 = none := by
  refine forall_congr' fun c => forall_congr' fun hc => ?_
  unfold PhpArray.get symtableKey
  rw [find?_fetchArrayRow_assoc]
  cases hkey : integerKey c.1 with
  | none =>
    dsimp only
    rw [hashFind_addCurrentRow, if_pos hkey]
    exact ⟨fun _ => rfl, fun _ => rfl⟩
  | some index =>
    refine ⟨fun h => ?_, nofun⟩
    have hsome : (columns.reverse.lookup c.1).isSome = true := by
      rw [lookup_isSome_iff]
      exact ⟨c, mem_reverse.mpr hc, beq_self_eq_true c.1⟩
    rw [← h] at hsome
    cases hsome

/-! ### Results -/

theorem map_fst_namedValues (names : List Text) (row : ℕ → V) :
    (namedValues names row).map Prod.fst = names := by
  apply ext_getElem?
  intro i
  rw [List.getElem?_map, namedValues, List.getElem?_mapIdx, Option.map_map]
  exact Option.map_id'

theorem map_snd_namedValues (names : List Text) (row : ℕ → V) :
    (namedValues names row).map Prod.snd = (List.range names.length).map row := by
  rw [namedValues, mapIdx_eq_zipIdx_map, range_eq_range', ← zipIdx_map_snd 0 names,
    map_map, map_map]
  rfl

theorem mem_namedValues {names : List Text} {row : ℕ → V} {c : Text × V} :
    c ∈ namedValues names row ↔ ∃ i, names[i]? = some c.1 ∧ row i = c.2 := by
  rw [namedValues, mem_mapIdx]
  constructor
  · rintro ⟨i, hi, rfl⟩
    exact ⟨i, List.getElem?_eq_getElem hi, rfl⟩
  · rintro ⟨i, hname, hvalue⟩
    obtain ⟨hi, hname⟩ := List.getElem?_eq_some_iff.mp hname
    exact ⟨i, hi, Prod.ext hname hvalue⟩

namespace MysqliResult

/-- The next call gives the row with these values: in numeric mode the list of the values in the
    order of the columns, in associative mode for each name the value of its last column. -/
structure Complete (r : MysqliResult V) (names : List Text) (row : ℕ → V) : Prop where
  numeric : (r.fetchArray mysqliNum).1
    = some (.ofList ((List.range names.length).map row))
  assoc : ∃ a, (r.fetchArray mysqliAssoc).1 = some a ∧
    ∀ name ∈ names, a.get name = (namedValues names row).reverse.lookup name

theorem fetchArray_of_row {r : MysqliResult V} {row : PhpArray V}
    (h : r.rows[r.position]? = some row) (mode : ℕ) :
    r.fetchArray mode
      = (some (fetchArrayRow r.fields row mode), { r with position := r.position + 1 }) := by
  unfold fetchArray
  rw [h]

/-- The calls of `fetch_array` on a result. -/
def Fetches : MysqliResult V → List ℕ → MysqliResult V → Prop :=
  Run (ofFun fun r mode => (r.fetchArray mode).2)

/-- **Run lemma.**  The calls go through the rows one by one. -/
theorem eq_of_fetches {r r' : MysqliResult V} {modes : List ℕ} (hrun : Fetches r modes r')
    (hrows : r.position + modes.length ≤ r.rows.length) :
    r' = { r with position := r.position + modes.length } := by
  unfold Fetches at hrun
  induction hrun with
  | nil => rfl
  | @cons r r₁ r' mode modes hstep _ ih =>
    rw [length_cons] at hrows
    have hlt : r.position < r.rows.length := by omega
    have hmoved : (r.fetchArray mode).2 = r₁ := hstep
    rw [fetchArray_of_row (List.getElem?_eq_getElem hlt)] at hmoved
    subst hmoved
    rw [ih (by dsimp only; omega), length_cons]
    dsimp only
    rw [Nat.add_assoc, Nat.add_comm 1]

/-- **Complete rows.**  Whatever was fetched before, a row of a result is handed out completely
    exactly if no column name looks like an integer, and columns of one name have one value. -/
theorem fetchArray_complete_iff {names : List Text} {rows : List (ℕ → V)} {modes : List ℕ}
    {r : MysqliResult V} (hrun : Fetches (stored names rows) modes r) {row : ℕ → V}
    (hrow : rows[modes.length]? = some row) :
    r.Complete names row ↔
      (∀ name ∈ names, integerKey name = none) ∧
        ∀ i j name, names[i]? = some name → names[j]? = some name → row i = row j := by
  obtain ⟨hlt, -⟩ := List.getElem?_eq_some_iff.mp hrow
  have hr := eq_of_fetches hrun (by
    show 0 + modes.length ≤ (rows.map _).length
    rw [length_map]
    omega)
  have hfetch : ∀ mode, (r.fetchArray mode).1
      = some (fetchArrayRow ((namedValues names row).map Prod.fst)
          (addCurrentRow (namedValues names row)) mode) := by
    intro mode
    have hposition : r.rows[r.position]? = some (addCurrentRow (namedValues names row)) := by
      rw [hr]
      show (rows.map _)[0 + modes.length]? = _
      rw [Nat.zero_add, List.getElem?_map, hrow]
      rfl
    rw [map_fst_namedValues, fetchArray_of_row hposition, hr]
    rfl
  have hcomplete : r.Complete names row ↔
      fetchArrayRow ((namedValues names row).map Prod.fst) (addCurrentRow (namedValues names row))
          mysqliNum = .ofList ((namedValues names row).map Prod.snd) ∧
        ∀ name ∈ names, (fetchArrayRow ((namedValues names row).map Prod.fst)
          (addCurrentRow (namedValues names row)) mysqliAssoc).get name
            = (namedValues names row).reverse.lookup name := by
    rw [map_snd_namedValues]
    constructor
    · rintro ⟨hnumeric, a, ha, hassoc⟩
      rw [hfetch] at hnumeric ha
      obtain rfl := Option.some.inj ha
      exact ⟨Option.some.inj hnumeric, hassoc⟩
    · rintro ⟨hnumeric, hassoc⟩
      exact ⟨by rw [hfetch, hnumeric], _, hfetch mysqliAssoc, hassoc⟩
  have hmem : ∀ {p : Text → Prop},
      (∀ name ∈ names, p name) ↔ ∀ c ∈ namedValues names row, p c.1 := by
    intro p
    have hmap : (∀ name ∈ (namedValues names row).map Prod.fst, p name) ↔
      ∀ c ∈ namedValues names row, p c.1 := forall_mem_map
    rwa [map_fst_namedValues] at hmap
  rw [hcomplete, numeric_iff, hmem, assoc_iff, hmem, and_iff_left_of_imp And.left]
  refine and_congr_right fun _ => ⟨fun h i j name hi hj => ?_, fun h c hc d hd hname => ?_⟩
  · exact h (name, row i) (mem_namedValues.mpr ⟨i, hi, rfl⟩) (name, row j)
      (mem_namedValues.mpr ⟨j, hj, rfl⟩) rfl
  · obtain ⟨i, hi, hvalue⟩ := mem_namedValues.mp hc
    obtain ⟨j, hj, hvalue'⟩ := mem_namedValues.mp hd
    rw [← hvalue, ← hvalue']
    exact h i j c.1 hi (hname ▸ hj)

/-- Two columns with the names `id` and `name`. -/
theorem complete_of_plainNames :
    (stored [ascii "id", ascii "name"] [fun i => i + 1]).Complete [ascii "id", ascii "name"]
      fun i => i + 1 := by
  refine (fetchArray_complete_iff (.nil _) rfl).mpr ⟨by decide, fun i j name hi hj => ?_⟩
  have hnodup : [ascii "id", ascii "name"].Nodup := by decide
  obtain ⟨hi, hname⟩ := List.getElem?_eq_some_iff.mp hi
  obtain ⟨hj, hname'⟩ := List.getElem?_eq_some_iff.mp hj
  rw [(List.Nodup.getElem_inj_iff hnodup).mp (hname.trans hname'.symm)]

/-- `SELECT 1`: the column is called `1`, and the list of the row's values is empty. -/
theorem not_complete_of_integerName :
    ((stored [ascii "1"] [fun _ => 1]).fetchArray mysqliNum).1 = some (.ofList []) ∧
      ¬(stored [ascii "1"] [fun _ => 1]).Complete [ascii "1"] fun _ => 1 := by
  refine ⟨rfl, fun hcomplete => ?_⟩
  have hlists : some (PhpArray.ofList []) = some (PhpArray.ofList [1]) := hcomplete.numeric
  exact absurd (PhpArray.ofList_injective (Option.some.inj hlists)) nofun

end MysqliResult

end MyLite.Php

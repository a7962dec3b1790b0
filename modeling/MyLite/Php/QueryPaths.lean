import MyLite.Api.Stream
import MyLite.Php.EntryPoints
import MyLite.Php.RowStream
import MyLite.Php.Rows

namespace MyLite.Php

open MyLite.Api MyLite.Client MyLite.Lib MyLite.Policy MyLite.Prepared MyLite.Sql List
open Dialogue (Returns after)

/-!
# The two ways of `mysqli::query`

A query is prepared and stepped to its end; a `CALL` is executed directly.  Both ways build the
result from what they are given: the one from the accessors of the statement, the other from the
arguments of a callback, which is not called for a result without rows and gets its values as C
strings.

* `prepareQueryImpl` — `php_mylite_mysqli_query_impl` behind `mylite_prepare`.
* `execResultCallback`, `execQueryImpl` — `php_mylite_mysqli_exec_query_impl`.
* `DeliversPrepared` — the backend of a prepared statement delivers a result set.
* `sameResult_iff` — for which result sets both ways return the same.
-/

/-! ### Rows with the same names -/

section

variable {V : Type}

/-- `nNextFreeElement` only depends on the names. -/
theorem nextFree_foldl_addAssoc {columns columns' : List (Text × V)}
    (hnames : columns.map Prod.fst = columns'.map Prod.fst) :
    ∀ {a a' : PhpArray V}, a.nextFree = a'.nextFree →
      (columns.foldl (fun a c => a.addAssoc c.1 c.2) a).nextFree =
        (columns'.foldl (fun a c => a.addAssoc c.1 c.2) a').nextFree := by
  induction columns generalizing columns' with
  | nil =>
    intro a a' h
    obtain rfl : columns' = [] := map_eq_nil_iff.mp hnames.symm
    exact h
  | cons c columns ih =>
    intro a a' h
    obtain ⟨c', rest, rfl, hname, hrest⟩ := map_eq_cons_iff.mp hnames.symm
    apply ih hrest.symm
    show (a.addAssoc c.1 c.2).nextFree = (a'.addAssoc c'.1 c'.2).nextFree
    unfold PhpArray.addAssoc
    rw [hname, h]

/-- Rows with the same names are the same array exactly if the last column of every key has the
    same value. -/
theorem addCurrentRow_eq_iff {columns columns' : List (Text × V)}
    (hnames : columns.map Prod.fst = columns'.map Prod.fst) :
    addCurrentRow columns = addCurrentRow columns' ↔
      ∀ key, (columns.map fun c => (symtableKey c.1, c.2)).reverse.lookup key =
        (columns'.map fun c => (symtableKey c.1, c.2)).reverse.lookup key := by
  have hkeys : (columns.map fun c => (symtableKey c.1, c.2)).map Prod.fst =
      (columns'.map fun c => (symtableKey c.1, c.2)).map Prod.fst := by
    rw [map_map, map_map]
    have h := congrArg (List.map symtableKey) hnames
    rwa [map_map, map_map] at h
  rw [← OrderedMap.insertAll_empty_eq_iff hkeys]
  have helements := fun columns : List (Text × V) =>
    elements_foldl_addAssoc columns ({} : PhpArray V)
  constructor
  · intro h
    have h := congrArg PhpArray.elements h
    unfold addCurrentRow at h
    rwa [helements, helements] at h
  · intro h
    have hfree : (addCurrentRow columns).nextFree = (addCurrentRow columns').nextFree :=
      nextFree_foldl_addAssoc hnames rfl
    have hsame : (addCurrentRow columns).elements = (addCurrentRow columns').elements := by
      unfold addCurrentRow
      rw [helements, helements]
      exact h
    generalize addCurrentRow columns = a at hfree hsame ⊢
    generalize addCurrentRow columns' = a' at hfree hsame ⊢
    obtain ⟨e, n⟩ := a
    obtain ⟨e', n'⟩ := a'
    obtain rfl : e = e' := hsame
    obtain rfl : n = n' := hfree
    rfl

theorem lookup_map_value {K W : Type} [BEq K] (f : V → W) (entries : List (K × V)) (key : K) :
    (entries.map fun e => (e.1, f e.2)).lookup key = (entries.lookup key).map f := by
  induction entries with
  | nil => rfl
  | cons e entries ih =>
    obtain ⟨k, v⟩ := e
    rw [map_cons, lookup_cons, lookup_cons, ih]
    cases key == k <;> rfl

end

/-! ### The prepare path -/

/-- What `query` returns: `false`, `true` or a result object. -/
inductive QueryReturn
  | failure
  | success
  | result (r : MysqliResult (Option Text))

/-- `php_mylite_mysqli_column_to_zval`. -/
def mysqliColumnToZval (l : Labelled) (column : ℕ) : Option Text :=
  if l.columnType column = .null then none
  else (l.value.columnBlob column).map fun text => text.take (l.value.columnBytes column)

/-- The name of a column as a C string, or the empty one. -/
def mysqliColumnName (l : Labelled) (column : ℕ) : Text := cString ((l.columnName column).getD [])

/-- `php_mylite_mysqli_add_current_row`. -/
def mysqliAddCurrentRow (l : Labelled) : PhpArray (Option Text) :=
  addCurrentRow ((List.range (columnCount l)).map fun column =>
    (mysqliColumnName l column, mysqliColumnToZval l column))

/-- `php_mylite_mysqli_fields_from_stmt`, as far as the names of the fields go. -/
def mysqliFieldsFromStmt (l : Labelled) : List Text :=
  (List.range (columnCount l)).map (mysqliColumnName l)

/-- What the backend does in a step. -/
abbrev StepTurn := StepInput Row × MetadataInput

/-- The loop over the rows; it goes on as long as there are steps with a row. -/
def queryRows : List StepTurn → Labelled → List (PhpArray (Option Text)) →
    Option (StepResult Row × Labelled × List (PhpArray (Option Text)))
  | [], _, _ => none
  | turn :: turns, l, rows =>
    match l.step turn.1 turn.2 with
    | (.row _, l) => queryRows turns l (rows ++ [mysqliAddCurrentRow l])
    | (result, l) => some (result, l, rows)

/-- `php_mylite_mysqli_query_impl` behind `mylite_prepare`; `mylite_finalize` always succeeds. -/
def prepareQueryImpl (turns : List StepTurn) (l : Labelled) : Option QueryReturn :=
  (queryRows turns l []).map fun (result, l, rows) =>
    match result with
    | .done => if columnCount l = 0 then .success else .result ⟨rows, mysqliFieldsFromStmt l, 0⟩
    | _ => .failure

/-! ### The `CALL` path -/

/-- `php_mylite_mysqli_exec_result_context`. -/
structure ExecResultContext where
  rows : List (PhpArray (Option Text)) := []
  fields : List Text := []
  fieldsInitialized : Bool := false

/-- `php_mylite_mysqli_exec_result_callback`: what it returns, and the context it leaves. -/
def execResultCallback (ctx : ExecResultContext) (call : CallbackCall) : ℤ × ExecResultContext :=
  let columns := List.range call.columnCount
  let columnName := fun column => cString (call.names[column]?.getD [])
  let ctx := if ctx.fieldsInitialized then ctx else
    { ctx with fields := ctx.fields ++ columns.map columnName, fieldsInitialized := true }
  let row := addCurrentRow (columns.map fun column =>
    (columnName column, (call.values[column]?.join).map cString))
  (0, { ctx with rows := ctx.rows ++ [row] })

/-- The context behind some calls; `none` if one of them has not returned what this callback
    returns. -/
def contextAfter : ExecResultContext → List CallbackCall → Option ExecResultContext
  | ctx, [] => some ctx
  | ctx, call :: calls =>
    if call.returned = (execResultCallback ctx call).1 then
      contextAfter (execResultCallback ctx call).2 calls
    else none

/-- `php_mylite_mysqli_exec_query_impl` behind `mylite_exec`. -/
def execQueryImpl (code : Result) (ctx : ExecResultContext) : QueryReturn :=
  if code ≠ .ok then .failure
  else if !ctx.fieldsInitialized then .success
  else .result ⟨ctx.rows, ctx.fields, 0⟩

/-! ### Result sets -/

/-- A row of a result set as the columns of a prepared statement get it. -/
def asRow (row : QueryRow) : Row := fun column => row[column]?.join

/-- The names as PHP sees them. -/
def shownNames (s : ResultSet) : List Text := s.names.map cString

/-- The backend of a prepared statement delivers a result set: the server describes it when the
    statement is prepared or with its result, and no step fails up to the end of the rows. -/
structure DeliversPrepared (s : ResultSet) (l : Labelled) (first : StepTurn)
    (others : List StepTurn) : Prop where
  new : l.value.handle.stmt.executed = false
  good : Described.Good ⟨l, none⟩
  without : s.names = [] → l.value.handle.stmt.stmt.hasFields = false ∧
    ∃ rest, first.1.answers = .ok :: rest
  header : s.names ≠ [] → ∃ header failed rest, l.Announces first.1 first.2 header ∧
    header.map Field.name = s.names ∧ first.2.header.length = s.names.length ∧
    first.1.answers = .rows (s.rows.map asRow) failed :: rest
  length : others.length = s.rows.length
  succeeds : Along (fun l turn => (l.step turn.1 turn.2).2)
    (fun l turn => ¬(l.step turn.1 turn.2).1.IsFailure) l (first :: others)

/-- Both ways return the same for result sets without columns, and for result sets with columns that
    can be counted, with rows, and without zero bytes in the last column of every array key. -/
def PathsAgree (s : ResultSet) : Prop :=
  s.names = [] ∨ (s.names.length ≤ intMax ∧ s.rows ≠ [] ∧ ∀ row ∈ s.rows, ∀ key value,
    ((namedValues (shownNames s) (asRow row)).map
      fun c => (symtableKey c.1, c.2)).reverse.lookup key
      = some (some value) → byteNul ∉ value)

/-! ### What the prepare path returns -/

theorem map_range_eq {β : Type} {n : ℕ} {f : ℕ → β} {l : List β} (hn : n = l.length)
    (h : ∀ k (hk : k < l.length), f k = l[k]) : (List.range n).map f = l := by
  subst hn
  apply ext_getElem
  · rw [length_map, length_range]
  · intro k _ hk
    rw [getElem_map, getElem_range]
    exact h k hk

theorem valueType_ne_null (f : Field) : f.valueType ≠ .null := by
  unfold Field.valueType
  split <;> first | decide | (split_ifs <;> decide)

/-- A column that shows a value of a row is read as this value. -/
theorem mysqliColumnToZval_eq {l : Labelled} {row : Row} {column : ℕ} {field : Field}
    (hrow : l.value.handle.stmt.hasRow = true) (hshows : l.value.Shows row)
    (hcolumn : column < l.value.columnCount) (hfield : l.labels[column]? = some field) :
    mysqliColumnToZval l column = row column := by
  have hc := List.getElem?_eq_getElem hcolumn
  have hterm := hshows column _ hc
  have htype : l.columnType column = Prepared.columnType (row column).isNone field := by
    unfold Labelled.columnType
    rw [hc, hfield]
    dsimp only
    rw [isNull_of_terminated hterm]
  unfold mysqliColumnToZval
  cases hvalue : row column with
  | none =>
    rw [hvalue] at htype
    exact if_pos htype
  | some value =>
    rw [hvalue] at hterm htype
    obtain ⟨⟨text, hblob, htake, -⟩, hbytes, -, -⟩ := ValueHandle.reads_of_terminated hrow hc hterm
    have htype' : l.columnType column = field.valueType := htype
    rw [if_neg (by rw [htype']; exact valueType_ne_null field), hblob, hbytes, Option.map_some,
      htake]

section

variable {s : ResultSet} {l : Labelled} {header : List Field}

/-- The columns of a statement are those of the result set. -/
structure Shown (s : ResultSet) (l : Labelled) : Prop where
  labels : l.labels.map Field.name = s.names
  count : l.value.columnCount = s.names.length

theorem Shown.columnCount_eq (h : Shown s l) (hnames : s.names ≠ []) :
    columnCount l = s.names.length := by
  have hne : l.value.cols.columns ≠ [] := by
    apply ne_nil_of_length_pos
    show 0 < l.value.columnCount
    rw [h.count]
    exact length_pos_iff.mpr hnames
  unfold columnCount
  rw [if_pos hne]
  exact h.count

theorem Shown.mysqliColumnName_eq (h : Shown s l) (column : ℕ) (hcolumn : column < s.names.length) :
    mysqliColumnName l column = cString s.names[column] := by
  have hname : l.columnName column = some s.names[column] := by
    unfold Labelled.columnName
    rw [← List.getElem?_map, h.labels, List.getElem?_eq_getElem hcolumn]
  rw [mysqliColumnName, hname]
  rfl

theorem Shown.fields_eq (h : Shown s l) (hnames : s.names ≠ []) :
    mysqliFieldsFromStmt l = shownNames s := by
  refine map_range_eq ?_ fun column hcolumn => ?_
  · rw [h.columnCount_eq hnames, shownNames, length_map]
  · have hlt : column < s.names.length := by rwa [shownNames, length_map] at hcolumn
    rw [h.mysqliColumnName_eq column hlt]
    exact (getElem_map _).symm

/-- The row of the last step is stored with its values. -/
theorem Shown.addCurrentRow_eq (h : Shown s l) (hnames : s.names ≠ []) {row : Row}
    (hgood : Described.Good ⟨l, some row⟩) :
    mysqliAddCurrentRow l = addCurrentRow (namedValues (shownNames s) row) := by
  unfold mysqliAddCurrentRow
  refine congrArg addCurrentRow (map_range_eq ?_ fun column hcolumn => ?_)
  · rw [h.columnCount_eq hnames, namedValues, length_mapIdx, shownNames, length_map]
  · have hlt : column < s.names.length := by
      rwa [namedValues, length_mapIdx, shownNames, length_map] at hcolumn
    have hlabel : column < l.labels.length := by
      have hlength := congrArg List.length h.labels
      rw [length_map] at hlength
      omega
    obtain ⟨hrow, hshows⟩ := hgood.faithful.shows row rfl
    rw [h.mysqliColumnName_eq column hlt,
      mysqliColumnToZval_eq hrow hshows (h.count.symm ▸ hlt) (List.getElem?_eq_getElem hlabel)]
    simp [namedValues, shownNames]

/-- What is left of the rows is collected. -/
theorem queryRows_pending (hnames : s.names ≠ []) {rest : List Row} {turns : List StepTurn}
    {live : Option Row} (hgood : Described.Good ⟨l, live⟩) (hpending : Pending l.value.handle rest)
    (hshown : Shown s l) (hlength : turns.length = rest.length + 1)
    (hsucceeds : Along (fun l turn => (l.step turn.1 turn.2).2)
      (fun l turn => ¬(l.step turn.1 turn.2).1.IsFailure) l turns)
    (rows : List (PhpArray (Option Text))) :
    ∃ l', Shown s l' ∧ queryRows turns l rows =
      some (.done, l',
        rows ++ rest.map fun row => addCurrentRow (namedValues (shownNames s) row)) := by
  induction turns generalizing l live rest rows with
  | nil => cases hlength
  | cons turn turns ih =>
    obtain ⟨hok, hsucceeds⟩ := hsucceeds
    have hgood' := RowStream.good_step hgood turn.1 (m := turn.2) fun hnew =>
      absurd (hnew.symm.trans hpending.executed) Bool.false_ne_true
    have hdelivers := Labelled.delivers_step_pending hpending turn.1 turn.2
    have hshown' : Shown s (l.step turn.1 turn.2).2 :=
      ⟨by rw [Labelled.labels_step_pending hpending]; exact hshown.labels,
        (Labelled.columnCount_step_pending hpending).trans hshown.count⟩
    rw [queryRows]
    change Along _ _ (l.step turn.1 turn.2).2 turns at hsucceeds
    generalize l.step turn.1 turn.2 = p at hok hsucceeds hgood' hdelivers hshown' ⊢
    obtain ⟨result, l'⟩ := p
    cases result with
    | row row =>
      obtain ⟨rest', rfl, hpending'⟩ := hdelivers
      have hlength' : turns.length = rest'.length + 1 := by simpa using hlength
      obtain ⟨l'', hshown'', heq⟩ := ih hgood' hpending' hshown' hlength' hsucceeds
        (rows ++ [mysqliAddCurrentRow l'])
      refine ⟨l'', hshown'', heq.trans ?_⟩
      rw [hshown'.addCurrentRow_eq hnames hgood', append_assoc]
      rfl
    | done =>
      obtain rfl : rest = [] := hdelivers
      exact ⟨l', hshown', by rw [map_nil, append_nil]⟩
    | error | nomem => exact absurd trivial hok

/-- **The prepare path** returns every result set that is delivered to it. -/
theorem prepareQueryImpl_eq {first : StepTurn} {others : List StepTurn}
    (h : DeliversPrepared s l first others) :
    prepareQueryImpl (first :: others) l = some (if s.names = [] then .success else
      .result ⟨s.rows.map fun row => addCurrentRow (namedValues (shownNames s) (asRow row)),
        shownNames s, 0⟩) := by
  obtain ⟨hok, hsucceeds⟩ := h.succeeds
  unfold prepareQueryImpl
  rw [queryRows]
  by_cases hnames : s.names = []
  · rw [if_pos hnames]
    obtain ⟨hnone, rest, hanswers⟩ := h.without hnames
    obtain ⟨hdone, hcols, hfields⟩ := Labelled.noColumns_step_new h.new hnone hanswers hok
    generalize l.step first.1 first.2 = p at hdone hcols hfields ⊢
    obtain ⟨result, l'⟩ := p
    obtain rfl : result = .done := hdone
    have hcount : columnCount l' = 0 := by
      unfold columnCount
      rw [if_neg (not_not.mpr hcols), if_neg (by rw [hfields]; decide)]
    dsimp only
    rw [Option.map_some, if_pos hcount]
  · rw [if_neg hnames]
    obtain ⟨header, failed, rest, hannounces, hheader, hreported, hanswers⟩ := h.header hnames
    obtain ⟨hlabels, hcount⟩ := Labelled.labels_step_new h.new hannounces hok
    have hlength : header.length = s.names.length := by rw [← hheader, length_map]
    have hshown : Shown s (l.step first.1 first.2).2 :=
      ⟨by rw [hlabels]; exact hheader, hcount.trans hlength⟩
    have hgood := RowStream.good_step h.good first.1 (m := first.2) fun _ hknown => by
      unfold Labelled.Announces at hannounces
      rw [if_pos hknown] at hannounces
      rw [hreported, hannounces, hlength]
    have hdelivers := Labelled.delivers_step_new h.new first.1 first.2
    rw [hanswers] at hdelivers
    have hend : ∀ l' rows, Shown s l' → rows = s.rows.map asRow →
        (if columnCount l' = 0 then QueryReturn.success else
          .result ⟨rows.map fun row => addCurrentRow (namedValues (shownNames s) row),
            mysqliFieldsFromStmt l', 0⟩) =
        .result ⟨s.rows.map fun row => addCurrentRow (namedValues (shownNames s) (asRow row)),
          shownNames s, 0⟩ := by
      rintro l' rows hl' rfl
      have hpos : columnCount l' ≠ 0 := by
        rw [hl'.columnCount_eq hnames]
        exact fun h => hnames (length_eq_zero_iff.mp h)
      rw [if_neg hpos, hl'.fields_eq hnames, map_map]
      rfl
    change Along _ _ (l.step first.1 first.2).2 others at hsucceeds
    generalize l.step first.1 first.2 = p at hok hsucceeds hshown hgood hdelivers ⊢
    obtain ⟨result, l'⟩ := p
    cases result with
    | row row =>
      obtain ⟨rest', hrows, hpending⟩ := hdelivers
      have hrows : s.rows.map asRow = row :: rest' := hrows
      have hothers : others.length = rest'.length + 1 := by
        have hcounted := congrArg List.length hrows
        rw [length_map, length_cons] at hcounted
        rw [h.length, hcounted]
      obtain ⟨l'', hshown', heq⟩ := queryRows_pending hnames hgood hpending hshown hothers hsucceeds
        ([] ++ [mysqliAddCurrentRow l'])
      dsimp only
      rw [heq, Option.map_some, hshown.addCurrentRow_eq hnames hgood]
      exact congrArg some (hend l'' (row :: rest') hshown' hrows.symm)
    | done =>
      have hrows : s.rows.map asRow = [] := hdelivers
      exact congrArg some (hend l' [] hshown hrows.symm)
    | error | nomem => exact absurd trivial hok

end

/-! ### What the `CALL` path returns -/

/-- A row of a result set as the callback stores it. -/
def calledRow (s : ResultSet) (row : QueryRow) : PhpArray (Option Text) :=
  addCurrentRow (namedValues (shownNames s) fun column => (asRow row column).map cString)

/-- The callback on a row of a result set. -/
theorem execResultCallback_eq (s : ResultSet) (row : QueryRow) (returned : ℤ)
    (ctx : ExecResultContext) :
    execResultCallback ctx ⟨s.names.length, row, s.names, returned⟩ =
      (0, ⟨ctx.rows ++ [calledRow s row],
        if ctx.fieldsInitialized then ctx.fields else ctx.fields ++ shownNames s, true⟩) := by
  have hfields : ((List.range s.names.length).map fun column =>
      cString (s.names[column]?.getD [])) = shownNames s := by
    refine map_range_eq ?_ fun column hcolumn => ?_
    · rw [shownNames, length_map]
    · rw [shownNames, length_map] at hcolumn
      simp [shownNames, hcolumn]
  have hrow : ((List.range s.names.length).map fun column =>
      (cString (s.names[column]?.getD []), (row[column]?.join).map cString)) =
        namedValues (shownNames s) fun column => (asRow row column).map cString := by
    refine map_range_eq ?_ fun column hcolumn => ?_
    · rw [namedValues, length_mapIdx, shownNames, length_map]
    · rw [namedValues, length_mapIdx, shownNames, length_map] at hcolumn
      simp [namedValues, shownNames, asRow, hcolumn]
  unfold execResultCallback
  dsimp only
  rw [hrow, hfields]
  cases hinit : ctx.fieldsInitialized with
  | false => rfl
  | true =>
    rw [if_pos rfl, if_pos rfl, ← hinit]
    rfl

/-- **The callback** has got the rows and, with the first of them, the names. -/
theorem contextAfter_of_emits {s : ResultSet} {rows : List QueryRow} {calls : List CallbackCall}
    (hemits : EmitsRows s.names rows calls) {ctx ctx' : ExecResultContext}
    (hctx : contextAfter ctx calls = some ctx') :
    (∀ call ∈ calls, call.returned = 0) ∧ ctx'.rows = ctx.rows ++ rows.map (calledRow s) ∧
      ctx'.fieldsInitialized = (ctx.fieldsInitialized || !rows.isEmpty) ∧
      ctx'.fields = if ctx.fieldsInitialized || rows.isEmpty then ctx.fields
        else ctx.fields ++ shownNames s := by
  induction rows generalizing calls ctx with
  | nil =>
    obtain rfl : calls = [] := hemits
    obtain rfl : ctx = ctx' := Option.some.inj hctx
    refine ⟨forall_mem_nil _, (append_nil _).symm, (Bool.or_false _).symm, ?_⟩
    rw [isEmpty_nil, Bool.or_true, if_pos rfl]
  | cons row rows ih =>
    obtain ⟨returned, rest, rfl, hrest⟩ := hemits
    rw [contextAfter, execResultCallback_eq] at hctx
    obtain rfl : returned = 0 := by
      by_contra hreturned
      rw [if_neg hreturned] at hctx
      cases hctx
    rw [if_pos rfl] at hrest hctx
    obtain ⟨hzero, hrows, hinit, hfields⟩ := ih hrest hctx
    refine ⟨forall_mem_cons.mpr ⟨rfl, hzero⟩, ?_, ?_, ?_⟩
    · rw [hrows, append_assoc]
      rfl
    · rw [hinit, Bool.true_or, isEmpty_cons, Bool.not_false, Bool.or_true]
    · rw [hfields, Bool.true_or, if_pos rfl, isEmpty_cons, Bool.or_false]

/-- **The `CALL` path**, for a result set whose columns can be counted. -/
theorem execQueryImpl_eq {s : ResultSet} {r : Executed} {q : ResultQueue} (h : Streams s true r q)
    {ctx : ExecResultContext} (hctx : contextAfter {} q.calls = some ctx) :
    execQueryImpl r.code ctx = if s.rows = [] then .success else
      .result ⟨s.rows.map (calledRow s), shownNames s, 0⟩ := by
  obtain ⟨hzero, hrows, hinit, hfields⟩ := contextAfter_of_emits h.rows hctx
  unfold execQueryImpl
  rw [if_neg (not_not.mpr (h.code.mpr hzero)), hinit, hfields, hrows]
  cases s.rows with
  | nil | cons row rows => rfl

/-- Values that are cut at their first zero byte are the same exactly if there is none. -/
theorem map_cString_eq_iff {value : Option (Option Text)} :
    value.map (Option.map cString) = value ↔ ∀ text, value = some (some text) → byteNul ∉ text := by
  constructor
  · rintro h text rfl
    exact cString_eq_self_iff.mp (Option.some.inj (Option.some.inj h))
  · intro h
    rcases value with _ | _ | text
    · rfl
    · rfl
    · exact congrArg (some ∘ some) (cString_eq_self_iff.mpr (h text rfl))

/-- A row is stored in the same way on both paths exactly if the values that stay have no zero
    byte. -/
theorem calledRow_eq_iff (s : ResultSet) (row : QueryRow) :
    calledRow s row = addCurrentRow (namedValues (shownNames s) (asRow row)) ↔
      ∀ key value, ((namedValues (shownNames s) (asRow row)).map fun c =>
        (symtableKey c.1, c.2)).reverse.lookup key = some (some value) → byteNul ∉ value := by
  have hcut : (namedValues (shownNames s) fun column => (asRow row column).map cString) =
      (namedValues (shownNames s) (asRow row)).map fun c => (c.1, c.2.map cString) := by
    apply ext_getElem
    · simp [namedValues]
    · simp [namedValues]
  have hnames : ((namedValues (shownNames s) (asRow row)).map fun c =>
      (c.1, c.2.map cString)).map Prod.fst =
        (namedValues (shownNames s) (asRow row)).map Prod.fst := by
    rw [map_map]
    rfl
  unfold calledRow
  rw [hcut, addCurrentRow_eq_iff hnames]
  refine forall_congr' fun key => ?_
  rw [← map_cString_eq_iff, ← lookup_map_value, map_map, ← map_reverse, ← map_reverse,
    map_map]
  rfl

/-- **Both ways of `mysqli::query`.** Whatever result set the server delivers, the prepare path
    returns, and the `CALL` path returns the same exactly if the result set has no columns, or has
    columns an `int` can count, at least one row, and no zero byte in a value that the array of its
    row keeps. -/
theorem sameResult_iff (db : MyliteDb) (sql : Text) (hgate : rejects db.currentSchema sql = false)
    (s : ResultSet) (more : List ResultSet) {l : Labelled} {first : StepTurn}
    {others : List StepTurn} (hdelivers : DeliversPrepared s l first others) :
    ∃ prepared, prepareQueryImpl (first :: others) l = some prepared ∧
      Serves (execCalls s more) (.ready s more)
        (fun r q => ∀ ctx, contextAfter {} q.calls = some ctx →
          (execQueryImpl r.code ctx = prepared ↔ PathsAgree s))
        (execImpl db sql true true) := by
  refine ⟨_, prepareQueryImpl_eq hdelivers, ?_⟩
  by_cases hcount : s.names.length ≤ intMax
  · refine (serves_execImpl hgate hcount more true true).imp (fun r q h ctx hctx => ?_)
      (Nat.le_refl _)
    rw [execQueryImpl_eq h hctx, PathsAgree]
    by_cases hnames : s.names = []
    · rw [if_pos (s.rows_nil hnames), if_pos hnames]
      exact ⟨fun _ => .inl hnames, fun _ => rfl⟩
    · rw [if_neg hnames]
      by_cases hrows : s.rows = []
      · -- Without a row, the callback is not called.
        rw [if_pos hrows]
        exact ⟨nofun, fun h => (h.resolve_left hnames).2.1.elim hrows⟩
      · rw [if_neg hrows]
        have hsame : (∀ row ∈ s.rows, calledRow s row =
            addCurrentRow (namedValues (shownNames s) (asRow row))) ↔ _ :=
          forall₂_congr fun row _ => calledRow_eq_iff s row
        rw [QueryReturn.result.injEq, MysqliResult.mk.injEq, map_inj_left, hsame]
        constructor
        · exact fun h => .inr ⟨hcount, hrows, h.1⟩
        · exact fun h => ⟨(h.resolve_left hnames).2.2, rfl, rfl⟩
  · have hmany := Nat.lt_of_not_le hcount
    refine (serves_execImpl_of_many hgate hmany more true true).imp (fun r q h ctx _ => ?_) ?_
    swap
    · unfold execCalls
      omega
    have hnames : s.names ≠ [] := by
      intro hnil
      rw [hnil] at hmany
      exact absurd hmany (Nat.not_lt_zero _)
    unfold execQueryImpl PathsAgree
    rw [if_pos h, if_neg hnames]
    exact ⟨nofun, fun h => absurd (h.resolve_left hnames).1 hcount⟩

/-- It is enough that there is no zero byte in any value. -/
theorem pathsAgree_of_values {s : ResultSet} (hcount : s.names.length ≤ intMax)
    (hrows : s.rows ≠ [])
    (hvalues : ∀ row ∈ s.rows, ∀ value, some value ∈ row → byteNul ∉ value) : PathsAgree s := by
  refine .inr ⟨hcount, hrows, fun row hrow key value hlookup => hvalues row hrow value ?_⟩
  obtain ⟨before, behind, heq, -⟩ := lookup_eq_some_iff.mp hlookup
  have hmem : (key, some value) ∈ ((namedValues (shownNames s) (asRow row)).map fun c =>
      (symtableKey c.1, c.2)).reverse := by
    rw [heq]
    exact mem_append_right _ mem_cons_self
  rw [mem_reverse] at hmem
  obtain ⟨c, hc, heq⟩ := mem_map.mp hmem
  obtain ⟨column, hcolumn, rfl⟩ := mem_mapIdx.mp hc
  have hvalue : row[column]?.join = some value := (Prod.mk.inj heq).2
  exact mem_of_getElem? (Option.join_eq_some_iff.mp hvalue)

/-- `CALL p()`. -/
def callP : Text := ascii "CALL p()"

theorem not_rejects_callP : rejects ({} : MyliteDb).currentSchema callP = false := by decide

/-- A statement whose result has one column. -/
def preparedColumn : Labelled :=
  .prepared {} { state := .prepareDone, hasFields := true }
    [{ name := ascii "a", type := .varString }]

/-- The step that executes it, with the values of the column. -/
def firstTurn (values : List (Option Text)) : StepTurn :=
  ({ answers := [.rows (values.map fun value => asRow [value]) false] },
    { header := [{ name := ascii "a", type := .varString }] })

/-- A step that fetches. -/
def furtherTurn : StepTurn := ({ answers := [] }, {})

/-- A text and `NULL` come the same way on both paths. -/
theorem sameResult_twoRows :
    ∃ prepared, prepareQueryImpl [firstTurn [some (ascii "x"), none], furtherTurn, furtherTurn]
        preparedColumn = some prepared ∧
      Serves (execCalls (oneColumn [some (ascii "x"), none]) [noColumns])
        (.ready (oneColumn [some (ascii "x"), none]) [noColumns])
        (fun r q => ∀ ctx, contextAfter {} q.calls = some ctx →
          execQueryImpl r.code ctx = prepared)
        (execImpl {} callP true true) := by
  have hdelivers : DeliversPrepared (oneColumn [some (ascii "x"), none]) preparedColumn
      (firstTurn [some (ascii "x"), none]) [furtherTurn, furtherTurn] := by
    refine ⟨rfl, Described.good_prepared _ _ _, nofun, fun _ => ?_, rfl, ?_⟩
    · exact ⟨_, false, [], rfl, rfl, rfl, rfl⟩
    · exact ⟨by decide, by decide, by decide, trivial⟩
  have hagree : PathsAgree (oneColumn [some (ascii "x"), none]) := by
    refine pathsAgree_of_values (by decide) nofun ?_
    intro row hrow value hvalue
    have hrow : row = [some (ascii "x")] ∨ row = [none] := by simpa [oneColumn] using hrow
    rcases hrow with rfl | rfl
    · obtain rfl : value = ascii "x" := by simpa using hvalue
      decide
    · simp at hvalue
  obtain ⟨prepared, hprepared, hserves⟩ :=
    sameResult_iff {} callP not_rejects_callP (oneColumn [some (ascii "x"), none])
      [noColumns] hdelivers
  exact ⟨prepared, hprepared,
    hserves.imp (fun r q h ctx hctx => (h ctx hctx).mpr hagree) (Nat.le_refl _)⟩

/-- For a result without rows, the prepare path returns a result object and the `CALL` path returns
    `true`. -/
theorem not_sameResult_empty :
    prepareQueryImpl [firstTurn []] preparedColumn = some (.result ⟨[], [ascii "a"], 0⟩) ∧
      ∃ rs said r q ctx, Returns (execImpl {} callP true true) rs said r ∧
        after ResultQueue.next (.ready (oneColumn []) []) said = some q ∧
        contextAfter {} q.calls = some ctx ∧ execQueryImpl r.code ctx = .success := by
  refine ⟨rfl, List.replicate 9 (answering (oneColumn [])), ?_⟩
  rw [execImpl_of_not_rejects not_rejects_callP]
  exact ⟨_, _, _, _, ⟨_, rfl⟩, rfl, rfl, rfl⟩

end MyLite.Php

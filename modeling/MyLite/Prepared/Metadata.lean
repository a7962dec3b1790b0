import MyLite.Prepared.Values

namespace MyLite.Prepared

open MyLite.Client MyLite.Lib MyLite.Sql

/-!
# Names and types of result columns

The descriptions of a result set that a statement keeps.  The client library has one in
`stmt->fields`: it is taken over as a whole at `mysql_stmt_prepare` and with a result set that
nothing was known of, but an execution of a statement with known fields only brings the types up
to date.  `mylite_stmt` copies it to its columns when it sets them up, which is before the
execution wherever fields are known.

* `Field`, `columnType` — a field, and the type the API has for it.
* `Report` — what the server says of a result set; `wholeFields` and `lastFields` of all reports.
* `Labelled` — a statement with both descriptions; `Labelled.step`, `Labelled.reset`.
* `step_value` — without the descriptions this is `ValueHandle.step`.
* `describes_iff` — when the columns describe the result set whose row was returned.
-/

/-! ### Fields -/

/-- `enum_field_types`. -/
inductive FieldType
  | decimal | tiny | short | long | float | double | null | timestamp | longlong | int24 | date
  | time | datetime | year | newdate | varchar | bit | timestamp2 | datetime2 | time2
  | blobCompressed | varcharCompressed | newdecimal | enum | set | tinyBlob | mediumBlob | longBlob
  | blob | varString | string | geometry
  deriving DecidableEq, Repr

/-- `MYSQL_FIELD`, as far as it is copied to a column. -/
structure Field where
  name : Text := []
  type : FieldType := .null
  flags : ℕ := 0
  length : ℕ := 0
  deriving DecidableEq, Repr

/-- `mylite_value_type`. -/
inductive ValueType
  | null | int64 | uint64 | double | text | blob
  deriving DecidableEq, Repr

/-- `UNSIGNED_FLAG`. -/
def unsignedFlag : ℕ := 32

/-- `BINARY_FLAG`. -/
def binaryFlag : ℕ := 128

/-- The type of a value of a field, if it is not `NULL`. -/
def Field.valueType (f : Field) : ValueType :=
  match f.type with
  | .tiny | .short | .long | .int24 | .longlong | .year =>
    if f.flags &&& unsignedFlag ≠ 0 then .uint64 else .int64
  | .float | .double | .decimal | .newdecimal => .double
  | .tinyBlob | .mediumBlob | .longBlob | .blob | .string | .varString | .varchar =>
    if f.flags &&& binaryFlag ≠ 0 then .blob else .text
  | _ => .text

/-- `column_type`. -/
def columnType (isNull : Bool) (f : Field) : ValueType := if isNull then .null else f.valueType

/-! ### What the server says -/

/-- The fields of a result set as the server sends them. -/
inductive Report
  /-- At `mysql_stmt_prepare`, or with a result set of a statement whose fields are not known. -/
  | whole (fields : List Field)
  /-- With the execution of a statement whose fields are known. -/
  | execution (fields : List Field)
  deriving DecidableEq, Repr

/-- The fields of a report. -/
def Report.fields : Report → List Field
  | .whole fields => fields
  | .execution fields => fields

/-- The last description that was taken over as a whole; the last report comes first. -/
def wholeFields : List Report → List Field
  | [] => []
  | .whole fields :: _ => fields
  | .execution _ :: before => wholeFields before

/-- The last description. -/
def lastFields : List Report → List Field
  | [] => []
  | report :: _ => report.fields

/-- `update_stmt_fields`, for as many fields as there were. -/
def updateStmtFields (fields header : List Field) : List Field :=
  List.zipWith (fun field new => { new with name := field.name }) fields header

/-! ### Statements -/

/-- A statement with the fields the client library has for it, those copied to its columns, and a
    record of the reports: all of them, and those before the columns were set up. -/
structure Labelled where
  value : ValueHandle
  fields : List Field := []
  labels : List Field := []
  reports : List Report := []
  known : List Report := []

/-- What the backend does in one call of `mylite_step`: the fields the server sends with the result
    of the execution and with the result sets behind it, how many columns get a buffer where that
    fails, and which columns can be read again. -/
structure MetadataInput where
  header : List Field := []
  further : List (List Field) := []
  allocated : ℕ := 0
  fetchColumn : ℕ → Bool := fun _ => true

/-- `mysql_stmt_execute` comes to a result set. -/
def opensResult (s : Session Row) (answers : List (Answer Row)) : Bool :=
  match (s.resetHandle true).embStmtExecute answers with
  | (ok, c) => ok && c.hasFields

/-- The fields of the result sets `drain_remaining_statement_results` comes to. -/
def drainedHeaders (storeBind : Bool) : ℕ → Session Row → List (List Field) → List (List Field)
  | 0, _, _ => []
  | turns + 1, s, further =>
    match s.stmtNextResult with
    | (.ok, s) =>
      if !s.stmt.hasFields then drainedHeaders storeBind turns s further
      else match s.stmtStoreResult storeBind with
        | (false, _) => [further.headD []]
        | (true, s) =>
          further.headD [] :: drainedHeaders storeBind turns s.freeResult further.tail
    | _ => []

/-- The fields of the result sets `skipResults` comes to. -/
def skippedHeaders : ℕ → Session Row → List (List Field) → List (List Field)
  | 0, _, _ => []
  | turns + 1, s, further =>
    if s.conn.moreResults then
      match s.stmtNextResult with
      | (.ok, s) =>
        if s.stmt.hasFields then further.headD [] :: skippedHeaders turns s further.tail
        else skippedHeaders turns s further
      | _ => []
    else []

/-- The fields of the result sets `mysql_stmt_reset` comes to. -/
def resetHeaders (s : Session Row) (further : List (List Field)) : List (List Field) :=
  if s.stmt.state = .initDone || !s.wasExecuted then []
  else
    let s := s.flushPending
    let s := { s with stmt := { s.stmt with readRow := .noResultSet } }
    skippedHeaders (s.conn.firstData.length + 1) s further

namespace Labelled

variable (l : Labelled)

/-- `alloc_stmt_fields` and `update_stmt_fields`. -/
def report : Report → Labelled
  | .whole header => { l with fields := header, reports := .whole header :: l.reports }
  | .execution header =>
    { l with fields := updateStmtFields l.fields header, reports := .execution header :: l.reports }

/-- Result sets that are read one behind the other. -/
def reportAll (headers : List (List Field)) : Labelled :=
  headers.foldl (fun l header => l.report (.whole header)) l

/-- `reinit_result_set_metadata`. -/
def reinitResultSetMetadata (header : List Field) : Labelled :=
  l.report (if l.value.handle.stmt.stmt.hasFields then .execution header else .whole header)

/-- `release_statement_results`. -/
def releaseStatementResults : Labelled :=
  { l with value := l.value.releaseStatementResults, labels := [] }

/-- What the loop of `initialize_statement_results` has copied when it ends. -/
def copied (i : Setup) (allocated : ℕ) : List Field :=
  if i.buffers then l.fields
  else l.fields.take (allocated + 1) ++ (l.fields.drop (allocated + 1)).map fun _ => ({} : Field)

/-- `initialize_statement_results` behind the release. -/
def setUpResults (i : Setup) (allocated : ℕ) : Option (StepResult Row) × Labelled :=
  match l.value.setUpResults i (l.fields.map Field.length) allocated with
  | (result, value) =>
    if !l.value.handle.stmt.stmt.hasFields || !i.metadata then (result, { l with value := value })
    else (result, { l with value := value, labels := l.copied i allocated, known := l.reports })

variable (i : StepInput Row) (m : MetadataInput)

variable (answers : List (Answer Row)) (header : List Field)

/-- `mysql_stmt_execute`. -/
def stmtExecute : Bool × Labelled :=
  match l.value.handle.session.stmtExecute answers with
  | (ok, s) =>
    let l' := if opensResult l.value.handle.session answers then l.reinitResultSetMetadata header
      else l
    (ok, { l' with value := l.value.withSession s })

/-- `stmt->executed = true`. -/
def markExecuted : Labelled :=
  { l with value := { l.value with handle := { l.value.handle with
      stmt := { l.value.handle.stmt with executed := true } } } }

/-- `mylite_step` behind a successful execution. -/
def executionDone (i : Setup) (allocated : ℕ) : Option (StepResult Row) × Labelled :=
  if !l.value.handle.stmt.hasResult && l.value.handle.stmt.stmt.hasFields then
    l.markExecuted.setUpResults i allocated
  else (none, l.markExecuted)

/-- The part of `mylite_step` that executes the statement. -/
def executeStatement : Option (StepResult Row) × Labelled :=
  if !i.bindParameters then
    (some .error, { l with value := ⟨l.value.handle.withError, l.value.cols⟩ })
  else match l.releaseStatementResults.setUpResults i.setup m.allocated with
    | (some result, l) => (some result, l)
    | (none, l) =>
      match l.stmtExecute i.answers m.header with
      | (false, l) => (some .error, l)
      | (true, l) => l.executionDone i.setupAfter m.allocated

/-- The fields of the result sets behind the rows, if the fetch comes to their end. -/
def fetchHeaders (i : StepInput Row) (m : MetadataInput) : List (List Field) :=
  if l.value.handle.stmt.resultBindsDirty && !i.refreshBinds then []
  else match l.value.handle.session.stmtFetch i.fetch with
    | (.noData, s) => drainedHeaders i.storeBind (s.conn.firstData.length + 1) s m.further
    | _ => []

/-- `fetch_statement_row`. -/
def fetchStatementRow (i : StepInput Row) (m : MetadataInput) : StepResult Row × Labelled :=
  match l.value.fetchStatementRow i { fetchColumn := m.fetchColumn } with
  | (result, value) => (result, { l.reportAll (l.fetchHeaders i m) with value := value })

/-- `mylite_step`. -/
def step : StepResult Row × Labelled :=
  match if l.value.handle.stmt.executed then (none, l) else l.executeStatement i m with
  | (some result, l) => (result, l)
  | (none, l) => if l.value.handle.stmt.hasResult then l.fetchStatementRow i m else (.done, l)

/-- `mylite_reset`. -/
def reset (answer : Answer Row) (further : List (List Field)) : Bool × Labelled :=
  let headers := resetHeaders l.value.handle.releaseStatementResults.session further
  match l.value.reset answer with
  | (ok, value) => (ok, { l.reportAll headers with value := value, labels := [] })

/-- The statement on the connection as others have left it. -/
def onConnection (conn : Connection Row) : Labelled :=
  { l with value := l.value.onConnection conn }

/-- A statement as `mylite_prepare` returns it. -/
def prepared (conn : Connection Row) (stmt : Stmt) (header : List Field) : Labelled where
  value := .prepared conn stmt
  fields := header
  reports := [.whole header]

/-- `mylite_column_name`. -/
def columnName (column : ℕ) : Option Text := l.labels[column]?.map Field.name

/-- `mylite_column_type`. -/
def columnType (column : ℕ) : ValueType :=
  match l.value.cols.columns[column]?, l.labels[column]? with
  | some c, some field => Prepared.columnType c.isNull field
  | _, _ => .null

/-- The columns describe a row of the result set the server has reported last. -/
def Describes (row : Row) : Prop :=
  ∀ column < l.value.columnCount, ∃ field, (lastFields l.reports)[column]? = some field ∧
    l.columnName column = some field.name ∧
    l.columnType column = Prepared.columnType (row column).isNone field

/-! ### The statement without its descriptions -/

theorem value_report (r : Report) : (l.report r).value = l.value := by
  cases r <;> rfl

theorem value_reportAll (headers : List (List Field)) : (l.reportAll headers).value = l.value := by
  induction headers generalizing l with
  | nil => rfl
  | cons header headers ih => exact ih (l.report (.whole header))

theorem setUpResults_value (i : Setup) (allocated : ℕ) :
    l.value.setUpResults i (l.fields.map Field.length) allocated
      = ((l.setUpResults i allocated).1, (l.setUpResults i allocated).2.value) := by
  unfold setUpResults
  dsimp only
  split <;> rfl

theorem executionDone_value (i : Setup) (allocated : ℕ) :
    l.value.executionDone i (l.fields.map Field.length) allocated
      = ((l.executionDone i allocated).1, (l.executionDone i allocated).2.value) := by
  unfold executionDone ValueHandle.executionDone
  dsimp only
  split
  · exact l.markExecuted.setUpResults_value i allocated
  · rfl

theorem executeStatement_value :
    ∃ fieldsAfter, l.value.executeStatement i
        ⟨l.fields.map Field.length, fieldsAfter, m.allocated, m.fetchColumn⟩
      = ((l.executeStatement i m).1, (l.executeStatement i m).2.value) := by
  unfold executeStatement ValueHandle.executeStatement
  by_cases hbind : (!i.bindParameters) = true
  · exact ⟨[], by rw [if_pos hbind, if_pos hbind]⟩
  · simp only [if_neg hbind]
    have hsetup : l.value.initializeStatementResults true i.setup (l.fields.map Field.length)
        m.allocated = _ := l.releaseStatementResults.setUpResults_value i.setup m.allocated
    rw [hsetup]
    rcases l.releaseStatementResults.setUpResults i.setup m.allocated with ⟨r, l₁⟩
    cases r with
    | some result => exact ⟨[], rfl⟩
    | none =>
      unfold stmtExecute
      dsimp only
      generalize (if opensResult _ _ = true then _ else l₁) = l₂
      rcases l₁.value.handle.session.stmtExecute i.answers with ⟨ok, s⟩
      cases ok with
      | false => exact ⟨[], rfl⟩
      | true => exact ⟨_, executionDone_value { l₂ with value := _ } i.setupAfter m.allocated⟩

/-- **Values.** Without its descriptions, a step is a step of the statement with its columns. -/
theorem step_value : ∃ j, l.value.step i j = ((l.step i m).1, (l.step i m).2.value) := by
  obtain ⟨fieldsAfter, hexecute⟩ := l.executeStatement_value i m
  refine ⟨⟨l.fields.map Field.length, fieldsAfter, m.allocated, m.fetchColumn⟩, ?_⟩
  unfold step ValueHandle.step ValueHandle.beforeFetch
  by_cases hexecuted : l.value.handle.stmt.executed = true
  · simp only [if_pos hexecuted]
    by_cases hresult : l.value.handle.stmt.hasResult = true
    · simp only [if_pos hresult]
      rfl
    · simp only [if_neg hresult]
  · simp only [if_neg hexecuted]
    rw [hexecute]
    rcases l.executeStatement i m with ⟨r, l'⟩
    cases r with
    | some result => rfl
    | none =>
      dsimp only
      by_cases hresult : l'.value.handle.stmt.hasResult = true
      · simp only [if_pos hresult]
        rfl
      · simp only [if_neg hresult]

end Labelled

/-! ### Columns and their number -/

theorem Columns.length_growColumns (row : Row) (fetchColumn : ℕ → Bool) (k : ℕ)
    (columns : List ResultColumn) (memory : ℕ → Text) (fresh : ℕ) :
    (growColumns row fetchColumn k columns memory fresh).columns.length = columns.length := by
  induction columns generalizing k memory fresh with
  | nil => rfl
  | cons c columns ih =>
    rw [growColumns]
    split_ifs
    · exact congrArg Nat.succ (ih (k + 1) memory fresh)
    · rfl
    · exact congrArg Nat.succ (ih (k + 1) _ (fresh + 1))

namespace ValueHandle

theorem columnCount_rowFetched (h : ValueHandle) (j : ColumnInput) (row : Row) :
    (h.rowFetched j row).2.columnCount = h.columnCount := by
  have hgrown : (h.cols.readAgain row j.fetchColumn).columns.length = h.cols.columns.length := by
    unfold Columns.readAgain
    split_ifs
    · exact Columns.length_growColumns row j.fetchColumn 0 _ _ _
    · rfl
  unfold rowFetched columnCount
  dsimp only
  split_ifs
  · exact hgrown
  · exact hgrown

/-- A fetch keeps the columns. -/
theorem columnCount_fetchStatementRow (h : ValueHandle) (i : StepInput Row) (j : ColumnInput) :
    (h.fetchStatementRow i j).2.columnCount = h.columnCount := by
  have hrefreshed : h.refreshed.columnCount = h.columnCount := by
    have hshape := congrArg List.length h.refreshed_shape
    rwa [List.length_map, List.length_map] at hshape
  unfold fetchStatementRow
  split_ifs
  · rfl
  · rw [← hrefreshed]
    unfold fetchBound
    rcases h.refreshed.handle.session.stmtFetch i.fetch with ⟨fetched, s⟩
    cases fetched with
    | noData | error => rfl
    | row row =>
      refine (columnCount_rowFetched _ j row).trans ?_
      exact List.length_mapIdx

end ValueHandle

/-! ### The invariant -/

namespace Labelled

/-- What the two descriptions of a statement have taken from the reports. -/
structure Consistent (l : Labelled) : Prop where
  names : l.fields.map Field.name = (wholeFields l.reports).map Field.name
  types : l.fields.map Field.valueType = (lastFields l.reports).map Field.valueType
  copied : l.value.handle.stmt.hasResult = true →
    l.labels.map Field.name = (wholeFields l.known).map Field.name ∧
      l.labels.map Field.valueType = (lastFields l.known).map Field.valueType ∧
      l.labels.length = l.value.columnCount

variable {l : Labelled}

/-- Without a result set, only the client library has a description. -/
theorem Consistent.of_no_result {l' : Labelled} (h : Consistent l) (hfields : l'.fields = l.fields)
    (hreports : l'.reports = l.reports) (hresult : l'.value.handle.stmt.hasResult = false) :
    Consistent l' := by
  refine ⟨by rw [hfields, hreports, h.names], by rw [hfields, hreports, h.types], fun h' => ?_⟩
  cases hresult.symm.trans h'

/-- The columns stay. -/
theorem Consistent.withValue (h : Consistent l) {value : ValueHandle}
    (hresult : value.handle.stmt.hasResult = true → l.value.handle.stmt.hasResult = true)
    (hcount : value.columnCount = l.value.columnCount) :
    Consistent { l with value := value } := by
  refine ⟨h.names, h.types, fun h' => ?_⟩
  obtain ⟨hnames, htypes, hlength⟩ := h.copied (hresult h')
  exact ⟨hnames, htypes, hlength.trans hcount.symm⟩

/-- The names stay as they are, and the types are those of the execution. -/
theorem map_updateStmtFields {fields header : List Field} (h : header.length = fields.length) :
    (updateStmtFields fields header).map Field.name = fields.map Field.name ∧
      (updateStmtFields fields header).map Field.valueType = header.map Field.valueType := by
  unfold updateStmtFields
  constructor
  · exact List.ext_getElem (by simp [h]) fun i hi hi' => by simp
  · refine List.ext_getElem (by simp [h]) fun i hi hi' => ?_
    simp only [List.getElem_map, List.getElem_zipWith]
    rfl

/-- The client library's fields follow the reports, and the columns stay as they are. -/
theorem Consistent.report (h : Consistent l) {r : Report}
    (hlength : ∀ header, r = .execution header → header.length = l.fields.length) :
    Consistent (l.report r) := by
  cases r with
  | whole header => exact ⟨rfl, rfl, h.copied⟩
  | execution header =>
    obtain ⟨hname, htype⟩ := map_updateStmtFields (hlength header rfl)
    exact ⟨hname.trans h.names, htype, h.copied⟩

theorem Consistent.reportAll (h : Consistent l) (headers : List (List Field)) :
    Consistent (l.reportAll headers) := by
  induction headers generalizing l with
  | nil => exact h
  | cons header headers ih => exact ih (h.report nofun)

end Labelled

/-- There is a result behind a set-up that succeeds on a statement with fields. -/
theorem Handle.hasResult_setUpResults {h : Handle Row} (hresult : h.stmt.hasResult = false)
    (i : Setup) :
    (h.setUpResults i).2.stmt.hasResult = (h.stmt.stmt.hasFields && i.succeeds) := by
  unfold Handle.setUpResults Setup.succeeds
  split_ifs with hfields hmetadata hbuffers hbind
  · simp_all
  · simp_all [Handle.withError]
  · simp_all
  · simp_all [Handle.withError]
  · simp_all

theorem Handle.hasFields_releaseStatementResults (h : Handle Row) :
    h.releaseStatementResults.stmt.stmt.hasFields = h.stmt.stmt.hasFields := by
  unfold Handle.releaseStatementResults
  dsimp only
  split
  · show (h.session.resetHandle true).stmt.hasFields = _
    unfold Session.resetHandle Session.flushPending
    split_ifs <;> rfl
  · rfl

theorem Handle.hasFields_setUpResults (h : Handle Row) (i : Setup) :
    (h.setUpResults i).2.stmt.stmt.hasFields = h.stmt.stmt.hasFields := by
  unfold Handle.setUpResults
  split_ifs <;> rfl

namespace Labelled

variable {l : Labelled}

/-- The set-up of columns copies the client library's fields. -/
theorem Consistent.setUpResults (h : Consistent l)
    (hresult : l.value.handle.stmt.hasResult = false) (i : Setup) (allocated : ℕ) :
    Consistent (l.setUpResults i allocated).2 := by
  have hnew : ∀ {l'}, (l.setUpResults i allocated).2 = l' →
      l'.value.handle.stmt.hasResult = (l.value.handle.stmt.stmt.hasFields && i.succeeds) := by
    rintro _ rfl
    rw [← congrArg (fun r => r.2.handle.stmt.hasResult) (l.setUpResults_value i allocated)]
    exact Handle.hasResult_setUpResults hresult i
  unfold Labelled.setUpResults at hnew ⊢
  dsimp only at hnew ⊢
  by_cases hok : (l.value.handle.stmt.stmt.hasFields && i.succeeds) = true
  · have hparts : l.value.handle.stmt.stmt.hasFields = true ∧ i.metadata = true ∧
        i.buffers = true ∧ i.bind = true := by
      simpa [Setup.succeeds, and_assoc] using hok
    obtain ⟨hfields, hmetadata, hbuffers, hbind⟩ := hparts
    have hskip : ¬(!l.value.handle.stmt.stmt.hasFields || !i.metadata) = true := by
      rw [hfields, hmetadata]
      decide
    rw [if_neg hskip]
    have hcopied : l.copied i allocated = l.fields := if_pos hbuffers
    refine ⟨h.names, h.types, fun _ => ?_⟩
    dsimp only
    rw [hcopied]
    refine ⟨h.names, h.types, ?_⟩
    show _ = (l.value.cols.setUp _ i (l.fields.map Field.length) allocated).columns.length
    unfold Columns.setUp Columns.register Columns.configure
    simp [hfields, hmetadata, hbuffers, hbind]
  · have hno : (l.value.handle.stmt.stmt.hasFields && i.succeeds) = false :=
      Bool.eq_false_iff.mpr hok
    split_ifs at hnew ⊢ <;> exact h.of_no_result rfl rfl ((hnew rfl).trans hno)

/-- The execution of a statement brings the client library's fields up to date. -/
theorem Consistent.stmtExecute (h : Consistent l) (answers : List (Answer Row))
    {header : List Field}
    (hlength : l.value.handle.stmt.stmt.hasFields = true → header.length = l.fields.length) :
    Consistent (l.stmtExecute answers header).2 := by
  have hreport : Consistent (l.reinitResultSetMetadata header) := by
    apply h.report
    intro header' heq
    split at heq
    · next hfields =>
      cases heq
      exact hlength hfields
    · cases heq
  unfold Labelled.stmtExecute
  dsimp only
  split
  · have hvalue : (l.reinitResultSetMetadata header).value = l.value := l.value_report _
    exact hreport.withValue (fun hresult => by rw [hvalue]; exact hresult)
      (by rw [hvalue]; rfl)
  · exact h.withValue (fun hresult => hresult) rfl

theorem Consistent.executionDone (h : Consistent l) (i : Setup) (allocated : ℕ) :
    Consistent (l.executionDone i allocated).2 := by
  have hmarked : Consistent l.markExecuted := h.withValue (fun hresult => hresult) rfl
  unfold Labelled.executionDone
  split
  · next hnew =>
    rw [Bool.and_eq_true, Bool.not_eq_true'] at hnew
    exact hmarked.setUpResults hnew.1 i allocated
  · exact hmarked

/-- The set-up in front of the execution leaves the client library's part alone. -/
theorem setUpResults_fields (l : Labelled) (i : Setup) (allocated : ℕ) :
    (l.setUpResults i allocated).2.fields = l.fields ∧
      (l.setUpResults i allocated).2.value.handle.stmt.stmt.hasFields
        = l.value.handle.stmt.stmt.hasFields := by
  constructor
  · unfold Labelled.setUpResults
    dsimp only
    split <;> rfl
  · rw [← congrArg (fun r => r.2.handle.stmt.stmt.hasFields) (l.setUpResults_value i allocated)]
    exact Handle.hasFields_setUpResults l.value.handle i

theorem Consistent.executeStatement (h : Consistent l) (i : StepInput Row)
    {m : MetadataInput}
    (hlength : l.value.handle.stmt.stmt.hasFields = true → m.header.length = l.fields.length) :
    Consistent (l.executeStatement i m).2 := by
  unfold Labelled.executeStatement
  split
  · exact h.withValue (fun hresult => hresult) rfl
  · have hreleased : Consistent l.releaseStatementResults := h.of_no_result rfl rfl rfl
    have hsetup := hreleased.setUpResults rfl i.setup m.allocated
    obtain ⟨hfields, hhas⟩ := l.releaseStatementResults.setUpResults_fields i.setup m.allocated
    generalize l.releaseStatementResults.setUpResults i.setup m.allocated = p
      at hsetup hfields hhas ⊢
    obtain ⟨r, l₁⟩ := p
    cases r with
    | some result => exact hsetup
    | none =>
      have hcount : l₁.value.handle.stmt.stmt.hasFields = true →
          m.header.length = l₁.fields.length := by
        intro hknown
        rw [hfields]
        apply hlength
        rw [← l.value.handle.hasFields_releaseStatementResults]
        exact hhas.symm.trans hknown
      have hexecuted : Consistent (l₁.stmtExecute i.answers m.header).2 :=
        hsetup.stmtExecute i.answers hcount
      dsimp only
      generalize l₁.stmtExecute i.answers m.header = q at hexecuted ⊢
      obtain ⟨ok, l₂⟩ := q
      cases ok with
      | false => exact hexecuted
      | true => exact Consistent.executionDone hexecuted i.setupAfter m.allocated

/-- **Step lemma.** -/
theorem Consistent.step (h : Consistent l) (i : StepInput Row) {m : MetadataInput}
    (hlength : l.value.handle.stmt.executed = false →
      l.value.handle.stmt.stmt.hasFields = true → m.header.length = l.fields.length) :
    Consistent (l.step i m).2 := by
  have hbegin : Consistent
      (if l.value.handle.stmt.executed then (none, l) else l.executeStatement i m).2 := by
    split
    · exact h
    · next hnew => exact h.executeStatement i (hlength (Bool.eq_false_iff.mpr hnew))
  unfold Labelled.step
  generalize (if l.value.handle.stmt.executed then (none, l) else l.executeStatement i m) = p
    at hbegin ⊢
  obtain ⟨r, l₁⟩ := p
  cases r with
  | some result => exact hbegin
  | none =>
    dsimp only at hbegin ⊢
    split
    · next hresult =>
      have hvalue := l₁.value_reportAll (l₁.fetchHeaders i m)
      refine (hbegin.reportAll (l₁.fetchHeaders i m)).withValue (fun _ => ?_) ?_
      · rw [hvalue]
        exact hresult
      · rw [hvalue]
        exact l₁.value.columnCount_fetchStatementRow i _
    · exact hbegin

theorem Consistent.reset (h : Consistent l) (answer : Answer Row)
    (further : List (List Field)) : Consistent (l.reset answer further).2 := by
  refine (h.reportAll _).of_no_result rfl rfl ?_
  exact (l.value.handle.reset_flags answer).1

end Labelled

/-! ### Runs -/

/-- The calls on one statement, with the connection they find.  Binding a parameter changes nothing
    here but what the server then answers. -/
inductive MetadataCall
  | step (conn : Connection Row) (i : StepInput Row) (m : MetadataInput)
  | reset (conn : Connection Row) (answer : Answer Row) (further : List (List Field))

/-- A statement, and the row its last call returned. -/
structure Described where
  handle : Labelled
  live : Option Row := none

namespace Described

/-- A call, with the observer's note. -/
def call (d : Described) : MetadataCall → Described
  | .step conn i m =>
    match (d.handle.onConnection conn).step i m with
    | (result, l) => ⟨l, result.liveRow⟩
  | .reset conn answer further => ⟨((d.handle.onConnection conn).reset answer further).2, none⟩

/-- The server reports as many columns for an execution as are known. -/
def SameCount (d : Described) : MetadataCall → Prop
  | .step _ _ m => d.handle.value.handle.stmt.executed = false →
    d.handle.value.handle.stmt.stmt.hasFields = true → m.header.length = d.handle.fields.length
  | .reset _ _ _ => True

/-- The calls on a statement whose number of columns does not change. -/
def Calls : Described → List MetadataCall → Described → Prop :=
  Run (Restrict SameCount (ofFun call))

/-- The invariant of a run. -/
structure Good (d : Described) : Prop where
  faithful : Watched.Faithful ⟨d.handle.value, d.live⟩
  consistent : d.handle.Consistent

theorem Good.call {d : Described} (h : Good d) {c : MetadataCall} (hcount : d.SameCount c) :
    Good (d.call c) := by
  have hconn : ∀ conn, (d.handle.onConnection conn).Consistent :=
    fun conn => h.consistent.withValue (fun hresult => hresult) rfl
  cases c with
  | step conn i m =>
    obtain ⟨j, hj⟩ := (d.handle.onConnection conn).step_value i m
    have hfaithful := h.faithful.call (.step conn i j)
    have hwatched : Watched.call ⟨d.handle.value, d.live⟩ (.step conn i j)
        = ⟨(d.call (.step conn i m)).handle.value, (d.call (.step conn i m)).live⟩ := by
      change (d.handle.value.onConnection conn).step i j = _ at hj
      show (match (d.handle.value.onConnection conn).step i j with
        | (result, h) => (⟨h, result.liveRow⟩ : Watched)) = _
      rw [hj]
      rfl
    exact ⟨hwatched ▸ hfaithful, (hconn conn).step i hcount⟩
  | reset conn answer further =>
    exact ⟨h.faithful.call (.reset conn answer), (hconn conn).reset answer further⟩

theorem good_prepared (conn : Connection Row) (stmt : Stmt) (header : List Field) :
    Good ⟨.prepared conn stmt header, none⟩ :=
  ⟨Watched.faithful_start conn stmt, rfl, rfl, nofun⟩

end Described

theorem isNull_of_terminated {memory : ℕ → Text} {c : ResultColumn} {value : Option Text}
    (h : Terminated memory c value) : c.isNull = value.isNone := by
  cases value with
  | none => exact h
  | some value => exact h.1

/-- When the columns were set up, the server had last given a whole description with the names of
    the result set, and its last report had the types of the values. -/
def Labelled.Foretold (l : Labelled) (row : Row) : Prop :=
  ∀ column < l.value.columnCount, ∃ field, (lastFields l.reports)[column]? = some field ∧
    (wholeFields l.known)[column]?.map Field.name = some field.name ∧
    (row column ≠ none → (lastFields l.known)[column]?.map Field.valueType = some field.valueType)

/-- **Descriptions of a result set.**  Whenever a step has returned a row, the names and types of
    the columns are those of the result set exactly if they were foretold. -/
theorem describes_iff {conn : Connection Row} {stmt : Stmt} {header : List Field}
    {calls : List MetadataCall} {d : Described}
    (hrun : Described.Calls ⟨.prepared conn stmt header, none⟩ calls d) {row : Row}
    (hlive : d.live = some row) :
    d.handle.Describes row ↔ d.handle.Foretold row := by
  have hgood : Described.Good d :=
    hrun.invariant Described.Good (Described.good_prepared conn stmt header)
      fun {d c d'} hd hstep => hstep.2 ▸ hd.call hstep.1
  obtain ⟨hrow, hshows⟩ := hgood.faithful.shows row hlive
  obtain ⟨hnames, htypes, hlength⟩ :=
    hgood.consistent.copied (hgood.faithful.ready.executed hrow).2
  unfold Labelled.Describes Labelled.Foretold
  refine forall_congr' fun column => forall_congr' fun hcolumn => exists_congr fun field =>
    and_congr_right fun _ => ?_
  have hc := List.getElem?_eq_getElem hcolumn
  have hnull := isNull_of_terminated (hshows column _ hc)
  have hf := List.getElem?_eq_getElem (hlength.symm ▸ hcolumn : column < d.handle.labels.length)
  have hname : (wholeFields d.handle.known)[column]?.map Field.name =
      d.handle.columnName column := by
    rw [← List.getElem?_map, ← hnames, List.getElem?_map]
    rfl
  have htype : (lastFields d.handle.known)[column]?.map Field.valueType
      = some (d.handle.labels[column].valueType) := by
    rw [← List.getElem?_map, ← htypes, List.getElem?_map, hf]
    rfl
  have hcolumnType : d.handle.columnType column
      = columnType (row column).isNone d.handle.labels[column] := by
    unfold Labelled.columnType
    rw [hc, hf, ← hnull]
  rw [hname, htype, hcolumnType, Option.some.injEq]
  refine and_congr_right fun _ => ?_
  cases row column with
  | none => exact ⟨fun _ hvalue => absurd rfl hvalue, fun _ => rfl⟩
  | some value => exact ⟨fun heq _ => heq, fun heq => heq nofun⟩

/-- A `SELECT` of one column, described as `before` at `mysql_stmt_prepare` and as `header` at its
    execution, behind the step that returns the row `5`. -/
def selectedOne (before header : Field) : Described :=
  Described.call ⟨.prepared {} { state := .prepareDone, hasFields := true } [before], none⟩
    (.step {} { answers := [.rows [fun _ => some (ascii "5")] false] } { header := [header] })

theorem calls_selectedOne (before header : Field) :
    Described.Calls ⟨.prepared {} { state := .prepareDone, hasFields := true } [before], none⟩
      [.step {} { answers := [.rows [fun _ => some (ascii "5")] false] } { header := [header] }]
      (selectedOne before header) :=
  .cons ⟨fun _ _ => rfl, rfl⟩ (.nil _)

/-- A column of a table. -/
theorem describes_of_tableColumn :
    (selectedOne { name := ascii "a", type := .longlong }
      { name := ascii "a", type := .longlong }).handle.Describes fun _ => some (ascii "5") := by
  refine (describes_iff (calls_selectedOne _ _) rfl).mpr fun column hcolumn => ?_
  obtain rfl : column = 0 := Nat.lt_one_iff.mp hcolumn
  exact ⟨_, rfl, rfl, fun _ => rfl⟩

/-- `SELECT ?` with an integer: the type of the placeholder is not known before the execution, and
    the column is said to be a text. -/
theorem not_describes_placeholder :
    ∃ calls d row, Described.Calls
        ⟨.prepared {} { state := .prepareDone, hasFields := true } [{ name := ascii "?" }], none⟩
        calls d ∧
      d.live = some row ∧ ¬d.handle.Describes row := by
  refine ⟨_, selectedOne { name := ascii "?" } { name := ascii "?", type := .longlong },
    fun _ => some (ascii "5"), calls_selectedOne _ _, rfl, fun hdescribes => ?_⟩
  obtain ⟨field, hfield, -, htype⟩ := hdescribes 0 (by decide)
  obtain rfl := Option.some.inj hfield
  revert htype
  decide

end MyLite.Prepared

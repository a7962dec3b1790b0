import MyLite.Prepared.Metadata
import MyLite.Prepared.Pending

namespace MyLite.Prepared

open MyLite.Client MyLite.Lib MyLite.Sql

/-!
# The rows of an execution, with their columns

What `Pending` says about a statement holds of a statement with its columns and their descriptions,
since a step of the one is a step of the other.  Behind a step that has executed the statement
there are as many columns as the server has reported.

* `Labelled.delivers_step_new`, `Labelled.delivers_step_pending` — the row a step returns.
* `Labelled.columnCount_step_new`, `Labelled.columnCount_step_pending` — the columns it has then.
* `Labelled.labels_step_new`, `Labelled.noColumns_step_new` — the columns of a result set, with or
  without a row.
-/

variable {s s' : Session Row}

/-- A set-up that goes on over a statement with fields has succeeded. -/
theorem Handle.succeeds_of_setUpResults {h h' : Handle Row} {i : Setup}
    (hsetup : h.setUpResults i = (none, h')) (hfields : h.stmt.stmt.hasFields = true) :
    i.succeeds = true := by
  rcases setUpResults_cases h i with ⟨result, g, heq, -⟩ | ⟨g, heq, -⟩
  · cases heq.symm.trans hsetup
  · unfold Handle.setUpResults at heq
    rw [hfields] at heq
    unfold Setup.succeeds
    split_ifs at heq <;> simp_all

/-- A statement that did not know its fields and knows them behind an execution has got them with a
    result set. -/
theorem opensResult_of_hasFields {answers : List (Answer Row)}
    (hexecute : s.stmtExecute answers = (true, s')) (hnew : s.stmt.hasFields = false)
    (hfields : s'.stmt.hasFields = true) : opensResult s answers = true := by
  unfold Session.stmtExecute at hexecute
  unfold opensResult
  rcases hanswer : (s.resetHandle true).embStmtExecute answers with ⟨ok, c⟩
  simp only [hanswer] at hexecute ⊢
  cases ok with
  | false => cases hexecute
  | true =>
    obtain rfl := (Prod.mk.inj hexecute).2
    change ((s.resetHandle true).stmt.hasFields || c.hasFields) = true at hfields
    rwa [hasFields_resetHandle, hnew, Bool.false_or] at hfields

namespace Labelled

variable {l l' : Labelled} {i : StepInput Row} {m : MetadataInput}

/-! ### Rows -/

variable {rest : List Row}

/-- Without columns and descriptions, a step is a step of the statement for some outcome of the
    reading of truncated columns. -/
theorem step_handle (l : Labelled) (i : StepInput Row) (m : MetadataInput) :
    ∃ t f c, l.value.handle.step (ValueHandle.withColumns i t f c)
      = ((l.step i m).1, (l.step i m).2.value.handle) := by
  obtain ⟨j, hvalue⟩ := l.step_value i m
  obtain ⟨t, f, c, hhandle⟩ := l.value.step_handle i j
  refine ⟨t, f, c, ?_⟩
  rw [hhandle, hvalue]

theorem delivers_step_new (hnew : l.value.handle.stmt.executed = false)
    (i : StepInput Row) (m : MetadataInput) :
    Delivers (firstRows i.answers) ((l.step i m).1, (l.step i m).2.value.handle) := by
  obtain ⟨t, f, c, hstep⟩ := l.step_handle i m
  rw [← hstep]
  exact delivers_step_of_not_executed hnew (ValueHandle.withColumns i t f c)

theorem delivers_step_pending (hp : Pending l.value.handle rest) (i : StepInput Row)
    (m : MetadataInput) : Delivers rest ((l.step i m).1, (l.step i m).2.value.handle) := by
  obtain ⟨t, f, c, hstep⟩ := l.step_handle i m
  rw [← hstep]
  exact delivers_step hp (ValueHandle.withColumns i t f c)

/-! ### The number of columns -/

variable {allocated : ℕ}

/-- What a set-up leaves where `mylite_step` goes on. -/
theorem setUpResults_none {i : Setup} (hsetup : l.setUpResults i allocated = (none, l')) :
    l'.fields = l.fields
      ∧ l'.value.handle.stmt.stmt.hasFields = l.value.handle.stmt.stmt.hasFields
      ∧ l'.value.handle.stmt.hasResult = l.value.handle.stmt.stmt.hasFields
      ∧ (l.value.handle.stmt.stmt.hasFields = true →
        l'.value.columnCount = l.fields.length) := by
  obtain ⟨hfields, hhas⟩ := l.setUpResults_fields i allocated
  rw [hsetup] at hfields hhas
  have hvalue := l.setUpResults_value i allocated
  rw [hsetup] at hvalue
  have hhandle : l.value.handle.setUpResults i = (none, l'.value.handle) :=
    congrArg (fun r => (r.1, r.2.handle)) hvalue
  refine ⟨hfields, hhas, ?_, fun hknown => ?_⟩
  · rcases setUpResults_cases l.value.handle i with ⟨result, g, heq, -⟩ | ⟨g, heq, -, -, -, hresult⟩
    · cases heq.symm.trans hhandle
    · obtain rfl : g = l'.value.handle := (Prod.mk.inj (heq.symm.trans hhandle)).2
      exact hresult
  · have hok := Handle.succeeds_of_setUpResults hhandle hknown
    obtain ⟨⟨hmetadata, hbuffers⟩, hbind⟩ : (i.metadata = true ∧ i.buffers = true) ∧
        i.bind = true := by
      simpa [Setup.succeeds] using hok
    have hcols : l'.value.cols = ((l.value.cols.configure
        (l.fields.map Field.length)).register) := by
      have hcols := congrArg (fun r => r.2.cols) hvalue
      refine hcols.symm.trans ?_
      show l.value.cols.setUp _ i _ allocated = _
      unfold Columns.setUp
      simp [hknown, hmetadata, hbuffers, hbind]
    show l'.value.cols.columns.length = _
    rw [hcols]
    simp [Columns.register, Columns.configure]

/-- An execution that goes on has set the columns up, has succeeded, and has then set up those that
    were not known before. -/
theorem executeStatement_none (hexecute : l.executeStatement i m = (none, l')) :
    ∃ l₁ s, l.releaseStatementResults.setUpResults i.setup m.allocated = (none, l₁) ∧
      l₁.value.handle.session.stmtExecute i.answers = (true, s) ∧
      Labelled.executionDone
        { (if opensResult l₁.value.handle.session i.answers then
            l₁.reinitResultSetMetadata m.header else l₁) with value := l₁.value.withSession s }
        i.setupAfter m.allocated = (none, l') := by
  unfold executeStatement at hexecute
  split at hexecute
  · cases hexecute
  · rcases hsetup : l.releaseStatementResults.setUpResults i.setup m.allocated with ⟨r, l₁⟩
    rw [hsetup] at hexecute
    cases r with
    | some result => cases hexecute
    | none =>
      dsimp only at hexecute
      rcases hsession : l₁.value.handle.session.stmtExecute i.answers with ⟨ok, s⟩
      unfold stmtExecute at hexecute
      rw [hsession] at hexecute
      cases ok with
      | false => cases hexecute
      | true => exact ⟨l₁, s, rfl, hsession, hexecute⟩

/-- What the set-up in front of an execution leaves. -/
theorem setUpResults_release_none {i : Setup}
    (hsetup : l.releaseStatementResults.setUpResults i allocated = (none, l')) :
    l'.value.handle.stmt.stmt.hasFields = l.value.handle.stmt.stmt.hasFields
      ∧ l'.value.handle.stmt.hasResult = l.value.handle.stmt.stmt.hasFields
      ∧ (l.value.handle.stmt.stmt.hasFields = true →
        l'.value.columnCount = l.fields.length) := by
  obtain ⟨-, hhas, hresult, hcount⟩ := setUpResults_none hsetup
  rw [show l.releaseStatementResults.value.handle.stmt.stmt.hasFields
    = l.value.handle.stmt.stmt.hasFields from l.value.handle.hasFields_releaseStatementResults]
    at hhas hresult hcount
  exact ⟨hhas, hresult, hcount⟩

/-- An execution does not end a step without a failure. -/
theorem executeStatement_some (hnew : l.value.handle.stmt.executed = false)
    {result : StepResult Row} (hexecute : l.executeStatement i m = (some result, l')) :
    result.IsFailure := by
  obtain ⟨fieldsAfter, hvalue⟩ := l.executeStatement_value i m
  rw [hexecute] at hvalue
  have hhandle := l.value.executeStatement_handle i
    ⟨l.fields.map Field.length, fieldsAfter, m.allocated, m.fetchColumn⟩
  rw [hvalue] at hhandle
  rcases Handle.executeStatement_outcome hnew i with ⟨result', h', heq, hfail⟩ | ⟨h', heq, -⟩
  · obtain rfl : result' = result := Option.some.inj (Prod.mk.inj (heq.symm.trans hhandle)).1
    exact hfail
  · cases heq.symm.trans hhandle

/-- A step that executes the statement and does not fail goes on behind the execution. -/
theorem step_new (hnew : l.value.handle.stmt.executed = false)
    (hok : ¬(l.step i m).1.IsFailure) :
    ∃ l₁, l.executeStatement i m = (none, l₁) ∧
      l.step i m =
        if l₁.value.handle.stmt.hasResult then l₁.fetchStatementRow i m else (.done, l₁) := by
  unfold step at hok ⊢
  rw [if_neg (by rw [hnew]; decide)] at hok ⊢
  rcases hexecute : l.executeStatement i m with ⟨r, l₁⟩
  rw [hexecute] at hok
  cases r with
  | some result => exact absurd (executeStatement_some hnew hexecute) hok
  | none => exact ⟨l₁, rfl, rfl⟩

/-- **A step while rows wait** keeps the columns. -/
theorem columnCount_step_pending (hp : Pending l.value.handle rest) :
    (l.step i m).2.value.columnCount = l.value.columnCount := by
  unfold step
  rw [if_pos hp.executed]
  dsimp only
  rw [if_pos hp.hasResult]
  exact l.value.columnCount_fetchStatementRow i _

/-! ### The names of the columns -/

/-- Result sets that are read away do not touch the columns. -/
theorem labels_reportAll (l : Labelled) (headers : List (List Field)) :
    (l.reportAll headers).labels = l.labels := by
  induction headers generalizing l with
  | nil => rfl
  | cons header headers ih => exact ih (l.report (.whole header))

/-- A set-up over known fields copies them to the columns. -/
theorem labels_setUpResults {i : Setup} (hknown : l.value.handle.stmt.stmt.hasFields = true)
    (hsetup : l.setUpResults i allocated = (none, l')) : l'.labels = l.fields := by
  have hvalue := l.setUpResults_value i allocated
  rw [hsetup] at hvalue
  have hok := Handle.succeeds_of_setUpResults
    (congrArg (fun r => (r.1, r.2.handle)) hvalue : l.value.handle.setUpResults i = _) hknown
  obtain ⟨⟨hmetadata, hbuffers⟩, -⟩ : (i.metadata = true ∧ i.buffers = true) ∧ i.bind = true := by
    simpa [Setup.succeeds] using hok
  unfold setUpResults at hsetup
  dsimp only at hsetup
  rw [if_neg (by rw [hknown, hmetadata]; decide)] at hsetup
  obtain rfl := (Prod.mk.inj hsetup).2
  show l.copied i allocated = l.fields
  rw [copied, if_pos hbuffers]

/-- An execution of a statement with known fields leaves its columns set up from them. -/
theorem labels_executeStatement_known (hknown : l.value.handle.stmt.stmt.hasFields = true)
    (hexecute : l.executeStatement i m = (none, l')) :
    l'.labels = l.fields ∧ l'.value.columnCount = l.fields.length ∧
      l'.value.handle.stmt.hasResult = true := by
  obtain ⟨l₁, s, hsetup, -, hdone⟩ := executeStatement_none hexecute
  obtain ⟨-, hresult₁, hcount₁⟩ := setUpResults_release_none hsetup
  have hlabels : l₁.labels = l.releaseStatementResults.fields :=
    labels_setUpResults (l.value.handle.hasFields_releaseStatementResults.trans hknown) hsetup
  have hold : (l₁.value.withSession s).handle.stmt.hasResult = true := hresult₁.trans hknown
  unfold executionDone at hdone
  rw [if_neg (by dsimp only; rw [hold]; simp)] at hdone
  obtain rfl := (Prod.mk.inj hdone).2
  refine ⟨?_, hcount₁ hknown, hold⟩
  refine Eq.trans ?_ hlabels
  show Labelled.labels (if _ then _ else _) = _
  split_ifs
  · unfold reinitResultSetMetadata report
    split_ifs <;> rfl
  · rfl

/-- An execution of a statement of which nothing was known leaves its columns set up from the
    fields that come with its result set, if it has one. -/
theorem labels_executeStatement_late (hnew : l.value.handle.stmt.stmt.hasFields = false)
    (hexecute : l.executeStatement i m = (none, l')) :
    ∃ s s' : Session Row, s.stmtExecute i.answers = (true, s') ∧
      l'.value.handle.stmt.hasResult = s'.stmt.hasFields ∧ (s'.stmt.hasFields = true →
        l'.labels = m.header ∧ l'.value.columnCount = m.header.length) := by
  obtain ⟨l₁, s, hsetup, hsession, hdone⟩ := executeStatement_none hexecute
  obtain ⟨hhas₁, hresult₁, -⟩ := setUpResults_release_none hsetup
  have hunknown : l₁.value.handle.stmt.stmt.hasFields = false := hhas₁.trans hnew
  have hnone : (l₁.value.withSession s).handle.stmt.hasResult = false := hresult₁.trans hnew
  refine ⟨_, s, hsession, ?_⟩
  unfold executionDone at hdone
  cases hhas : s.stmt.hasFields with
  | false =>
    have hno : (l₁.value.withSession s).handle.stmt.stmt.hasFields = false := hhas
    rw [if_neg (by dsimp only; rw [hno]; simp)] at hdone
    obtain rfl := (Prod.mk.inj hdone).2
    exact ⟨hnone, nofun⟩
  | true =>
    have hhas' : (l₁.value.withSession s).handle.stmt.stmt.hasFields = true := hhas
    rw [if_pos (opensResult_of_hasFields hsession hunknown hhas),
      if_pos (by dsimp only; rw [hnone, hhas']; rfl)] at hdone
    have hfields : (l₁.reinitResultSetMetadata m.header).fields = m.header := by
      unfold reinitResultSetMetadata
      rw [hunknown]
      rfl
    obtain ⟨-, -, hresult, hcount⟩ := setUpResults_none hdone
    exact ⟨hresult.trans hhas', fun _ => ⟨(labels_setUpResults hhas' hdone).trans hfields,
      (hcount hhas').trans (congrArg List.length hfields)⟩⟩

/-- **A step that executes the statement** and returns a row leaves as many columns as the server
    has reported. -/
theorem columnCount_step_new (hnew : l.value.handle.stmt.executed = false)
    (hcount : l.value.handle.stmt.stmt.hasFields = true → m.header.length = l.fields.length)
    {row : Row} (hrow : (l.step i m).1 = .row row) :
    (l.step i m).2.value.columnCount = m.header.length := by
  obtain ⟨l₁, hexecute, hstep⟩ := step_new hnew (by rw [hrow]; exact id)
  rw [hstep] at hrow ⊢
  split at hrow
  · next hresult =>
    rw [if_pos hresult]
    refine (l₁.value.columnCount_fetchStatementRow i _).trans ?_
    cases hknown : l.value.handle.stmt.stmt.hasFields with
    | true =>
      rw [hcount hknown]
      exact (labels_executeStatement_known hknown hexecute).2.1
    | false =>
      obtain ⟨s, s', -, hsame, hlate⟩ := labels_executeStatement_late hknown hexecute
      exact (hlate (hsame.symm.trans hresult)).2
  · cases hrow

/-- The server describes the result set of an execution by `header`, when the statement is prepared
    or with the result set itself. -/
def Announces (l : Labelled) (i : StepInput Row) (m : MetadataInput) (header : List Field) : Prop :=
  if l.value.handle.stmt.stmt.hasFields then l.fields = header
  else m.header = header ∧ ∃ rows failed rest, i.answers = .rows rows failed :: rest

/-- **A step that executes a statement** leaves a column for each field of its result set. -/
theorem labels_step_new (hnew : l.value.handle.stmt.executed = false) {header : List Field}
    (hannounces : l.Announces i m header) (hok : ¬(l.step i m).1.IsFailure) :
    (l.step i m).2.labels = header ∧ (l.step i m).2.value.columnCount = header.length := by
  obtain ⟨l₁, hexecute, hstep⟩ := step_new hnew hok
  have hdescribed : l₁.labels = header ∧ l₁.value.columnCount = header.length ∧
      l₁.value.handle.stmt.hasResult = true := by
    unfold Announces at hannounces
    split_ifs at hannounces with hknown
    · rw [← hannounces]
      exact labels_executeStatement_known hknown hexecute
    · obtain ⟨rfl, rows, failed, rest, hanswers⟩ := hannounces
      obtain ⟨s, s', hsession, hsame, hlate⟩ :=
        labels_executeStatement_late (Bool.eq_false_iff.mpr hknown) hexecute
      rw [hanswers] at hsession
      rcases stmtExecute_ok hsession with ⟨_, heq, -⟩ | ⟨_, _, _, -, -, -, -, hfields⟩
      · cases heq
      · exact ⟨(hlate hfields).1, (hlate hfields).2, hsame.trans hfields⟩
  obtain ⟨hlabels, hcount, hresult⟩ := hdescribed
  rw [hstep, if_pos hresult]
  refine ⟨?_, (l₁.value.columnCount_fetchStatementRow i _).trans hcount⟩
  exact (labels_reportAll l₁ _).trans hlabels

/-- **A step that executes a statement without a result set** leaves no columns. -/
theorem noColumns_step_new (hnew : l.value.handle.stmt.executed = false)
    (hnone : l.value.handle.stmt.stmt.hasFields = false) {rest : List (Answer Row)}
    (hanswers : i.answers = .ok :: rest) (hok : ¬(l.step i m).1.IsFailure) :
    (l.step i m).1 = .done ∧ (l.step i m).2.value.cols.columns = [] ∧
      (l.step i m).2.value.handle.stmt.stmt.hasFields = false := by
  obtain ⟨l₁, hexecute, hstep⟩ := step_new hnew hok
  obtain ⟨l₂, s, hsetup, hsession, hdone⟩ := executeStatement_none hexecute
  obtain ⟨hhas₂, hresult₂, -⟩ := setUpResults_release_none hsetup
  rw [hanswers] at hsession hdone
  have hno : s.stmt.hasFields = false := by
    rcases stmtExecute_ok hsession with ⟨_, -, -, hsame⟩ | ⟨_, _, _, heq, -⟩
    · exact hsame.trans (hhas₂.trans hnone)
    · cases heq
  have hno' : (l₂.value.withSession s).handle.stmt.stmt.hasFields = false := hno
  unfold executionDone at hdone
  rw [if_neg (by dsimp only; rw [hno']; simp)] at hdone
  have hresult : (l₂.value.withSession s).handle.stmt.hasResult = false := hresult₂.trans hnone
  have hcols : l₂.value.cols.columns = [] := by
    have hhas : l.releaseStatementResults.value.handle.stmt.stmt.hasFields = false :=
      l.value.handle.hasFields_releaseStatementResults.trans hnone
    have hvalue := congrArg (fun r => r.2.cols)
      (l.releaseStatementResults.setUpResults_value i.setup m.allocated)
    rw [hsetup] at hvalue
    have hsame : l.releaseStatementResults.value.cols = l₂.value.cols := by
      refine Eq.trans ?_ hvalue
      show _ = Columns.setUp _ _ _ _ _
      rw [Columns.setUp, hhas]
      rfl
    rw [← hsame]
    rfl
  obtain rfl := (Prod.mk.inj hdone).2
  rw [hstep, if_neg (by exact ne_true_of_eq_false hresult)]
  exact ⟨rfl, hcols, hno'⟩

/-- **A step while rows wait** keeps the names. -/
theorem labels_step_pending (hp : Pending l.value.handle rest) :
    (l.step i m).2.labels = l.labels := by
  unfold step
  rw [if_pos hp.executed]
  dsimp only
  rw [if_pos hp.hasResult]
  exact labels_reportAll l _

/-- A reset that succeeds leaves a statement that does not count as executed. -/
theorem executed_reset {answer : Answer Row} {further : List (List Field)}
    (hok : (l.reset answer further).1 = true) :
    (l.reset answer further).2.value.handle.stmt.executed = false := by
  have hleaves := (l.value.handle.reset_leaves answer).1
  have hsuccess : (l.value.handle.reset answer).1 = true := hok
  rw [hsuccess, Bool.not_true, Bool.and_false] at hleaves
  exact hleaves

end Labelled

end MyLite.Prepared

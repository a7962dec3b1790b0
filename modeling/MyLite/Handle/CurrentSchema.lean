import MyLite.Lib.Run
import MyLite.MariaDB.UseStatement
import MyLite.Policy.Groups

namespace MyLite.Handle

open MyLite.Lib MyLite.Sql MyLite.Policy MyLite.MariaDB

/-!
# The current schema of a handle

`db.current_schema` is the handle's own record of the session's database, which the gate reads.
It is kept by `update_current_schema_after_successful_sql`, from the tokens of a text that
`mylite_exec` ran; `mylite_step` does not keep it.  Against it stands the database of the
session itself, as the server changes it.

* `SchemaHandle.call` — a successful call, on both.
* `Tracked` — the calls the record follows.
* `names_of_run` — after any number of such calls the record names the session's database.
-/

/-- A handle, as far as the current database goes: the record, the server's session, and the
    prepared statements with the database they were prepared in. -/
structure SchemaHandle where
  currentSchema : Text
  sessionDb : Option Text
  prepared : List (Statement × Option Text)

/-- A handle as `mylite_open` returns it: the connection is made without a database. -/
def SchemaHandle.opened : SchemaHandle := ⟨[], none, []⟩

/-- The calls that consult the gate or run a statement.  `step i` is the call of `mylite_step`
    that executes the prepared statement number `i`. -/
inductive SchemaCall
  | exec (st : Statement)
  | prepare (st : Statement)
  | step (i : ℕ)

/-- The test of `update_current_schema_after_successful_sql`. -/
def readsAsUse (sql : Text) : Bool :=
  tokenEquals (identifierTokenAt (collectSqlPolicyTokens sql) 0) "USE" &&
    2 ≤ (collectSqlPolicyTokens sql).length

/-- `update_current_schema_after_successful_sql`. -/
def updateCurrentSchemaAfterSuccessfulSql (currentSchema sql : Text) : Text :=
  if readsAsUse sql then
    unquotedIdentifierToken (SqlPolicyTokens.value (collectSqlPolicyTokens sql) 1)
  else currentSchema

/-- What a call does when the server lets it succeed.  A text the gate rejects, and a `CALL` to
    be prepared, never reach the server. -/
def SchemaHandle.call (h : SchemaHandle) : SchemaCall → SchemaHandle
  | .exec st =>
    if rejects h.currentSchema st.sql then h
    else { h with
      currentSchema := updateCurrentSchemaAfterSuccessfulSql h.currentSchema st.sql
      sessionDb := st.execute h.sessionDb }
  | .prepare st =>
    if rejects h.currentSchema st.sql ||
        tokenEquals (identifierTokenAt (collectSqlPolicyTokens st.sql) 0) "CALL" then h
    else { h with prepared := h.prepared ++ [(st, h.sessionDb)] }
  | .step i =>
    match h.prepared[i]? with
    | none => h
    | some (st, stmtDb) => { h with sessionDb := st.executePrepared stmtDb h.sessionDb }

/-! ### Names the tokenizer reads as MariaDB does -/

/-- A spacing that MyLite skips as MariaDB does: no vertical tab, and no comment it enters. -/
def isPlainSpacing : Spacing → Bool
  | .blank b _ => isSqlSpace b
  | .hash .. | .dash .. => true
  | .block body _ _ => !([0x6D, byteBang].isPrefixOf body)
  | .executable => false

/-- A backslash that is not itself escaped ends the text. -/
def endsInEscape : Text → Bool
  | byteBackslash :: _ :: rest => endsInEscape rest
  | [c] => c == byteBackslash
  | _ :: c :: rest => endsInEscape (c :: rest)
  | [] => false

/-- A name of letters, digits and `_`, or ASCII text in backticks that holds no backtick and does
    not end in a backslash. -/
def isSimpleName : DatabaseName → Bool
  | .plain word _ _ => word.all isSqlIdentifierChar
  | .quoted name => name.all (fun b => b < 0x80 && b != byteBacktick) && !endsInEscape name

/-- A plain spacing is skipped. -/
theorem skipSqlSpacingAndComments_plain {sp : Spacing} (h : isPlainSpacing sp = true) (s : Text) :
    skipSqlSpacingAndComments (sp.text ++ s) = skipSqlSpacingAndComments s := by
  cases sp with
  | blank b _ => exact skipSqlSpacingAndComments_space h s
  | hash body oneLine =>
    have hline : byteNewline ∉ body := fun hb => (oneLine _ hb).1 rfl
    simpa [Spacing.text] using skipSqlSpacingAndComments_hash hline s
  | dash body oneLine =>
    have hline : byteNewline ∉ body := fun hb => (oneLine _ hb).1 rfl
    simpa [Spacing.text] using skipSqlSpacingAndComments_dash hline s
  | block body noEnd notExecutable =>
    have hm : ¬[0x6D, byteBang] <+: body := by
      intro hp
      simp [isPlainSpacing, List.isPrefixOf_iff_prefix.mpr hp] at h
    simpa [Spacing.text] using
      skipSqlSpacingAndComments_block noEnd notExecutable.1 notExecutable.2 hm s
  | executable => cases h

theorem sqlTokens_spacing {sps : List Spacing} (h : ∀ sp ∈ sps, isPlainSpacing sp = true)
    (s : Text) : sqlTokens (spacingText sps ++ s) = sqlTokens s := by
  refine sqlTokens_congr ?_
  induction sps with
  | nil => rfl
  | cons sp sps ih =>
    rw [spacingText, List.flatMap_cons, List.append_assoc,
      skipSqlSpacingAndComments_plain (h sp List.mem_cons_self)]
    exact ih fun sp' hsp => h sp' (List.mem_cons_of_mem _ hsp)

/-! ### The record follows a simple `USE` -/

variable {name : DatabaseName}

theorem quotedSqlTokenEnd_append {name : Text} (h : byteBacktick ∉ name)
    (hesc : endsInEscape name = false) (s : Text) :
    quotedSqlTokenEnd byteBacktick (name ++ byteBacktick :: s) = s := by
  fun_induction endsInEscape name with
  | case1 c rest ih =>
    refine (quotedSqlTokenEnd_backslash byteBacktick c _).trans ?_
    exact ih (fun hb => h (List.mem_cons_of_mem _ (List.mem_cons_of_mem _ hb))) hesc
  | case2 c =>
    rw [List.singleton_append, quotedSqlTokenEnd_cons (by simpa using hesc),
      if_neg fun hc : c = byteBacktick => h (hc ▸ List.mem_cons_self)]
    rfl
  | case3 a c rest hne ih =>
    rw [List.cons_append, quotedSqlTokenEnd_cons fun ha => hne ha,
      if_neg fun hc : a = byteBacktick => h (hc ▸ List.mem_cons_self)]
    exact ih (fun hb => h (List.mem_cons_of_mem _ hb)) hesc
  | case4 => rfl

theorem doubleBackticks_eq_self {name : Text} (h : byteBacktick ∉ name) :
    doubleBackticks name = name := by
  induction name with
  | nil => rfl
  | cons b name ih =>
    have hb : b ≠ byteBacktick := fun hb => h (hb ▸ List.mem_cons_self)
    rw [doubleBackticks, List.flatMap_cons, if_neg (by simpa using hb)]
    exact congrArg (b :: ·) (ih fun hc => h (List.mem_cons_of_mem _ hc))

/-- The spelling of a simple name is one token. -/
theorem sqlTokens_spelling {tail : Text} (h : isSimpleName name = true) (hends : name.EndsAt tail) :
    sqlTokens (name.spelling ++ tail) = name.spelling :: sqlTokens tail := by
  cases name with
  | plain word nonempty isWord =>
    have hw : ∀ b ∈ word, isSqlIdentifierChar b = true := List.all_eq_true.mp h
    refine sqlTokens_word nonempty hw fun b hb => ?_
    have := hends b hb
    rw [Bool.eq_false_iff] at this ⊢
    exact fun hc => this (isIdentByte_of_isSqlIdentifierChar hc)
  | quoted name =>
    simp only [isSimpleName, Bool.and_eq_true, List.all_eq_true, bne_iff_ne, ne_eq,
      Bool.not_eq_true'] at h
    obtain ⟨hname, hesc⟩ := h
    have hnone : byteBacktick ∉ name := fun hb => (hname _ hb).2 rfl
    rw [DatabaseName.spelling, doubleBackticks_eq_self hnone]
    refine sqlTokens_cons (by decide) ?_
    show quotedSqlTokenEnd byteBacktick (name ++ [byteBacktick] ++ tail) = tail
    rw [List.append_assoc]
    exact quotedSqlTokenEnd_append hnone hesc tail

theorem unquotedIdentifierToken_of_notMem {token : Text} (h : byteBacktick ∉ token) :
    unquotedIdentifierToken token = token := by
  refine unquotedIdentifierToken_of_head ?_
  intro hhead
  exact h (List.mem_of_mem_head? hhead)

theorem backtick_notMem_value (h : isSimpleName name = true) : byteBacktick ∉ name.value := by
  cases name with
  | plain word _ _ => exact fun hm => absurd (List.all_eq_true.mp h _ hm) (by decide)
  | quoted name =>
    simp only [isSimpleName, Bool.and_eq_true, List.all_eq_true, bne_iff_ne, ne_eq] at h
    exact fun hm => (h.1 _ hm).2 rfl

/-- Unquoting the spelling of a simple name gives the name. -/
theorem unquotedIdentifierToken_spelling (h : isSimpleName name = true) :
    unquotedIdentifierToken name.spelling = name.value := by
  have hnone := backtick_notMem_value h
  cases name with
  | plain word _ _ => exact unquotedIdentifierToken_of_notMem hnone
  | quoted name =>
    have hself : doubleBackticks name = name := doubleBackticks_eq_self hnone
    rw [DatabaseName.spelling, hself]
    exact unquotedIdentifierToken_quoted name

/-- A `USE` whose spacing and name are plain. -/
def IsSimpleUse (u : UseText) : Prop :=
  (∀ sp ∈ u.lead, isPlainSpacing sp = true) ∧ (∀ sp ∈ u.gap, isPlainSpacing sp = true) ∧
    isSimpleName u.name = true

/-- What follows the word `USE` does not go on with it. -/
theorem isSqlIdentifierChar_behind_word (u : UseText)
    (hgap : ∀ sp ∈ u.gap, isPlainSpacing sp = true) :
    ∀ b ∈ (spacingText u.gap ++ (u.name.spelling ++ u.tail)).head?,
      isSqlIdentifierChar b = false := by
  cases hg : u.gap with
  | nil =>
    obtain ⟨body, hname⟩ := u.separated hg
    rw [hname]
    rintro b ⟨⟩
    decide
  | cons sp gap =>
    have hplain := hgap sp (hg ▸ List.mem_cons_self)
    cases sp with
    | blank b _ =>
      rintro c ⟨⟩
      exact not_isSqlIdentifierChar_of_isSqlSpace b hplain
    | hash | dash | block | executable =>
      rintro c ⟨⟩
      decide

theorem sqlTokens_use {u : UseText} (h : IsSimpleUse u) :
    sqlTokens u.text = u.word :: u.name.spelling :: sqlTokens u.tail := by
  obtain ⟨hlead, hgap, hname⟩ := h
  have hne : u.word ≠ [] := by
    intro hw
    exact absurd u.isUse (by rw [hw]; decide)
  rw [UseText.text, sqlTokens_spacing hlead,
    sqlTokens_word hne (isSqlIdentifierChar_of_tokenEquals u.isUse (by decide))
      (isSqlIdentifierChar_behind_word u hgap),
    sqlTokens_spacing hgap, sqlTokens_spelling hname u.ends]

/-- The record takes over the name of a simple `USE`. -/
theorem updateCurrentSchema_use {u : UseText} (h : IsSimpleUse u) (currentSchema : Text) :
    updateCurrentSchemaAfterSuccessfulSql currentSchema u.text = u.name.value := by
  have htokens : collectSqlPolicyTokens u.text =
      u.word :: u.name.spelling :: (sqlTokens u.tail).take 30 := by
    rw [collectSqlPolicyTokens_eq_take, sqlTokens_use h]
    rfl
  have hword : tokenIn u.word ["USE"] = true := by rw [tokenIn_cons, u.isUse, Bool.true_or]
  have hfirst : isSqlIdentifierToken u.word = true :=
    isSqlIdentifierToken_of_tokenIn hword (by decide)
  have hreads : readsAsUse u.text = true := by
    rw [readsAsUse, htokens, identifierTokenAt_cons_zero hfirst, u.isUse]
    simp
  rw [updateCurrentSchemaAfterSuccessfulSql, if_pos hreads, htokens]
  exact unquotedIdentifierToken_spelling h.2.2

/-! ### Runs of calls -/

/-- The record names the session's database: the same name, no name where there is no database,
    and any spelling of `information_schema` for that one. -/
def Names (currentSchema : Text) : Option Text → Prop
  | none => currentSchema = []
  | some db => currentSchema = db ∨
      isInfoschemaDb currentSchema = true ∧ db = informationSchemaName

/-- The gate takes `information_schema` for the current schema exactly when it is. -/
def KnowsInformationSchema (h : SchemaHandle) : Prop :=
  identifierTokenEquals h.currentSchema "INFORMATION_SCHEMA" = true ↔
    h.sessionDb = some informationSchemaName

/-- The calls the record follows.  A `USE` goes through `mylite_exec`, with a simple name and
    plain spacing, and no other text of `mylite_exec` reads as a `USE`; the current database is
    not dropped; a prepared `USE` changes nothing, because the session is switched back or is
    there already; and no other statement changes the database. -/
def Tracked (h : SchemaHandle) : SchemaCall → Prop
  | .exec (.use u) => IsSimpleUse u
  | .exec (.dropDatabase sql name) => readsAsUse sql = false ∧ h.sessionDb ≠ some name
  | .exec (.other sql effect) =>
    readsAsUse sql = false ∧ effect h.sessionDb h.sessionDb = h.sessionDb
  | .prepare _ => True
  | .step i => ∀ st stmtDb, h.prepared[i]? = some (st, stmtDb) →
      match st with
      | .use u => stmtDb ≠ h.sessionDb ∨ h.sessionDb = some (changeDb u.name.value)
      | .dropDatabase _ name => h.sessionDb ≠ some name
      | .other _ effect => effect stmtDb h.sessionDb = h.sessionDb

/-- What the calls keep: the record is free of backticks, and either there is no database, or it
    is `information_schema` under some spelling, or it is another one under its own name. -/
def Synced (currentSchema : Text) : Option Text → Prop
  | none => currentSchema = []
  | some db => byteBacktick ∉ currentSchema ∧ db = changeDb currentSchema

theorem synced_use (h : isSimpleName name = true) :
    Synced name.value (some (changeDb name.value)) :=
  ⟨backtick_notMem_value h, rfl⟩

/-- A statement that the record need not follow leaves the session's database alone. -/
theorem executePrepared_eq {st : Statement} {stmtDb db : Option Text}
    (h : match st with
      | .use u => stmtDb ≠ db ∨ db = some (changeDb u.name.value)
      | .dropDatabase _ name => db ≠ some name
      | .other _ effect => effect stmtDb db = db) : st.executePrepared stmtDb db = db := by
  unfold Statement.executePrepared
  cases st with
  | use u =>
    rcases h with h | h
    · rw [if_neg h]
    · rw [Statement.execute, ← h, ite_self]
  | dropDatabase _ name =>
    have hdb : ¬db = some name := h
    simp only [Statement.execute, if_neg hdb, ite_self]
  | other _ effect =>
    split_ifs with hsame
    · rw [hsame] at h
      exact h
    · exact h

/-- **Step.** A tracked call keeps the record in step with the session. -/
theorem synced_call {h : SchemaHandle} {c : SchemaCall} (hs : Synced h.currentSchema h.sessionDb)
    (hc : Tracked h c) : Synced (h.call c).currentSchema (h.call c).sessionDb := by
  cases c with
  | exec st =>
    rw [SchemaHandle.call]
    split_ifs with hrej
    · exact hs
    · cases st with
      | use u =>
        show Synced (updateCurrentSchemaAfterSuccessfulSql h.currentSchema u.text)
          (some (changeDb u.name.value))
        rw [updateCurrentSchema_use hc]
        exact synced_use hc.2.2
      | dropDatabase sql name =>
        show Synced (updateCurrentSchemaAfterSuccessfulSql h.currentSchema sql)
          (if h.sessionDb = some name then none else h.sessionDb)
        rwa [updateCurrentSchemaAfterSuccessfulSql, hc.1, if_neg hc.2, if_neg Bool.false_ne_true]
      | other sql effect =>
        show Synced (updateCurrentSchemaAfterSuccessfulSql h.currentSchema sql)
          (effect h.sessionDb h.sessionDb)
        rwa [updateCurrentSchemaAfterSuccessfulSql, hc.1, hc.2, if_neg Bool.false_ne_true]
  | prepare st =>
    rw [SchemaHandle.call]
    split_ifs <;> exact hs
  | step i =>
    rw [SchemaHandle.call]
    cases hp : h.prepared[i]? with
    | none => exact hs
    | some p =>
      show Synced h.currentSchema (p.1.executePrepared p.2 h.sessionDb)
      rwa [executePrepared_eq (hc p.1 p.2 hp)]

theorem names_of_synced {currentSchema : Text} {db : Option Text} (h : Synced currentSchema db) :
    Names currentSchema db := by
  cases db with
  | none => exact h
  | some db =>
    obtain ⟨-, rfl⟩ := h
    by_cases hi : isInfoschemaDb currentSchema = true
    · exact .inr ⟨hi, by rw [changeDb, if_pos hi]⟩
    · exact .inl (by rw [changeDb, if_neg hi])

theorem knowsInformationSchema_of_synced {h : SchemaHandle}
    (hs : Synced h.currentSchema h.sessionDb) : KnowsInformationSchema h := by
  unfold KnowsInformationSchema
  cases hdb : h.sessionDb with
  | none =>
    rw [hdb] at hs
    have hempty : h.currentSchema = [] := hs
    rw [hempty]
    simp only [reduceCtorEq, iff_false]
    decide
  | some db =>
    rw [hdb] at hs
    obtain ⟨hnone, rfl⟩ := hs
    rw [identifierTokenEquals, unquotedIdentifierToken_of_notMem hnone, Option.some.injEq]
    show isInfoschemaDb h.currentSchema = true ↔ _
    by_cases hi : isInfoschemaDb h.currentSchema = true
    · simp [changeDb, hi]
    · rw [changeDb, if_neg hi]
      refine iff_of_false hi fun heq => hi ?_
      rw [heq]
      decide

/-- **Tracking.** After any number of calls that the record follows, it names the session's
    database, and the gate knows when that is `information_schema`. -/
theorem names_of_run (calls : List SchemaCall) (h : SchemaHandle)
    (hrun : Run (Restrict Tracked (ofFun SchemaHandle.call)) SchemaHandle.opened calls h) :
    Names h.currentSchema h.sessionDb ∧ KnowsInformationSchema h := by
  have hsynced : Synced h.currentSchema h.sessionDb := by
    have hopened : Synced SchemaHandle.opened.currentSchema SchemaHandle.opened.sessionDb := rfl
    refine hrun.invariant (fun h => Synced h.currentSchema h.sessionDb) hopened ?_
    rintro s c s' hs ⟨hc, rfl⟩
    exact synced_call hs hc
  exact ⟨names_of_synced hsynced, knowsInformationSchema_of_synced hsynced⟩

/-- `USE` with one space and a name in backticks. -/
def useQuoted (name : Text) : UseText where
  lead := []
  word := ascii "USE"
  isUse := by decide
  gap := [.blank byteSpace (by decide)]
  name := .quoted name
  separated := fun h => by cases h
  tail := []
  ends := by simp [DatabaseName.EndsAt]

theorem names_after_use :
    Names (SchemaHandle.opened.call (.exec (.use (useQuoted (ascii "my app"))))).currentSchema
      (some (ascii "my app")) := by
  have hsimple : IsSimpleUse (useQuoted (ascii "my app")) := by
    refine ⟨by simp [useQuoted], ?_, by decide⟩
    intro sp hsp
    rw [List.mem_singleton.mp hsp]
    decide
  have haccepts : rejects SchemaHandle.opened.currentSchema
      (Statement.use (useQuoted (ascii "my app"))).sql = false := by
    decide
  have hdb : (SchemaHandle.opened.call (.exec (.use (useQuoted (ascii "my app"))))).sessionDb
      = some (ascii "my app") := by
    rw [SchemaHandle.call, haccepts]
    decide
  have hnames := (names_of_run [.exec (.use (useQuoted (ascii "my app")))] _
    (.cons ⟨hsimple, rfl⟩ (.nil _))).1
  rwa [hdb] at hnames

/-- A `USE information_schema` that is prepared and stepped moves the session and leaves the
    record behind: the gate then lets a table of `information_schema` through that it rejects
    when the same `USE` is executed directly. -/
theorem not_names_after_preparedUse :
    let use : Statement := .use (useQuoted informationSchemaName)
    let h := (SchemaHandle.opened.call (.prepare use)).call (.step 0)
    let direct := SchemaHandle.opened.call (.exec use)
    h.sessionDb = some informationSchemaName ∧ h.currentSchema = [] ∧
      ¬Names h.currentSchema h.sessionDb ∧ ¬KnowsInformationSchema h ∧
      rejects h.currentSchema (ascii "SELECT * FROM PROFILING") = false ∧
      rejects direct.currentSchema (ascii "SELECT * FROM PROFILING") = true := by
  intro use h direct
  have haccepts : rejects SchemaHandle.opened.currentSchema use.sql = false := by decide
  have hdb : h.sessionDb = some informationSchemaName := by
    show ((SchemaHandle.opened.call (.prepare use)).call _).sessionDb = _
    rw [SchemaHandle.call, haccepts]
    decide
  have hschema : h.currentSchema = [] := by
    show ((SchemaHandle.opened.call (.prepare use)).call _).currentSchema = _
    rw [SchemaHandle.call, haccepts]
    decide
  have hdirect : direct.currentSchema = informationSchemaName := by
    show (SchemaHandle.opened.call _).currentSchema = _
    rw [SchemaHandle.call, haccepts]
    decide
  refine ⟨hdb, hschema, ?_, ?_, ?_, ?_⟩
  · rw [hdb, hschema]
    rintro (hn | ⟨hn, -⟩)
    · exact absurd hn (by decide)
    · exact absurd hn (by decide)
  · intro hk
    have hread := hk.mpr hdb
    rw [hschema] at hread
    exact absurd hread (by decide)
  · rw [hschema]
    decide
  · rw [hdirect]
    decide

end MyLite.Handle

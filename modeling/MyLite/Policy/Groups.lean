import MyLite.Policy.Gate

namespace MyLite.Policy

open MyLite.Sql

/-!
# The rules by what they look at

The gate's rules fall into three kinds, and every result about the gate treats them
separately:

* `leadingRule` reads the identifier tokens by position and nothing else;
* `neighbourRule` looks for tokens that stand next to each other, anywhere in the statement;
* `setRule` looks for assignments in a statement whose first word is `SET`.

`rejectsTokens_eq` splits the gate into the three.  All of them compare tokens up to letter
case only (`tokenEquals_congr`, `identifierTokenEquals_congr`).
-/

/-! ### Comparisons see a token up to case -/

variable {t u : Text} {keyword : String} {names : List String}

theorem tokenEquals_congr (h : fold t = fold u) (keyword : String) :
    tokenEquals t keyword = tokenEquals u keyword := by
  rw [tokenEquals, tokenEquals, h]

theorem tokenIn_congr (h : fold t = fold u) (keywords : List String) :
    tokenIn t keywords = tokenIn u keywords := by
  have hf : tokenEquals t = tokenEquals u := funext (tokenEquals_congr h)
  rw [tokenIn, tokenIn, hf]

theorem tokenIn_cons (t : Text) (k : String) (ks : List String) :
    tokenIn t (k :: ks) = (tokenEquals t k || tokenIn t ks) := List.any_cons

theorem tokenIn_nil (t : Text) : tokenIn t [] = false := rfl

theorem tokenEquals_iff : tokenEquals t keyword = true ↔ fold t = fold (ascii keyword) := by
  rw [tokenEquals, beq_iff_eq]

/-- Upper-casing changes a byte only into a letter. -/
theorem upperByte_cases : ∀ b : UInt8,
    upperByte b = b ∨ (0x41 ≤ upperByte b ∧ upperByte b ≤ 0x5A) := by
  decide +kernel

/-- A symbol is only ever spelled as itself. -/
theorem tokenEquals_symbol {c : UInt8} (hk : ascii keyword = [c])
    (hc : ¬(0x41 ≤ upperByte c ∧ upperByte c ≤ 0x5A)) : tokenEquals t keyword = true ↔ t = [c] := by
  rw [tokenEquals_iff, hk]
  constructor
  · intro h
    obtain ⟨b, rfl⟩ : ∃ b, t = [b] :=
      List.length_eq_one_iff.mp (by rw [← length_fold, h]; rfl)
    have hb : upperByte b = upperByte c := by simpa [fold] using h
    have hbb := (upperByte_cases b).resolve_right (hb ▸ hc)
    have hcc := (upperByte_cases c).resolve_right hc
    rw [← hbb, hb, hcc]
  · rintro rfl; rfl

/-- A token that is a word has the bytes of a word. -/
theorem isSqlIdentifierChar_of_tokenEquals (h : tokenEquals t keyword = true)
    (hk : (fold (ascii keyword)).all isSqlIdentifierChar = true) :
    ∀ b ∈ t, isSqlIdentifierChar b = true := by
  intro b hb
  have hmem : upperByte b ∈ fold (ascii keyword) := by
    rw [← tokenEquals_iff.mp h]
    exact List.mem_map_of_mem hb
  rw [← isSqlIdentifierChar_upperByte]
  exact List.all_eq_true.mp hk _ hmem

/-- `(` as a token. -/
def parenToken : Text := [0x28]

theorem tokenEquals_paren : tokenEquals t "(" = true ↔ t = parenToken :=
  tokenEquals_symbol (by decide) (by decide)

/-- A token is not two different keywords at once. -/
theorem tokenEquals_subst (h : tokenEquals t keyword = true) (other : String) :
    tokenEquals t other = tokenEquals (ascii keyword) other :=
  tokenEquals_congr (tokenEquals_iff.mp h) other

/-- A token that is one of `names` is none of `others`, if the keywords say so. -/
theorem tokenIn_eq_false {others : List String} (h : tokenIn t names = true)
    (hd : ∀ name ∈ names, tokenIn (ascii name) others = false) : tokenIn t others = false := by
  obtain ⟨name, hmem, hname⟩ := List.any_eq_true.mp h
  rw [tokenIn_congr (tokenEquals_iff.mp hname)]
  exact hd name hmem

theorem tokenEquals_eq_false {other : String} (h : tokenIn t names = true)
    (hd : ∀ name ∈ names, tokenEquals (ascii name) other = false) :
    tokenEquals t other = false := by
  obtain ⟨name, hmem, hname⟩ := List.any_eq_true.mp h
  rw [tokenEquals_subst hname]
  exact hd name hmem

theorem upperByte_eq_backtick : ∀ b : UInt8, upperByte b = byteBacktick ↔ b = byteBacktick := by
  decide +kernel

/-- Case folding does not touch the backticks of a quoted name. -/
theorem fold_unquotedIdentifierToken (t : Text) :
    fold (unquotedIdentifierToken t) = unquotedIdentifierToken (fold t) := by
  have hhead : ((fold t).head? == some byteBacktick) = (t.head? == some byteBacktick) := by
    rw [Bool.eq_iff_iff, beq_iff_eq, beq_iff_eq]
    simp [fold, upperByte_eq_backtick]
  have hlast : ((fold t).getLast? == some byteBacktick) = (t.getLast? == some byteBacktick) := by
    rw [Bool.eq_iff_iff, beq_iff_eq, beq_iff_eq]
    simp [fold, upperByte_eq_backtick]
  unfold unquotedIdentifierToken
  rw [length_fold, hhead, hlast]
  split_ifs
  · simp [fold, List.map_dropLast]
  · rfl

theorem unquotedIdentifierToken_of_head {token : Text} (h : token.head? ≠ some byteBacktick) :
    unquotedIdentifierToken token = token := by
  rw [unquotedIdentifierToken, if_neg]
  intro hq
  simp only [Bool.and_eq_true, beq_iff_eq] at hq
  exact h hq.1.2

theorem unquotedIdentifierToken_quoted (name : Text) :
    unquotedIdentifierToken (byteBacktick :: (name ++ [byteBacktick])) = name := by
  rw [unquotedIdentifierToken, if_pos]
  · simp
  · rw [← List.cons_append, List.getLast?_concat]
    simp

theorem identifierTokenEquals_congr (h : fold t = fold u) (keyword : String) :
    identifierTokenEquals t keyword = identifierTokenEquals u keyword := by
  refine tokenEquals_congr ?_ keyword
  rw [fold_unquotedIdentifierToken, fold_unquotedIdentifierToken, h]

theorem isSqlIdentifierToken_congr (h : fold t = fold u) :
    isSqlIdentifierToken t = isSqlIdentifierToken u := by
  have key : ∀ v : Text, isSqlIdentifierToken v = isSqlIdentifierToken (fold v) := by
    intro v
    cases v with
    | nil => rfl
    | cons b v => simp [isSqlIdentifierToken, fold, isSqlIdentifierChar_upperByte]
  rw [key t, key u, h]

/-- A keyword that is a word is an identifier token. -/
theorem isSqlIdentifierToken_of_tokenIn (h : tokenIn t names = true)
    (hw : ∀ name ∈ names, isSqlIdentifierToken (ascii name) = true) :
    isSqlIdentifierToken t = true := by
  obtain ⟨name, hmem, hname⟩ := List.any_eq_true.mp h
  rw [isSqlIdentifierToken_congr (tokenEquals_iff.mp hname)]
  exact hw name hmem

/-! ### Counting identifier tokens -/

theorem identifierTokenAt_cons_zero (h : isSqlIdentifierToken t = true) (ts : SqlPolicyTokens) :
    identifierTokenAt (t :: ts) 0 = t := by
  simp [identifierTokenAt, identifierTokens, h]

theorem identifierTokenAt_cons_succ (h : isSqlIdentifierToken t = true) (ts : SqlPolicyTokens)
    (n : ℕ) : identifierTokenAt (t :: ts) (n + 1) = identifierTokenAt ts n := by
  simp [identifierTokenAt, identifierTokens, h]

/-- Tokens that are no words do not count. -/
theorem identifierTokenAt_append {ss : List Text}
    (h : ∀ s ∈ ss, isSqlIdentifierToken s = false) (ts : SqlPolicyTokens) (n : ℕ) :
    identifierTokenAt (ss ++ ts) n = identifierTokenAt ts n := by
  have hss : ss.filter isSqlIdentifierToken = [] := by
    rw [List.filter_eq_nil_iff]
    intro s hs
    rw [h s hs]; exact Bool.false_ne_true
  simp [identifierTokenAt, identifierTokens, hss]

/-! ### The three kinds -/

/-- The rules on the identifier tokens in order, in the order of the gate. -/
def leadingRule (tokens : SqlPolicyTokens) : Bool :=
  let first := identifierTokenAt tokens 0
  let second := identifierTokenAt tokens 1
  let flushed := identifierTokenAt tokens (flushTargetIndex second)
  isUnsupportedAccountOrEventStatement tokens || isUnsupportedPluginStatement tokens ||
    isUnsupportedUdfStatement tokens || isUnsupportedReplicationStatement tokens ||
    isUnsupportedBinlogStatement tokens || isUnsupportedXaStatement tokens ||
    isUnsupportedSqlHandlerStatement tokens || isUnsupportedLoadFileImportStatement tokens ||
    isUnsupportedHelpStatement tokens || isUnsupportedStaticShowInfoStatement tokens ||
    isUnsupportedProcesslistMetadataStatement tokens ||
    isUnsupportedForeignServerMetadataStatement tokens || isUnsupportedBackupStatement tokens ||
    isUnsupportedQueryCacheStatement tokens ||
    tokenEquals first "SHOW" && tokenIn second ["USER_VARIABLES", "PROFILE", "PROFILES"] ||
    tokenEquals first "FLUSH" &&
      (userstatStatisticsTables.any (identifierTokenEquals flushed) ||
        identifierTokenEquals flushed "USER_VARIABLES" || tokenEquals flushed "LOGS" ||
        tokenIn flushed ["GENERAL", "SLOW"] &&
          tokenEquals (identifierTokenAt tokens (flushTargetIndex second + 1)) "LOGS") ||
    tokenEquals first "ANALYZE" && hasIdentifierToken tokens "PERSISTENT" 1

/-- The tables of `information_schema` that the gate keeps out. -/
def blockedInformationSchemaTables : List String :=
  userstatStatisticsTables ++ ["USER_VARIABLES", "PROFILING", "OPTIMIZER_TRACE"]

/-- The functions the server-surface group rejects. -/
def serverSurfaceFunctionCall (tokens : SqlPolicyTokens) : Bool :=
  isUnsupportedReplicationFunctionStatement tokens ||
    isUnsupportedServerUtilityFunctionStatement tokens

/-- The rules on neighbouring tokens.  Those of the server-surface group are only reached when
    the statement has an identifier token. -/
def neighbourRule (currentSchema : Text) (tokens : SqlPolicyTokens) : Bool :=
  isUnsupportedProcedureAnalyseStatement tokens || isUnsupportedVectorRuntimeStatement tokens ||
    isUnsupportedXmlSqlFunctionCall tokens || isUnsupportedDynamicColumnFunctionCall tokens ||
    !(identifierTokenAt tokens 0).isEmpty &&
      (serverSurfaceFunctionCall tokens || isUnsupportedSelectFileStatement tokens ||
        mentionsInformationSchemaTable tokens currentSchema blockedInformationSchemaTables)

/-- The names whose assignment the server-surface group rejects. -/
def isBlockedVariableToken (token : Text) : Bool :=
  identifierTokenEquals token "USERSTAT" || isProfilingVariableToken token ||
    isQueryLogVariableToken token || isOptimizerTraceVariableToken token ||
    isPersistentStatisticsVariableToken token || tokenEquals token "PASSWORD" ||
    isServerVariableToken token

/-- The rules on assignments. -/
def setRule (tokens : SqlPolicyTokens) : Bool :=
  isUnsupportedOracleSqlModeStatement tokens || setAssigns isBlockedVariableToken tokens

/-! ### Splitting the gate -/

variable {tokens : SqlPolicyTokens}

theorem setAssigns_or (p q : Text → Bool) (tokens : SqlPolicyTokens) :
    setAssigns (fun t => p t || q t) tokens = (setAssigns p tokens || setAssigns q tokens) := by
  rw [Bool.eq_iff_iff]
  simp only [setAssigns, Bool.and_eq_true, Bool.or_eq_true, SqlPolicyTokens.anyFrom_eq_true]
  constructor
  · rintro ⟨hset, i, hi, hl, hp | hq, ha⟩
    · exact .inl ⟨hset, i, hi, hl, hp, ha⟩
    · exact .inr ⟨hset, i, hi, hl, hq, ha⟩
  · rintro (⟨hset, i, hi, hl, hp, ha⟩ | ⟨hset, i, hi, hl, hq, ha⟩)
    · exact ⟨hset, i, hi, hl, .inl hp, ha⟩
    · exact ⟨hset, i, hi, hl, .inr hq, ha⟩

theorem setAssigns_isBlockedVariableToken (tokens : SqlPolicyTokens) :
    setAssigns isBlockedVariableToken tokens =
      (setAssigns (identifierTokenEquals · "USERSTAT") tokens ||
        setAssigns isProfilingVariableToken tokens || setAssigns isQueryLogVariableToken tokens ||
        setAssigns isOptimizerTraceVariableToken tokens ||
        setAssigns isPersistentStatisticsVariableToken tokens ||
        isUnsupportedServerSetStatement tokens) := by
  unfold isBlockedVariableToken isUnsupportedServerSetStatement
  simp only [setAssigns_or, Bool.or_assoc]

/-- An assignment rule only ever fires on a `SET` statement. -/
theorem setAssigns_eq_false (h : tokenEquals (identifierTokenAt tokens 0) "SET" = false)
    (isName : Text → Bool) : setAssigns isName tokens = false := by
  rw [setAssigns, h, Bool.false_and]

theorem setRule_eq_false (h : tokenEquals (identifierTokenAt tokens 0) "SET" = false) :
    setRule tokens = false := by
  have horacle : isUnsupportedOracleSqlModeStatement tokens = false := by
    rw [isUnsupportedOracleSqlModeStatement, h, Bool.false_and]
  rw [setRule, horacle, setAssigns_eq_false h, Bool.false_or]

theorem tokenEquals_nil (h : ascii keyword ≠ []) : tokenEquals [] keyword = false := by
  rw [Bool.eq_false_iff, ne_eq, tokenEquals_iff]
  intro h'
  exact h (List.length_eq_zero_iff.mp (by rw [← length_fold, ← h']; rfl))

/-- The userstat rule with its early returns resolved: a `FLUSH` is not a `SET`. -/
theorem isUnsupportedUserstatDiagnosticsStatement_eq (tokens : SqlPolicyTokens)
    (currentSchema : Text) :
    isUnsupportedUserstatDiagnosticsStatement tokens currentSchema =
      (mentionsInformationSchemaTable tokens currentSchema userstatStatisticsTables ||
        tokenEquals (identifierTokenAt tokens 0) "FLUSH" &&
          userstatStatisticsTables.any (identifierTokenEquals (identifierTokenAt tokens
            (flushTargetIndex (identifierTokenAt tokens 1)))) ||
        setAssigns (identifierTokenEquals · "USERSTAT") tokens) := by
  unfold isUnsupportedUserstatDiagnosticsStatement
  cases hm : mentionsInformationSchemaTable tokens currentSchema userstatStatisticsTables
  · cases hf : tokenEquals (identifierTokenAt tokens 0) "FLUSH"
    · simp [hf]
    · have hset := tokenEquals_subst hf "SET"
      simp [hf, setAssigns_eq_false (hset.trans (by decide))]
  · simp

theorem isUnsupportedUserVariableDiagnosticsStatement_eq (tokens : SqlPolicyTokens)
    (currentSchema : Text) :
    isUnsupportedUserVariableDiagnosticsStatement tokens currentSchema =
      (mentionsInformationSchemaTable tokens currentSchema ["USER_VARIABLES"] ||
        tokenEquals (identifierTokenAt tokens 0) "SHOW" &&
          tokenEquals (identifierTokenAt tokens 1) "USER_VARIABLES" ||
        tokenEquals (identifierTokenAt tokens 0) "FLUSH" &&
          identifierTokenEquals (identifierTokenAt tokens
            (flushTargetIndex (identifierTokenAt tokens 1))) "USER_VARIABLES") := by
  unfold isUnsupportedUserVariableDiagnosticsStatement
  cases hm : mentionsInformationSchemaTable tokens currentSchema ["USER_VARIABLES"]
  · cases hs : tokenEquals (identifierTokenAt tokens 0) "SHOW"
    · cases hf : tokenEquals (identifierTokenAt tokens 0) "FLUSH" <;> simp [hs, hf]
    · have hf := (tokenEquals_subst hs "FLUSH").trans (by decide :
        tokenEquals (ascii "SHOW") "FLUSH" = false)
      simp [hs, hf]
  · simp

theorem isUnsupportedQueryLogStatement_eq (tokens : SqlPolicyTokens) :
    isUnsupportedQueryLogStatement tokens =
      (tokenEquals (identifierTokenAt tokens 0) "FLUSH" &&
          (tokenEquals (identifierTokenAt tokens
              (flushTargetIndex (identifierTokenAt tokens 1))) "LOGS" ||
            tokenIn (identifierTokenAt tokens
                (flushTargetIndex (identifierTokenAt tokens 1))) ["GENERAL", "SLOW"] &&
              tokenEquals (identifierTokenAt tokens
                (flushTargetIndex (identifierTokenAt tokens 1) + 1)) "LOGS") ||
        setAssigns isQueryLogVariableToken tokens) := by
  unfold isUnsupportedQueryLogStatement
  cases hf : tokenEquals (identifierTokenAt tokens 0) "FLUSH"
  · simp
  · have hset := tokenEquals_subst hf "SET"
    simp [setAssigns_eq_false (hset.trans (by decide))]

theorem mentionsInformationSchemaTable_append (tokens : SqlPolicyTokens) (currentSchema : Text)
    (l₁ l₂ : List String) :
    mentionsInformationSchemaTable tokens currentSchema (l₁ ++ l₂) =
      (mentionsInformationSchemaTable tokens currentSchema l₁ ||
        mentionsInformationSchemaTable tokens currentSchema l₂) := by
  simp only [mentionsInformationSchemaTable, List.any_append]
  ac_rfl

/-- The first words a leading-word rule knows. -/
def leadingWords : List String :=
  ["GRANT", "REVOKE", "CREATE", "ALTER", "DROP", "SHOW", "RENAME", "INSTALL", "UNINSTALL",
    "CHANGE", "RESET", "START", "STOP", "BINLOG", "FLUSH", "PURGE", "XA", "HANDLER", "LOAD",
    "HELP", "BACKUP", "ANALYZE"]

-- Rules that compare the first words and nothing else are unfolded wherever they are met.
attribute [simp] isUnsupportedPluginStatement isUnsupportedReplicationStatement
  isUnsupportedXaStatement isUnsupportedSqlHandlerStatement isUnsupportedLoadFileImportStatement
  isUnsupportedHelpStatement isUnsupportedStaticShowInfoStatement
  isUnsupportedProcesslistMetadataStatement isUnsupportedForeignServerMetadataStatement
  isUnsupportedBackupStatement isUnsupportedQueryCacheStatement

/-- The leading-word rules are silent on a statement that begins with none of these words. -/
theorem leadingRule_eq_false (h : tokenIn (identifierTokenAt tokens 0) leadingWords = false) :
    leadingRule tokens = false := by
  simp only [leadingWords, tokenIn_cons, tokenIn_nil, Bool.or_eq_false_iff] at h
  simp [leadingRule, isUnsupportedAccountOrEventStatement, isUnsupportedUdfStatement,
    isUnsupportedBinlogStatement, tokenIn_cons, tokenIn_nil, h]

/-- Without an identifier token the server-surface rules are silent. -/
theorem leadingRule_of_isEmpty (h : (identifierTokenAt tokens 0).isEmpty = true) :
    leadingRule tokens = false := by
  refine leadingRule_eq_false ?_
  rw [List.isEmpty_iff.mp h]
  decide

theorem setAssigns_of_isEmpty (h : (identifierTokenAt tokens 0).isEmpty = true)
    (isName : Text → Bool) : setAssigns isName tokens = false := by
  refine setAssigns_eq_false ?_ isName
  rw [List.isEmpty_iff.mp h]
  decide

/-- The server-surface group of a statement with an identifier token. -/
theorem isUnsupportedServerSurfaceSql_eq (h : (identifierTokenAt tokens 0).isEmpty = false)
    (currentSchema : Text) :
    isUnsupportedServerSurfaceSql tokens currentSchema =
      (leadingRule tokens || (serverSurfaceFunctionCall tokens ||
        isUnsupportedSelectFileStatement tokens ||
        mentionsInformationSchemaTable tokens currentSchema blockedInformationSchemaTables) ||
        setAssigns isBlockedVariableToken tokens) := by
  have htables : blockedInformationSchemaTables =
    userstatStatisticsTables ++ (["USER_VARIABLES"] ++ (["PROFILING"] ++ ["OPTIMIZER_TRACE"])) :=
  rfl
  rw [isUnsupportedServerSurfaceSql, h, Bool.not_false, Bool.true_and,
    isUnsupportedUserstatDiagnosticsStatement_eq, isUnsupportedUserVariableDiagnosticsStatement_eq,
    isUnsupportedQueryLogStatement_eq, setAssigns_isBlockedVariableToken, htables,
    mentionsInformationSchemaTable_append, mentionsInformationSchemaTable_append,
    mentionsInformationSchemaTable_append]
  simp only [isUnsupportedStatementProfilingStatement, isUnsupportedOptimizerTraceStatement,
    isUnsupportedPersistentStatisticsStatement, leadingRule, serverSurfaceFunctionCall]
  rw [tokenIn_cons (identifierTokenAt tokens 1) "USER_VARIABLES"]
  simp only [Bool.and_or_distrib_left]
  ac_rfl

/-- **Split.** The gate rejects exactly what one of the three kinds of rules rejects. -/
theorem rejectsTokens_eq (currentSchema : Text) (tokens : SqlPolicyTokens) :
    rejectsTokens currentSchema tokens =
      (leadingRule tokens || neighbourRule currentSchema tokens || setRule tokens) := by
  unfold rejectsTokens neighbourRule setRule
  cases he : (identifierTokenAt tokens 0).isEmpty
  · rw [isUnsupportedServerSurfaceSql_eq he]
    simp only [Bool.not_false, Bool.true_and]
    ac_rfl
  · have hs : isUnsupportedServerSurfaceSql tokens currentSchema = false := by
      rw [isUnsupportedServerSurfaceSql, he]; rfl
    rw [hs, leadingRule_of_isEmpty he, setAssigns_of_isEmpty he]
    simp only [Bool.not_true, Bool.false_and, Bool.or_false, Bool.false_or]
    ac_rfl

/-- A statement that assigns none of the blocked names is rejected by the other rules only. -/
theorem rejects_of_unassigned {sql : Text}
    (htokens : (sqlTokens sql).take policyTokenLimit = tokens)
    (hnames : ∀ i < tokens.length, isSystemVariableQualifiedToken tokens i = true →
      isBlockedVariableToken (tokens.value i) = false) (currentSchema : Text) :
    rejects currentSchema sql = (leadingRule tokens || neighbourRule currentSchema tokens ||
      isUnsupportedOracleSqlModeStatement tokens) := by
  have hassigns : setAssigns isBlockedVariableToken tokens = false := by
    rw [Bool.eq_false_iff]
    intro h
    rw [setAssigns, Bool.and_eq_true, SqlPolicyTokens.anyFrom_eq_true] at h
    obtain ⟨-, i, -, hi, hname⟩ := h
    rw [Bool.and_eq_true] at hname
    exact Bool.false_ne_true ((hnames i hi hname.2).symm.trans hname.1)
  rw [rejects_eq, htokens, rejectsTokens_eq, setRule, hassigns, Bool.or_false]

end MyLite.Policy

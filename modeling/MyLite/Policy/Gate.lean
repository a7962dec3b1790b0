import MyLite.Policy.Rules

namespace MyLite.Policy

open MyLite.Sql

/-!
# The SQL policy gate

The rules that mix leading words, table references and `SET` assignments, and
`reject_unsupported_sql_policy` itself: the order of the six groups and the error text of
each.  The gate collects the tokens of the text anew for every group; since that is a
function of the text, here every group takes the same tokens.
-/

/-- The tables of `has_information_schema_userstat_statistics_table` and
    `is_userstat_statistics_table_token`. -/
def userstatStatisticsTables : List String :=
  ["CLIENT_STATISTICS", "INDEX_STATISTICS", "TABLE_STATISTICS", "USER_STATISTICS"]

variable (tokens : SqlPolicyTokens) (currentSchema : Text)

/-- A blocked `information_schema` table, qualified or in the current schema. -/
def mentionsInformationSchemaTable (tables : List String) : Bool :=
  tables.any (hasInformationSchemaTable tokens) ||
    tables.any (hasCurrentSchemaTableReference tokens · currentSchema)

/-- `is_unsupported_userstat_diagnostics_statement`. -/
def isUnsupportedUserstatDiagnosticsStatement : Bool :=
  let first := identifierTokenAt tokens 0
  let second := identifierTokenAt tokens 1
  if mentionsInformationSchemaTable tokens currentSchema userstatStatisticsTables then true
  else if tokenEquals first "FLUSH" then
    userstatStatisticsTables.any
      (identifierTokenEquals (identifierTokenAt tokens (flushTargetIndex second)))
  else setAssigns (identifierTokenEquals · "USERSTAT") tokens

/-- `is_unsupported_user_variable_diagnostics_statement`. -/
def isUnsupportedUserVariableDiagnosticsStatement : Bool :=
  let first := identifierTokenAt tokens 0
  let second := identifierTokenAt tokens 1
  if mentionsInformationSchemaTable tokens currentSchema ["USER_VARIABLES"] then true
  else if tokenEquals first "SHOW" then tokenEquals second "USER_VARIABLES"
  else if tokenEquals first "FLUSH" then
    identifierTokenEquals (identifierTokenAt tokens (flushTargetIndex second)) "USER_VARIABLES"
  else false

/-- `is_unsupported_statement_profiling_statement`. -/
def isUnsupportedStatementProfilingStatement : Bool :=
  mentionsInformationSchemaTable tokens currentSchema ["PROFILING"] ||
    tokenEquals (identifierTokenAt tokens 0) "SHOW" &&
      tokenIn (identifierTokenAt tokens 1) ["PROFILE", "PROFILES"] ||
    setAssigns isProfilingVariableToken tokens

/-- `is_unsupported_query_log_statement`. -/
def isUnsupportedQueryLogStatement : Bool :=
  if tokenEquals (identifierTokenAt tokens 0) "FLUSH" then
    let flushTarget := flushTargetIndex (identifierTokenAt tokens 1)
    tokenEquals (identifierTokenAt tokens flushTarget) "LOGS" ||
      tokenIn (identifierTokenAt tokens flushTarget) ["GENERAL", "SLOW"] &&
        tokenEquals (identifierTokenAt tokens (flushTarget + 1)) "LOGS"
  else setAssigns isQueryLogVariableToken tokens

/-- `is_unsupported_optimizer_trace_statement`. -/
def isUnsupportedOptimizerTraceStatement : Bool :=
  mentionsInformationSchemaTable tokens currentSchema ["OPTIMIZER_TRACE"] ||
    setAssigns isOptimizerTraceVariableToken tokens

/-- `is_unsupported_persistent_statistics_statement`. -/
def isUnsupportedPersistentStatisticsStatement : Bool :=
  tokenEquals (identifierTokenAt tokens 0) "ANALYZE" && hasIdentifierToken tokens "PERSISTENT" 1 ||
    setAssigns isPersistentStatisticsVariableToken tokens

/-- `is_unsupported_server_set_statement`. -/
def isUnsupportedServerSetStatement : SqlPolicyTokens → Bool :=
  setAssigns fun token => tokenEquals token "PASSWORD" || isServerVariableToken token

/-! ### The groups of the gate -/

/-- `is_unsupported_oracle_sql_mode_statement`. -/
def isUnsupportedOracleSqlModeStatement : Bool :=
  tokenEquals (identifierTokenAt tokens 0) "SET" &&
    tokens.anyFrom 1 fun index => tokenEquals (tokens.value index) "SQL_MODE" &&
      isSystemVariableQualifiedToken tokens index && sqlModeAssignmentMentionsOracle tokens index

/-- `is_unsupported_procedure_analyse_statement`. -/
def isUnsupportedProcedureAnalyseStatement : Bool :=
  tokenEquals (identifierTokenAt tokens 0) "SELECT" &&
    tokens.anyFrom 1 fun index => decide (index + 2 < tokens.length) &&
      tokenEquals (tokens.value index) "PROCEDURE" &&
      tokenEquals (tokens.value (index + 1)) "ANALYSE" &&
      tokenEquals (tokens.value (index + 2)) "("

/-- `is_unsupported_vector_runtime_statement`. -/
def isUnsupportedVectorRuntimeStatement : Bool :=
  isUnsupportedVectorSqlFunctionStatement tokens || isUnsupportedVectorIndexStatement tokens

/-- `is_unsupported_server_surface_sql`. -/
def isUnsupportedServerSurfaceSql : Bool :=
  !(identifierTokenAt tokens 0).isEmpty &&
    (isUnsupportedAccountOrEventStatement tokens ||
      isUnsupportedPluginStatement tokens ||
      isUnsupportedUdfStatement tokens ||
      isUnsupportedReplicationStatement tokens ||
      isUnsupportedBinlogStatement tokens ||
      isUnsupportedXaStatement tokens ||
      isUnsupportedReplicationFunctionStatement tokens ||
      isUnsupportedServerUtilityFunctionStatement tokens ||
      isUnsupportedSqlHandlerStatement tokens ||
      isUnsupportedSelectFileStatement tokens ||
      isUnsupportedLoadFileImportStatement tokens ||
      isUnsupportedHelpStatement tokens ||
      isUnsupportedStaticShowInfoStatement tokens ||
      isUnsupportedProcesslistMetadataStatement tokens ||
      isUnsupportedForeignServerMetadataStatement tokens ||
      isUnsupportedBackupStatement tokens ||
      isUnsupportedUserstatDiagnosticsStatement tokens currentSchema ||
      isUnsupportedUserVariableDiagnosticsStatement tokens currentSchema ||
      isUnsupportedStatementProfilingStatement tokens currentSchema ||
      isUnsupportedQueryCacheStatement tokens ||
      isUnsupportedQueryLogStatement tokens ||
      isUnsupportedOptimizerTraceStatement tokens currentSchema ||
      isUnsupportedPersistentStatisticsStatement tokens ||
      isUnsupportedServerSetStatement tokens)

/-- `reject_unsupported_sql_policy` on collected tokens: the error text, or `none` for
    `MYLITE_OK`. -/
def policyError (tokens : SqlPolicyTokens) : Option String :=
  if isUnsupportedOracleSqlModeStatement tokens then
    some "Oracle SQL mode is not supported by MyLite"
  else if isUnsupportedProcedureAnalyseStatement tokens then
    some "PROCEDURE ANALYSE is not supported by MyLite"
  else if isUnsupportedVectorRuntimeStatement tokens then
    some "vector SQL runtime is not supported by MyLite"
  else if isUnsupportedXmlSqlFunctionCall tokens then
    some "XML SQL functions are not supported by MyLite"
  else if isUnsupportedDynamicColumnFunctionCall tokens then
    some "dynamic columns are not supported by MyLite"
  else if isUnsupportedServerSurfaceSql tokens currentSchema then
    some "server-owned SQL surface is not supported by MyLite"
  else none

/-- `reject_unsupported_sql_policy`. -/
def rejectUnsupportedSqlPolicy (currentSchema sql : Text) : Option String :=
  policyError currentSchema (collectSqlPolicyTokens sql)

/-- The gate rejects the tokens: some group is hit. -/
def rejectsTokens (tokens : SqlPolicyTokens) : Bool :=
  isUnsupportedOracleSqlModeStatement tokens || isUnsupportedProcedureAnalyseStatement tokens ||
    isUnsupportedVectorRuntimeStatement tokens || isUnsupportedXmlSqlFunctionCall tokens ||
    isUnsupportedDynamicColumnFunctionCall tokens ||
    isUnsupportedServerSurfaceSql tokens currentSchema

theorem isSome_policyError (tokens : SqlPolicyTokens) :
    (policyError currentSchema tokens).isSome = rejectsTokens currentSchema tokens := by
  unfold policyError rejectsTokens
  split_ifs with h₁ h₂ h₃ h₄ h₅ h₆ <;> simp [*]

/-- The gate rejects a text. -/
def rejects (currentSchema sql : Text) : Bool :=
  (rejectUnsupportedSqlPolicy currentSchema sql).isSome

theorem rejects_eq (currentSchema sql : Text) :
    rejects currentSchema sql =
      rejectsTokens currentSchema ((sqlTokens sql).take policyTokenLimit) := by
  rw [rejects, rejectUnsupportedSqlPolicy, isSome_policyError, collectSqlPolicyTokens_eq_take]

end MyLite.Policy

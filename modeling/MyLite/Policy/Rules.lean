import MyLite.Policy.Tokens

namespace MyLite.Policy

open MyLite.Sql

/-!
# The rules of the SQL policy

Every `is_unsupported_*` predicate of `database.cc`, under its own name.  Three shapes recur
and are stated once: a function name followed by a parenthesis (`hasFunctionCall`), the
assignment of a named system variable in a `SET` statement (`setAssigns`) and the optional
word behind `FLUSH` (`flushTargetIndex`).
-/

/-! ### Shared shapes -/

/-- One of `names`, plain or in backticks, directly followed by `(`. -/
def hasFunctionCall (names : List String) (tokens : SqlPolicyTokens) : Bool :=
  tokens.anyFrom 0 fun index => decide (index + 1 < tokens.length) &&
    names.any (identifierTokenEquals (tokens.value index)) &&
    tokenEquals (tokens.value (index + 1)) "("

/-- A `SET` statement in which a token with `isName` is the name in an assignment. -/
def setAssigns (isName : Text → Bool) (tokens : SqlPolicyTokens) : Bool :=
  tokenEquals (identifierTokenAt tokens 0) "SET" &&
    tokens.anyFrom 1 fun index => isName (tokens.value index) &&
      isSystemVariableQualifiedToken tokens index

/-- The position of the thing flushed: `LOCAL` and `NO_WRITE_TO_BINLOG` may stand before it. -/
def flushTargetIndex (second : Text) : ℕ :=
  if tokenIn second ["LOCAL", "NO_WRITE_TO_BINLOG"] then 2 else 1

/-! ### Blocked system variables -/

/-- The names of `isServerVariableToken`. -/
def serverVariables : List String :=
  ["EVENT_SCHEDULER", "SQL_LOG_BIN", "LOG_BIN", "BINLOG_FORMAT",
    "QUERY_CACHE_SIZE", "QUERY_CACHE_TYPE", "QUERY_CACHE_LIMIT", "QUERY_CACHE_MIN_RES_UNIT",
    "QUERY_CACHE_WLOCK_INVALIDATE", "QUERY_CACHE_STRIP_COMMENTS", "GTID_BINLOG_STATE",
    "GTID_SLAVE_POS", "GTID_STRICT_MODE", "GTID_DOMAIN_ID", "GTID_SEQ_NO",
    "GTID_CLEANUP_BATCH_SIZE", "GTID_IGNORE_DUPLICATES", "GTID_POS_AUTO_ENGINES",
    "BINLOG_GTID_INDEX", "BINLOG_GTID_INDEX_PAGE_SIZE", "BINLOG_GTID_INDEX_SPAN_MIN",
    "WSREP_GTID_DOMAIN_ID", "WSREP_GTID_SEQ_NO", "WSREP_GTID_MODE"]

variable (token : Text)

/-- `is_server_variable_token`. -/
def isServerVariableToken : Bool := tokenIn token serverVariables

/-- The names of `isQueryLogVariableToken`. -/
def queryLogVariables : List String :=
  ["GENERAL_LOG", "GENERAL_LOG_FILE", "LOG_OUTPUT", "SLOW_QUERY_LOG",
    "SLOW_QUERY_LOG_FILE", "LOG_SLOW_QUERY", "LOG_SLOW_QUERY_FILE", "SQL_LOG_OFF",
    "LONG_QUERY_TIME", "MIN_EXAMINED_ROW_LIMIT", "LOG_SLOW_MIN_EXAMINED_ROW_LIMIT",
    "LOG_SLOW_RATE_LIMIT", "LOG_SLOW_FILTER", "LOG_SLOW_VERBOSITY",
    "LOG_SLOW_DISABLED_STATEMENTS", "LOG_SLOW_ADMIN_STATEMENTS", "LOG_SLOW_SLAVE_STATEMENTS",
    "LOG_SLOW_MAX_WARNINGS"]

/-- `is_query_log_variable_token`. -/
def isQueryLogVariableToken : Bool := tokenIn token queryLogVariables

/-- The names of `isPersistentStatisticsVariableToken`. -/
def persistentStatisticsVariables : List String :=
  ["USE_STAT_TABLES", "HISTOGRAM_SIZE", "HISTOGRAM_TYPE"]

/-- `is_persistent_statistics_variable_token`. -/
def isPersistentStatisticsVariableToken : Bool := tokenIn token persistentStatisticsVariables

/-- The names of `isProfilingVariableToken`. -/
def profilingVariables : List String :=
  ["PROFILING", "PROFILING_HISTORY_SIZE"]

/-- The names `is_unsupported_statement_profiling_statement` looks for. -/
def isProfilingVariableToken : Bool := tokenIn token profilingVariables

/-- The names of `isOptimizerTraceVariableToken`. -/
def optimizerTraceVariables : List String :=
  ["OPTIMIZER_TRACE", "OPTIMIZER_TRACE_MAX_MEM_SIZE"]

/-- The names `is_unsupported_optimizer_trace_statement` looks for. -/
def isOptimizerTraceVariableToken : Bool := tokenIn token optimizerTraceVariables

/-! ### Statements known by their leading words -/

variable (tokens : SqlPolicyTokens)

/-- `is_unsupported_account_or_event_statement`. -/
def isUnsupportedAccountOrEventStatement : Bool :=
  let first := identifierTokenAt tokens 0
  let second := identifierTokenAt tokens 1
  let third := identifierTokenAt tokens 2
  let fourth := identifierTokenAt tokens 3
  if tokenIn first ["GRANT", "REVOKE"] then true
  else if tokenEquals first "CREATE" then
    if tokenEquals second "DEFINER" then hasIdentifierToken tokens "EVENT" 2
    else if tokenEquals second "OR" && tokenEquals third "REPLACE" then
      if tokenEquals fourth "DEFINER" then hasIdentifierToken tokens "EVENT" 4
      else tokenIn fourth ["USER", "ROLE", "EVENT", "SERVER"]
    else tokenIn second ["USER", "ROLE", "EVENT", "SERVER"]
  else if tokenEquals first "ALTER" then
    if tokenEquals second "DEFINER" then hasIdentifierToken tokens "EVENT" 2
    else tokenIn second ["USER", "EVENT", "SERVER"]
  else if tokenEquals first "DROP" then tokenIn second ["USER", "ROLE", "EVENT", "SERVER"]
  else if tokenEquals first "SHOW" then
    tokenEquals second "EVENTS" || tokenEquals second "CREATE" && tokenEquals third "EVENT"
  else tokenEquals first "RENAME" && tokenEquals second "USER"

/-- `is_unsupported_plugin_statement`. -/
def isUnsupportedPluginStatement : Bool :=
  tokenIn (identifierTokenAt tokens 0) ["INSTALL", "UNINSTALL"] &&
    tokenIn (identifierTokenAt tokens 1) ["PLUGIN", "SONAME"]

/-- `is_unsupported_udf_statement`. -/
def isUnsupportedUdfStatement : Bool :=
  if !tokenEquals (identifierTokenAt tokens 0) "CREATE" then false
  else
    let afterReplace :=
      if tokenEquals (identifierTokenAt tokens 1) "OR" &&
        tokenEquals (identifierTokenAt tokens 2) "REPLACE" then 3 else 1
    let functionIndex :=
      if tokenEquals (identifierTokenAt tokens afterReplace) "AGGREGATE" then afterReplace + 1
      else afterReplace
    tokenEquals (identifierTokenAt tokens functionIndex) "FUNCTION" &&
      hasIdentifierToken tokens "SONAME" (functionIndex + 1)

/-- `is_unsupported_replication_statement`. -/
def isUnsupportedReplicationStatement : Bool :=
  let first := identifierTokenAt tokens 0
  let second := identifierTokenAt tokens 1
  tokenEquals first "CHANGE" && tokenIn second ["MASTER", "REPLICATION"] ||
    tokenEquals first "RESET" && tokenEquals second "MASTER" ||
    tokenIn first ["START", "STOP", "RESET"] && tokenIn second ["SLAVE", "REPLICA"]

/-- `is_unsupported_binlog_statement`. -/
def isUnsupportedBinlogStatement : Bool :=
  let first := identifierTokenAt tokens 0
  let second := identifierTokenAt tokens 1
  let third := identifierTokenAt tokens 2
  if tokenEquals first "BINLOG" then true
  else if tokenEquals first "SHOW" && tokenEquals second "BINARY" then
    tokenIn third ["LOGS", "STATUS"]
  else if tokenEquals first "SHOW" && tokenEquals second "BINLOG" then
    tokenEquals third "EVENTS"
  else if tokenEquals first "SHOW" && tokenIn second ["MASTER", "SLAVE", "REPLICA"] then
    tokenEquals third "STATUS"
  else if tokenEquals first "FLUSH" && tokenEquals second "BINARY" then
    tokenEquals third "LOGS"
  else if tokenEquals first "RESET" && tokenEquals second "MASTER" then true
  else tokenEquals first "PURGE" && tokenIn second ["BINARY", "MASTER"]

/-- `is_unsupported_xa_statement`. -/
def isUnsupportedXaStatement : Bool :=
  tokenEquals (identifierTokenAt tokens 0) "XA"

/-- `is_unsupported_sql_handler_statement`. -/
def isUnsupportedSqlHandlerStatement : Bool :=
  tokenEquals (identifierTokenAt tokens 0) "HANDLER"

/-- `is_unsupported_load_file_import_statement`. -/
def isUnsupportedLoadFileImportStatement : Bool :=
  tokenEquals (identifierTokenAt tokens 0) "LOAD" &&
    tokenIn (identifierTokenAt tokens 1) ["DATA", "XML"]

/-- `is_unsupported_help_statement`. -/
def isUnsupportedHelpStatement : Bool :=
  tokenEquals (identifierTokenAt tokens 0) "HELP"

/-- `is_unsupported_static_show_info_statement`. -/
def isUnsupportedStaticShowInfoStatement : Bool :=
  tokenEquals (identifierTokenAt tokens 0) "SHOW" &&
    tokenIn (identifierTokenAt tokens 1) ["AUTHORS", "CONTRIBUTORS", "PRIVILEGES"]

/-- `is_unsupported_processlist_metadata_statement`. -/
def isUnsupportedProcesslistMetadataStatement : Bool :=
  tokenEquals (identifierTokenAt tokens 0) "SHOW" &&
    (tokenEquals (identifierTokenAt tokens 1) "PROCESSLIST" ||
      tokenEquals (identifierTokenAt tokens 1) "FULL" &&
        tokenEquals (identifierTokenAt tokens 2) "PROCESSLIST")

/-- `is_unsupported_foreign_server_metadata_statement`. -/
def isUnsupportedForeignServerMetadataStatement : Bool :=
  tokenEquals (identifierTokenAt tokens 0) "SHOW" &&
    tokenEquals (identifierTokenAt tokens 1) "CREATE" &&
    tokenEquals (identifierTokenAt tokens 2) "SERVER"

/-- `is_unsupported_backup_statement`. -/
def isUnsupportedBackupStatement : Bool :=
  tokenEquals (identifierTokenAt tokens 0) "BACKUP"

/-- `is_unsupported_query_cache_statement`. -/
def isUnsupportedQueryCacheStatement : Bool :=
  tokenIn (identifierTokenAt tokens 0) ["FLUSH", "RESET"] &&
    tokenEquals (identifierTokenAt tokens 1) "QUERY" &&
    tokenEquals (identifierTokenAt tokens 2) "CACHE"

/-! ### Statements known by neighbouring tokens -/

/-- `is_unsupported_replication_function_statement`. -/
def isUnsupportedReplicationFunctionStatement : SqlPolicyTokens → Bool :=
  hasFunctionCall ["MASTER_GTID_WAIT", "MASTER_POS_WAIT", "BINLOG_GTID_POS",
    "WSREP_SYNC_WAIT_UPTO_GTID"]

/-- `is_unsupported_vector_sql_function_statement`. -/
def isUnsupportedVectorSqlFunctionStatement : SqlPolicyTokens → Bool :=
  hasFunctionCall ["VEC_DISTANCE", "VEC_DISTANCE_COSINE", "VEC_DISTANCE_EUCLIDEAN",
    "VEC_FROMTEXT", "VEC_TOTEXT"]

/-- `is_unsupported_xml_sql_function_call`. -/
def isUnsupportedXmlSqlFunctionCall : SqlPolicyTokens → Bool :=
  hasFunctionCall ["EXTRACTVALUE", "UPDATEXML"]

/-- `is_unsupported_dynamic_column_function_call`. -/
def isUnsupportedDynamicColumnFunctionCall : SqlPolicyTokens → Bool :=
  hasFunctionCall ["COLUMN_ADD", "COLUMN_CHECK", "COLUMN_CREATE", "COLUMN_DELETE",
    "COLUMN_EXISTS", "COLUMN_GET", "COLUMN_JSON", "COLUMN_LIST"]

/-- `is_unsupported_server_utility_function_statement`. -/
def isUnsupportedServerUtilityFunctionStatement : SqlPolicyTokens → Bool :=
  hasFunctionCall ["BENCHMARK", "GET_LOCK", "IS_FREE_LOCK", "IS_USED_LOCK", "LOAD_FILE",
    "RELEASE_ALL_LOCKS", "RELEASE_LOCK", "SLEEP", "UUID_SHORT"]

/-- `is_unsupported_vector_index_statement`. -/
def isUnsupportedVectorIndexStatement : Bool :=
  tokens.anyFrom 0 fun index => decide (index + 1 < tokens.length) &&
    identifierTokenEquals (tokens.value index) "VECTOR" &&
    (identifierTokenEquals (tokens.value (index + 1)) "KEY" ||
      identifierTokenEquals (tokens.value (index + 1)) "INDEX" ||
      tokenEquals (tokens.value (index + 1)) "(" && decide (0 < index) &&
        tokenIn (tokens.value (index - 1)) ["(", ","])

/-- `is_unsupported_select_file_statement`. -/
def isUnsupportedSelectFileStatement : Bool :=
  tokenIn (identifierTokenAt tokens 0) ["SELECT", "WITH"] &&
    tokens.anyFrom 0 fun index => decide (index + 1 < tokens.length) &&
      tokenEquals (tokens.value index) "INTO" &&
      tokenIn (tokens.value (index + 1)) ["OUTFILE", "DUMPFILE"]

end MyLite.Policy

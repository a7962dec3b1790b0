import MyLite.Sql.Tokenizer

namespace MyLite.Policy

open MyLite.Sql

/-!
# Token predicates of the SQL policy

The helpers of `database.cc` that look at collected tokens: keyword comparison, identifier
tokens by position, and the recogniser of system-variable assignments in a `SET` statement.
`SqlPolicyTokens` is an array of 32 string views with a count; here it is the list of the
collected tokens, and reading a slot that was not filled gives the empty view, as there.
-/

/-- `SqlPolicyTokens`: the collected tokens. -/
abbrev SqlPolicyTokens := List Text

variable (tokens : SqlPolicyTokens)

/-- `tokens.values[index]`. -/
def SqlPolicyTokens.value (index : ℕ) : Text := tokens.getD index []

theorem SqlPolicyTokens.value_mem {tokens : SqlPolicyTokens} {i : ℕ} (h : i < tokens.length) :
    tokens.value i ∈ tokens := by
  simp [SqlPolicyTokens.value, List.getD_eq_getElem?_getD, h]

/-- A loop `for (index = start; index < tokens.count; ++index)` that looks for a hit. -/
def SqlPolicyTokens.anyFrom (start : ℕ) (hit : ℕ → Bool) : Bool :=
  (List.range tokens.length).any fun index => decide (start ≤ index) && hit index

theorem SqlPolicyTokens.anyFrom_eq_true {tokens : SqlPolicyTokens} {start : ℕ}
    {hit : ℕ → Bool} : tokens.anyFrom start hit = true ↔
      ∃ index, start ≤ index ∧ index < tokens.length ∧ hit index = true := by
  simp only [anyFrom, List.any_eq_true, List.mem_range, Bool.and_eq_true, decide_eq_true_eq]
  constructor
  · rintro ⟨i, hi, hs, hh⟩; exact ⟨i, hs, hi, hh⟩
  · rintro ⟨i, hs, hi, hh⟩; exact ⟨i, hi, hs, hh⟩

/-! ### Comparing one token -/

variable (token : Text)

/-- `token_equals`: equality up to ASCII case. -/
def tokenEquals (keyword : String) : Bool := fold token == fold (ascii keyword)

/-- `token_in`, for any number of keywords. -/
def tokenIn (keywords : List String) : Bool := keywords.any (tokenEquals token)

/-- `unquoted_identifier_token`: strips one pair of backticks and nothing else. -/
def unquotedIdentifierToken : Text :=
  if 2 ≤ token.length && token.head? == some byteBacktick && token.getLast? == some byteBacktick
  then token.tail.dropLast else token

/-- `identifier_token_equals`. -/
def identifierTokenEquals (keyword : String) : Bool :=
  tokenEquals (unquotedIdentifierToken token) keyword

/-- `is_sql_identifier_token`. -/
def isSqlIdentifierToken : Bool := token.head?.any isSqlIdentifierChar

/-! ### Identifier tokens by position -/

/-- The tokens that `identifier_token_at` counts. -/
def identifierTokens : List Text := tokens.filter isSqlIdentifierToken

/-- `identifier_token_at`; the empty token past the last one. -/
def identifierTokenAt (index : ℕ) : Text :=
  (identifierTokens tokens).getD index []

/-- `has_identifier_token`.  An identifier token is never empty, so the source's loop runs to
    the last one. -/
def hasIdentifierToken (keyword : String) (startIndex : ℕ) : Bool :=
  ((identifierTokens tokens).drop startIndex).any (tokenEquals · keyword)

/-! ### Assignments of a `SET` statement -/

/-- `first_set_assignment_token_index`. -/
def firstSetAssignmentTokenIndex : ℕ :=
  if 2 < tokens.length && tokenEquals (tokens.value 1) "STATEMENT" &&
      !tokenEquals (tokens.value 2) "="
  then 2 else 1

/-- The loop of `is_system_variable_assignment_start` over the tokens in front of the index:
    the parenthesis depth behind them, or `none` where it returns at a `FOR`. -/
def assignmentDepth (statementForm : Bool) : ℕ → List Text → Option ℕ
  | depth, [] => some depth
  | depth, token :: rest =>
    if tokenEquals token "(" then assignmentDepth statementForm (depth + 1) rest
    else if tokenEquals token ")" then assignmentDepth statementForm (depth - 1) rest
    else if depth == 0 && statementForm && tokenEquals token "FOR" then none
    else assignmentDepth statementForm depth rest

/-- `is_system_variable_assignment_start`. -/
def isSystemVariableAssignmentStart (index : ℕ) : Bool :=
  let first := firstSetAssignmentTokenIndex tokens
  index == first ||
    match assignmentDepth (first == 2) 0 ((tokens.drop first).take (index - first)) with
    | none => false
    | some depth => decide (0 < index) && depth == 0 && tokenEquals (tokens.value (index - 1)) ","

/-- The keywords of a variable scope. -/
def scopeKeywords : List String := ["GLOBAL", "SESSION", "LOCAL"]

/-- `is_system_variable_qualified_token`: the token at `index` is the name in an assignment.
    A scope keyword in front decides alone, whatever stands before it. -/
def isSystemVariableQualifiedToken (index : ℕ) : Bool :=
  decide (index + 1 < tokens.length) && tokenEquals (tokens.value (index + 1)) "=" &&
    (isSystemVariableAssignmentStart tokens index ||
      if tokenIn (tokens.value (index - 1)) scopeKeywords then
        isSystemVariableAssignmentStart tokens (index - 1)
      else
        decide (2 ≤ index) && tokenEquals (tokens.value (index - 1)) "@" &&
            tokenEquals (tokens.value (index - 2)) "@" ||
          decide (4 ≤ index) && tokenEquals (tokens.value (index - 1)) "." &&
            tokenIn (tokens.value (index - 2)) scopeKeywords &&
            tokenEquals (tokens.value (index - 3)) "@" &&
            tokenEquals (tokens.value (index - 4)) "@")

/-- `token_contains_sql_mode_name`: the mode name somewhere in the token, not inside a longer
    word. -/
def tokenContainsSqlModeName (modeName : String) : Bool :=
  let name := fold (ascii modeName)
  decide (name.length ≠ 0) && (List.range (token.length + 1)).any fun start =>
    decide (start + name.length ≤ token.length) &&
      fold ((token.drop start).take name.length) == name &&
      (start == 0 || !isSqlIdentifierChar (token.getD (start - 1) 0)) &&
      (start + name.length == token.length ||
        !isSqlIdentifierChar (token.getD (start + name.length) 0))

/-- The loop of `sql_mode_assignment_mentions_oracle`, which ends with the assignment. -/
def valueMentionsOracle : ℕ → List Text → Bool
  | _, [] => false
  | depth, token :: rest =>
    if tokenEquals token "(" then valueMentionsOracle (depth + 1) rest
    else if tokenEquals token ")" then valueMentionsOracle (depth - 1) rest
    else if depth == 0 && tokenEquals token "," then false
    else tokenContainsSqlModeName token "ORACLE" || valueMentionsOracle depth rest

/-- `sql_mode_assignment_mentions_oracle`. -/
def sqlModeAssignmentMentionsOracle (index : ℕ) : Bool :=
  valueMentionsOracle 0 (tokens.drop (index + 2))

/-! ### Table references -/

/-- `has_information_schema_table`. -/
def hasInformationSchemaTable (tableName : String) : Bool :=
  tokens.anyFrom 0 fun index => decide (index + 2 < tokens.length) &&
    identifierTokenEquals (tokens.value index) "INFORMATION_SCHEMA" &&
    tokenEquals (tokens.value (index + 1)) "." &&
    identifierTokenEquals (tokens.value (index + 2)) tableName

/-- `table_reference_keyword`. -/
def tableReferenceKeyword : Bool :=
  tokenIn token ["FROM", "JOIN", "UPDATE", "INTO", "TABLE", "DESC", "DESCRIBE"]

/-- `has_unqualified_table_reference`. -/
def hasUnqualifiedTableReference (tableName : String) : Bool :=
  tokens.anyFrom 1 fun index => identifierTokenEquals (tokens.value index) tableName &&
    tableReferenceKeyword (tokens.value (index - 1))

/-- `has_current_schema_table_reference`. -/
def hasCurrentSchemaTableReference (tableName : String) (currentSchema : Text) : Bool :=
  identifierTokenEquals currentSchema "INFORMATION_SCHEMA" &&
    hasUnqualifiedTableReference tokens tableName

end MyLite.Policy

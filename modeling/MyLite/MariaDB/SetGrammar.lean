import MyLite.MariaDB.StringLiteral
import MyLite.Policy.Groups

namespace MyLite.MariaDB

open MyLite.Sql MyLite.Policy

/-!
# The `SET` statement of MariaDB's grammar

Derivations of the rule `set` in `sql_yacc.yy`, with their tokens as the policy cuts them.  A
statement is a list of comma-separated option values, or the same behind `STATEMENT` and in
front of `FOR` and another statement.  An option value that assigns a system variable is spelled
out; a value expression is any list of tokens with matched parentheses and no comma outside
them, which every `set_expr_or_default` is; the remaining alternatives (user variables, `NAMES`,
`CHARACTER SET`, `ROLE`, `PASSWORD`, names with a dot) are kept as their tokens, those for a
password again with their parts.
-/

/-- `,` as a token. -/
def commaToken : Text := [0x2C]

/-- `=` as a token. -/
def equalToken : Text := [0x3D]

/-- `@` as a token. -/
def atToken : Text := [0x40]

/-- `.` as a token. -/
def dotToken : Text := [0x2E]

/-! ### Values -/

/-- The parenthesis depth behind some tokens; `none` at an unmatched `)` or at a comma outside
    all parentheses. -/
def parenDepth : ℕ → List Text → Option ℕ
  | depth, [] => some depth
  | depth, token :: rest =>
    if tokenEquals token "(" then parenDepth (depth + 1) rest
    else if tokenEquals token ")" then
      match depth with
      | 0 => none
      | depth + 1 => parenDepth depth rest
    else if depth == 0 && tokenEquals token "," then none
    else parenDepth depth rest

/-- One comma-free, balanced stretch of a list. -/
def isSegment (tokens : List Text) : Bool := parenDepth 0 tokens == some 0

/-- The tokens of `set_expr_or_default`. -/
abbrev SetValue := { tokens : List Text // isSegment tokens = true }

/-- A `FOR` outside all parentheses. -/
def hasTopFor : ℕ → List Text → Bool
  | _, [] => false
  | depth, token :: rest =>
    if tokenEquals token "(" then hasTopFor (depth + 1) rest
    else if tokenEquals token ")" then hasTopFor (depth - 1) rest
    else depth == 0 && tokenEquals token "FOR" || hasTopFor depth rest

/-! ### Names -/

/-- `ident_cli`, when it is one token: a plain word or a name in backticks. -/
inductive IdentName
  | plain (word : Text) (isWord : isSqlIdentifierToken word = true)
  | quoted (name : Text)

/-- `ident_sysvar_name`: also a string literal. -/
inductive SysvarName
  | ident (name : IdentName)
  | text (quote : UInt8) (isQuote : quote = byteQuote ∨ quote = byteDoubleQuote) (body : Text)

/-- The name's one token. -/
def IdentName.token : IdentName → Text
  | .plain word _ => word
  | .quoted name => byteBacktick :: (name ++ [byteBacktick])

/-- The variable that is meant. -/
def IdentName.value : IdentName → Text
  | .plain word _ => word
  | .quoted name => name

/-- The name's one token. -/
def SysvarName.token : SysvarName → Text
  | .ident name => name.token
  | .text quote _ body => quote :: (body ++ [quote])

/-- The variable that is meant. -/
def SysvarName.value : SysvarName → Text
  | .ident name => name.value
  | .text quote _ body => myUnescape defaultSession quote body

/-! ### Option values -/

/-- `equal`: `=` or `:=`, which the policy tokenizer cuts into two tokens. -/
inductive Equal
  | eq | setVar
  deriving DecidableEq

/-- The tokens of `equal`. -/
def Equal.tokens : Equal → List Text
  | .eq => [equalToken]
  | .setVar => [[0x3A], equalToken]

/-- `option_type`. -/
abbrev ScopeWord := { word : Text // tokenIn word scopeKeywords = true }

/-- One option value of a `SET` statement. -/
inductive SetItem
  /-- `ident_cli equal set_expr_or_default`. -/
  | bare (name : IdentName) (equal : Equal) (value : SetValue)
  /-- `option_type ident_cli equal set_expr_or_default`. -/
  | scoped (scope : ScopeWord) (name : IdentName) (equal : Equal) (value : SetValue)
  /-- `'@' '@' opt_var_ident_type ident_sysvar_name equal set_expr_or_default`. -/
  | system (scope : Option ScopeWord) (name : SysvarName) (equal : Equal) (value : SetValue)
  /-- Any other alternative. -/
  | other (tokens : List Text) (isItem : isSegment tokens = true) (nonempty : tokens ≠ [])

/-- The tokens of an option value. -/
def SetItem.tokens : SetItem → List Text
  | .bare name equal value => name.token :: (equal.tokens ++ value.1)
  | .scoped scope name equal value => scope.1 :: name.token :: (equal.tokens ++ value.1)
  | .system none name equal value => atToken :: atToken :: name.token :: (equal.tokens ++ value.1)
  | .system (some scope) name equal value =>
    atToken :: atToken :: scope.1 :: dotToken :: name.token :: (equal.tokens ++ value.1)
  | .other tokens _ _ => tokens

/-- The system variable an option value assigns. -/
def SetItem.target : SetItem → Option Text
  | .bare name _ _ => some name.value
  | .scoped _ name _ _ => some name.value
  | .system _ name _ _ => some name.value
  | .other _ _ _ => none

/-- Option values with commas between them. -/
def joinItems (first : List Text) (rest : List (List Text)) : List Text :=
  first ++ rest.flatMap fun tokens => commaToken :: tokens

/-! ### Statements -/

/-- The two forms of `set_param` that hold assignments. -/
inductive SetForm
  | options
  /-- `STATEMENT_SYM set_stmt_option_list FOR_SYM directly_executable_statement`. -/
  | statement (word forWord : Text) (isWord : tokenEquals word "STATEMENT" = true)
      (isFor : tokenEquals forWord "FOR" = true) (body : List Text)

/-- How the first option value may begin.  Where no `STATEMENT` is in front, a first word
    `STATEMENT` is (the beginning of) a name: an assignment sign, a dot or a further byte of the
    name follows, no word and nothing in backticks, since the word is otherwise the keyword of
    the other form. -/
def FirstItemOk : SetForm → List Text → Prop
  | .options, tokens => ∀ s t rest, tokens = s :: t :: rest → tokenEquals s "STATEMENT" = true →
      isSqlIdentifierToken t = false ∧ t.head? ≠ some byteBacktick
  | .statement .., tokens => tokens.head? ≠ some equalToken

/-- A derivation of `set`. -/
structure SetStatement where
  set : Text
  set_eq : tokenEquals set "SET" = true
  form : SetForm
  first : SetItem
  rest : List SetItem
  first_ok : FirstItemOk form first.tokens

namespace SetStatement

variable (d : SetStatement)

/-- The option values. -/
def items : List SetItem := d.first :: d.rest

/-- The tokens in front of the first option value. -/
def lead : List Text :=
  match d.form with
  | .options => [d.set]
  | .statement word .. => [d.set, word]

/-- The tokens behind the last option value. -/
def trail : List Text :=
  match d.form with
  | .options => []
  | .statement _ forWord _ _ body => forWord :: body

/-- The tokens of the statement. -/
def tokens : List Text :=
  d.lead ++ (joinItems d.first.tokens (d.rest.map SetItem.tokens) ++ d.trail)

end SetStatement

/-! ### Password changes -/

/-- The alternatives of `option_value_no_option_type` for passwords:
    `PASSWORD_SYM equal text_or_password` and `PASSWORD_SYM FOR_SYM user equal text_or_password`.
    A `user` and a `text_or_password` are, like a value, tokens with matched parentheses. -/
inductive PasswordChange
  | own (word : Text) (isWord : tokenEquals word "PASSWORD" = true) (equal : Equal)
      (text : SetValue)
  | ofUser (word forWord : Text) (isWord : tokenEquals word "PASSWORD" = true)
      (isFor : tokenEquals forWord "FOR" = true) (user : SetValue) (equal : Equal)
      (text : SetValue)

/-- The tokens of a password change. -/
def PasswordChange.tokens : PasswordChange → List Text
  | .own word _ equal text => word :: (equal.tokens ++ text.1)
  | .ofUser word forWord _ _ user equal text =>
    word :: forWord :: (user.1 ++ (equal.tokens ++ text.1))

/-- Some option value of the list changes a password.  `SET STATEMENT` takes no such value. -/
def SetStatement.ChangesPassword (d : SetStatement) : Prop :=
  d.form = .options ∧ ∃ item ∈ d.items, ∃ change : PasswordChange, item.tokens = change.tokens

end MyLite.MariaDB

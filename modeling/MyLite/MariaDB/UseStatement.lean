import MyLite.MariaDB.Lexer
import MyLite.Policy.Tokens

namespace MyLite.MariaDB

open MyLite.Sql MyLite.Policy

/-!
# `USE` and the session's database

The texts MariaDB reads as `USE ident` (rule `use` of `sql_yacc.yy`), and what a statement does
to the session's current database: `USE` sets it (`mysql_change_db`), dropping the current
database clears it (`mysql_rm_db`), and a statement that executes another one (`SET STATEMENT …
FOR`, `EXECUTE IMMEDIATE`, a compound statement) does to it what that one does.  A prepared
statement runs in the database it was prepared in, and the session gets its own database back
afterwards (`Prepared_statement::execute`).
-/

/-! ### Spacing -/

/-- What may stand between two tokens. -/
inductive Spacing
  | blank (b : UInt8) (isBlank : isSpace b = true)
  | hash (body : Text) (oneLine : ∀ c ∈ body, c ≠ byteNewline ∧ c ≠ byteNul)
  /-- Two dashes are a comment in front of a space or a control character only. -/
  | dash (body : Text) (oneLine : ∀ c ∈ body, c ≠ byteNewline ∧ c ≠ byteNul)
      (isBreak : ∀ c ∈ body.head?, (isSpace c || isControl c) = true)
  | block (body : Text) (noEnd : ¬[byteStar, byteSlash] <:+: body)
      (notExecutable : ¬[byteBang] <+: body ∧ ¬[0x4D, byteBang] <+: body)
  /-- An executable comment with nothing in it. -/
  | executable

/-- The bytes of a spacing. -/
def Spacing.text : Spacing → Text
  | .blank b _ => [b]
  | .hash body _ => byteHash :: (body ++ [byteNewline])
  | .dash body _ _ => byteDash :: byteDash :: (body ++ [byteNewline])
  | .block body _ _ => byteSlash :: byteStar :: (body ++ [byteStar, byteSlash])
  | .executable => [byteSlash, byteStar, byteBang, byteStar, byteSlash]

/-- The bytes of several spacings. -/
def spacingText (spacings : List Spacing) : Text := spacings.flatMap Spacing.text

/-! ### Names -/

/-- `ident`: a word, or any bytes in backticks. -/
inductive DatabaseName
  | plain (word : Text) (nonempty : word ≠ []) (isWord : ∀ b ∈ word, isIdentByte b = true)
  | quoted (name : Text)

/-- The name that is meant. -/
def DatabaseName.value : DatabaseName → Text
  | .plain word _ _ => word
  | .quoted name => name

/-- A backtick inside backticks is written twice. -/
def doubleBackticks (name : Text) : Text :=
  name.flatMap fun b => if b == byteBacktick then [b, b] else [b]

/-- The bytes of a name. -/
def DatabaseName.spelling : DatabaseName → Text
  | .plain word _ _ => word
  | .quoted name => byteBacktick :: (doubleBackticks name ++ [byteBacktick])

/-- The name is over where `tail` begins. -/
def DatabaseName.EndsAt : DatabaseName → Text → Prop
  | .plain .., tail => ∀ b ∈ tail.head?, isIdentByte b = false
  | .quoted _, tail => tail.head? ≠ some byteBacktick

/-! ### Statements -/

/-- A text that MariaDB reads as `USE ident`, up to the end of the name. -/
structure UseText where
  lead : List Spacing
  word : Text
  isUse : tokenEquals word "USE" = true
  gap : List Spacing
  name : DatabaseName
  separated : gap = [] → ∃ body, name = .quoted body
  tail : Text
  ends : name.EndsAt tail

/-- The bytes of the statement. -/
def UseText.text (u : UseText) : Text :=
  spacingText u.lead ++ (u.word ++ (spacingText u.gap ++ (u.name.spelling ++ u.tail)))

/-- A statement, sorted by what it does to the session's database when it succeeds.  Of any other
    statement `effect` is what it leaves, from the database it runs in and the session's own. -/
inductive Statement
  | use (text : UseText)
  | dropDatabase (sql name : Text)
  | other (sql : Text) (effect : Option Text → Option Text → Option Text)

/-- The text of a statement. -/
def Statement.sql : Statement → Text
  | .use u => u.text
  | .dropDatabase sql _ => sql
  | .other sql _ => sql

/-! ### The session's database -/

/-- `INFORMATION_SCHEMA_NAME`. -/
def informationSchemaName : Text := ascii "information_schema"

/-- `is_infoschema_db`, for names in ASCII. -/
def isInfoschemaDb (name : Text) : Bool := tokenEquals name "INFORMATION_SCHEMA"

/-- `mysql_change_db` for a database that exists. -/
def changeDb (name : Text) : Text :=
  if isInfoschemaDb name then informationSchemaName else name

/-- A successful statement of `mysql_query`. -/
def Statement.execute : Statement → Option Text → Option Text
  | .use u, _ => some (changeDb u.name.value)
  | .dropDatabase _ name, db => if db = some name then none else db
  | .other _ effect, db => effect db db

/-- A successful `mysql_stmt_execute` of a statement prepared in `stmtDb`.  Where the two
    databases differ, the session is switched for the statement and back behind it; switching
    back to a database that was dropped meanwhile leaves none. -/
def Statement.executePrepared (st : Statement) (stmtDb db : Option Text) : Option Text :=
  if stmtDb = db then st.execute db
  else match st with
    | .use _ => db
    | .dropDatabase _ name => if db = some name then none else db
    | .other _ effect => effect stmtDb db

end MyLite.MariaDB

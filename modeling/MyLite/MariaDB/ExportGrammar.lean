import MyLite.Policy.Groups

namespace MyLite.MariaDB

open MyLite.Sql MyLite.Policy

/-!
# Queries that write a file

Derivations of the rules `select` and `select_into` in `sql_yacc.yy` whose `into_destination` is a
file.  The shape of a query expression is kept as far as it decides where the statement begins
(simple tables, parentheses, set operations); the clauses of a simple table, the elements of a
`WITH` clause and the options of the destination are any tokens.
-/

/-- One token that is one of the keywords. -/
abbrev KeywordToken (names : List String) := { word : Text // tokenIn word names = true }

/-- `simple_table`. -/
inductive SimpleTable
  /-- `query_specification`. -/
  | specification (select : KeywordToken ["SELECT"]) (clauses : List Text)
  /-- `table_value_constructor`. -/
  | constructor (values : KeywordToken ["VALUES"]) (rows : List Text)

/-- `query_expression_no_with_clause`. -/
inductive QueryExpression
  | simple (table : SimpleTable)
  /-- `'(' query_expression_body_ext ')'`, also more than once. -/
  | parens (inner : QueryExpression)
  /-- `query_expression_body unit_type_decl query_primary`. -/
  | unit (left : QueryExpression) (unitType : List Text) (right : QueryExpression)
  /-- A `query_expression_tail`: `ORDER BY`, `LIMIT` and locks. -/
  | tail (body : QueryExpression) (orderLimitLock : List Text)

/-- `with_clause`. -/
structure WithClause where
  word : KeywordToken ["WITH"]
  elements : List Text

/-- `into` with a file as its destination. -/
structure IntoFile where
  into : KeywordToken ["INTO"]
  destination : KeywordToken ["OUTFILE", "DUMPFILE"]
  options : List Text

/-- A statement that writes a file. -/
inductive ExportStatement
  /-- `select`: the destination stands at the end. -/
  | select (withClause : Option WithClause) (query : QueryExpression) (into : IntoFile)
      (lock : List Text)
  /-- `select_into`: the destination stands behind the select items. -/
  | selectInto (withClause : Option WithClause) (select : KeywordToken ["SELECT"])
      (items : List Text) (into : IntoFile) (clauses : List Text)

/-! ### Tokens -/

def SimpleTable.tokens : SimpleTable → List Text
  | .specification select clauses => select.1 :: clauses
  | .constructor values rows => values.1 :: rows

def QueryExpression.tokens : QueryExpression → List Text
  | .simple table => table.tokens
  | .parens inner => parenToken :: (inner.tokens ++ [[0x29]])
  | .unit left unitType right => left.tokens ++ (unitType ++ right.tokens)
  | .tail body orderLimitLock => body.tokens ++ orderLimitLock

def IntoFile.tokens (into : IntoFile) : List Text :=
  into.into.1 :: into.destination.1 :: into.options

def WithClause.tokens (clause : WithClause) : List Text := clause.word.1 :: clause.elements

def ExportStatement.tokens : ExportStatement → List Text
  | .select withClause query into lock =>
    withClause.elim [] WithClause.tokens ++ (query.tokens ++ (into.tokens ++ lock))
  | .selectInto withClause word items into clauses =>
    withClause.elim [] WithClause.tokens ++ (word.1 :: (items ++ (into.tokens ++ clauses)))

/-! ### First words -/

def SimpleTable.word : SimpleTable → Text
  | .specification select _ => select.1
  | .constructor values _ => values.1

/-- The word of the leftmost simple table. -/
def QueryExpression.word : QueryExpression → Text
  | .simple table => table.word
  | .parens inner => inner.word
  | .unit left _ _ => left.word
  | .tail body _ => body.word

/-- The first word of the statement. -/
def ExportStatement.word : ExportStatement → Text
  | .select withClause query _ _ => withClause.elim query.word fun clause => clause.word.1
  | .selectInto withClause word _ _ _ => withClause.elim word.1 fun clause => clause.word.1

end MyLite.MariaDB

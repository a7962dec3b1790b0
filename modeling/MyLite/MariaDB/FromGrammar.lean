import MyLite.MariaDB.ExportGrammar
import MyLite.MariaDB.SetGrammar

namespace MyLite.MariaDB

open MyLite.Sql MyLite.Policy

/-!
# The `FROM` clause

Derivations of `table_reference_list` in `sql_yacc.yy`: lists with commas, joins, parentheses and
the escape braces.  A table without a schema is spelled out; what may follow it (partitions,
aliases, index hints), tables with a schema, derived tables, table functions and join conditions
are any tokens.  The tokens of a clause come with a mark on those that name a table without a
schema.
-/

/-- The words of a join in front of its right operand. -/
structure JoinOperator where
  modifiers : List (KeywordToken ["INNER", "CROSS", "NATURAL", "LEFT", "RIGHT", "OUTER"])
  word : KeywordToken ["JOIN", "STRAIGHT_JOIN"]

/-- `table_reference_list` and the rules below it. -/
inductive TableReferences
  /-- `table_ident` without a schema, with a dot in front of the name or not, and what follows. -/
  | table (dot : Bool) (name : IdentName) (rest : List Text)
  /-- A table with a schema, a derived table or a table function. -/
  | other (tokens : List Text)
  /-- `'(' … ')'`. -/
  | parens (inner : TableReferences)
  /-- `'{' ident table_ref '}'`. -/
  | escape (ident : Text) (inner : TableReferences)
  /-- `… ',' …`. -/
  | comma (left right : TableReferences)
  /-- `join_table`, with `ON` or `USING` behind it or not. -/
  | join (left : TableReferences) (operator : JoinOperator) (right : TableReferences)
      (condition : List Text)

/-- A token, and whether it names a table without a schema. -/
abbrev Marked := Text × Bool

/-- Tokens that name no such table. -/
def unmarked (tokens : List Text) : List Marked := tokens.map fun token => (token, false)

def JoinOperator.tokens (operator : JoinOperator) : List Text :=
  operator.modifiers.map Subtype.val ++ [operator.word.1]

namespace TableReferences

/-- The tokens of the clause with their marks. -/
def marked : TableReferences → List Marked
  | table dot name rest =>
    unmarked (if dot then [dotToken] else []) ++ (name.token, true) :: unmarked rest
  | other tokens => unmarked tokens
  | parens inner => (parenToken, false) :: (inner.marked ++ unmarked [[0x29]])
  | escape ident inner => unmarked [[0x7B], ident] ++ (inner.marked ++ unmarked [[0x7D]])
  | comma left right => left.marked ++ (commaToken, false) :: right.marked
  | join left operator right condition =>
    left.marked ++ (unmarked operator.tokens ++ (right.marked ++ unmarked condition))

/-- The tables named without a schema. -/
def names : TableReferences → List Text
  | table _ name _ => [name.value]
  | other _ => []
  | parens inner => inner.names
  | escape _ inner => inner.names
  | comma left right => left.names ++ right.names
  | join left _ right _ => left.names ++ right.names

end TableReferences

/-- A `SELECT` with a `FROM` clause.  In front of it a larger query may have parentheses, a `WITH`
    clause or the other parts of a union. -/
structure FromStatement where
  lead : List Text
  select : KeywordToken ["SELECT"]
  items : List Text
  fromWord : KeywordToken ["FROM"]
  tables : TableReferences
  clauses : List Text

namespace FromStatement

/-- The tokens up to and with `FROM`. -/
def front (s : FromStatement) : List Text := s.lead ++ s.select.1 :: (s.items ++ [s.fromWord.1])

def marked (s : FromStatement) : List Marked :=
  unmarked s.front ++ (s.tables.marked ++ unmarked s.clauses)

/-- The tokens of the statement. -/
def tokens (s : FromStatement) : List Text := s.marked.map Prod.fst

end FromStatement

end MyLite.MariaDB

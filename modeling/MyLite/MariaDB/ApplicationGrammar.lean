import MyLite.MariaDB.Cells
import MyLite.MariaDB.UseStatement

namespace MyLite.MariaDB

open MyLite.Sql MyLite.Policy List

/-!
# Statements of an application

`CREATE TABLE`, `INSERT`, `SELECT` and `CREATE DEFINER = user VIEW` or `PROCEDURE`, built from
names, column types and literals (`create`, `insert`, `query_specification`, `view_or_trigger_or_sp`
in `sql_yacc.yy`).  The names are a parameter of the grammar, so that renaming a statement is
`map`; in a text they are spelled as words or in backticks.

* `ApplicationStatement.parts` — the words, symbols, literals and names of a statement.
* `ApplicationStatement.parts_map` — renaming changes the names and nothing else.
* `Spelling` — a text of the statement, in any case and with any blanks that keep the parts apart.
-/

variable {ν μ : Type}

/-! ### Parts -/

/-- The keywords of these statements. -/
inductive Keyword
  | create | table | insert | into | values | select | fromWord | asWord | join | definer | view
  | procedure | beginWord | endWord | inWord | out | inout | currentUser | null | unsigned
  deriving DecidableEq

/-- Their symbols. -/
inductive Symbol
  | openParen | closeParen | comma | dot | semicolon | equal | atSign
  deriving DecidableEq

/-- The types of ordinary columns. -/
inductive TypeWord
  | bit | tinyint | smallint | mediumint | int | bigint | decimal | float | double | boolean
  | int1 | int2 | int3 | middleint | int4 | integer | int8 | dec | numeric | fixed
  | float4 | real | float8 | bool | character | nchar | varcharacter | nvarchar | long
  | char | varchar | binary | varbinary | tinytext | text | mediumtext | longtext
  | tinyblob | blob | mediumblob | longblob | enum | set | json
  | date | time | datetime | timestamp | year
  deriving DecidableEq

def Keyword.string : Keyword → String
  | create => "CREATE" | table => "TABLE" | insert => "INSERT" | into => "INTO"
  | values => "VALUES" | select => "SELECT" | fromWord => "FROM" | asWord => "AS"
  | join => "JOIN" | definer => "DEFINER" | view => "VIEW" | procedure => "PROCEDURE"
  | beginWord => "BEGIN" | endWord => "END" | inWord => "IN" | out => "OUT" | inout => "INOUT"
  | currentUser => "CURRENT_USER" | null => "NULL" | unsigned => "UNSIGNED"

def Symbol.byte : Symbol → UInt8
  | openParen => 0x28 | closeParen => 0x29 | comma => 0x2C | dot => 0x2E | semicolon => 0x3B
  | equal => 0x3D | atSign => 0x40

def TypeWord.string : TypeWord → String
  | bit => "BIT" | tinyint => "TINYINT" | smallint => "SMALLINT" | mediumint => "MEDIUMINT"
  | int => "INT" | bigint => "BIGINT" | decimal => "DECIMAL" | float => "FLOAT"
  | int1 => "INT1" | int2 => "INT2" | int3 => "INT3" | middleint => "MIDDLEINT" | int4 => "INT4"
  | integer => "INTEGER" | int8 => "INT8" | dec => "DEC" | numeric => "NUMERIC"
  | fixed => "FIXED" | float4 => "FLOAT4" | real => "REAL" | float8 => "FLOAT8" | bool => "BOOL"
  | character => "CHARACTER" | nchar => "NCHAR" | varcharacter => "VARCHARACTER"
  | nvarchar => "NVARCHAR" | long => "LONG"
  | double => "DOUBLE" | boolean => "BOOLEAN" | char => "CHAR" | varchar => "VARCHAR"
  | binary => "BINARY" | varbinary => "VARBINARY" | tinytext => "TINYTEXT" | text => "TEXT"
  | mediumtext => "MEDIUMTEXT" | longtext => "LONGTEXT" | tinyblob => "TINYBLOB" | blob => "BLOB"
  | mediumblob => "MEDIUMBLOB" | longblob => "LONGBLOB" | enum => "ENUM" | set => "SET"
  | json => "JSON" | date => "DATE" | time => "TIME" | datetime => "DATETIME"
  | timestamp => "TIMESTAMP" | year => "YEAR"

/-- The digits of a number. -/
abbrev Digits := { digits : Text // digits ≠ [] ∧ digits.all isDigit = true }

/-- A string literal, with backslash escapes and doubled quotes. -/
structure QuotedText where
  quote : UInt8
  isQuote : quote = byteQuote ∨ quote = byteDoubleQuote
  body : Text
  isBody : QuotedBody true quote body

/-- What a statement is made of. -/
inductive Lexeme (ν : Type)
  | keyword (word : Keyword)
  | symbol (symbol : Symbol)
  | type (word : TypeWord)
  | number (whole : Digits) (fraction : Option Digits)
  | text (literal : QuotedText)
  | name (name : ν)

variable (f : ν → μ)

def Lexeme.map : Lexeme ν → Lexeme μ
  | keyword word => keyword word
  | symbol s => symbol s
  | type word => type word
  | number whole fraction => number whole fraction
  | text literal => text literal
  | name n => name (f n)

def Lexeme.name? : Lexeme ν → Option ν
  | name n => some n
  | _ => none

def Lexeme.isSymbol : Lexeme ν → Bool
  | symbol _ => true
  | _ => false

/-- Lists of parts with commas between them. -/
def commaList : List (List (Lexeme ν)) → List (Lexeme ν)
  | [] => []
  | [x] => x
  | x :: y :: rest => x ++ .symbol .comma :: commaList (y :: rest)

/-- Parts in parentheses. -/
def parens (parts : List (Lexeme ν)) : List (Lexeme ν) :=
  .symbol .openParen :: (parts ++ [.symbol .closeParen])

theorem commaList_map (xs : List (List (Lexeme ν))) :
    (commaList xs).map (Lexeme.map f) = commaList (xs.map (List.map (Lexeme.map f))) := by
  induction xs with
  | nil => rfl
  | cons x xs ih =>
    cases xs with
    | nil => rfl
    | cons y rest =>
      rw [commaList, map_append, map_cons, ih]
      rfl

theorem parens_map (parts : List (Lexeme ν)) :
    (parens parts).map (Lexeme.map f) = parens (parts.map (Lexeme.map f)) := by
  simp [parens, Lexeme.map]

/-- `commaList` over a list of things that know their own parts. -/
theorem commaList_map_map {α β : Type} (g : α → β) (parts : α → List (Lexeme ν))
    (parts' : β → List (Lexeme μ)) (h : ∀ a, parts' (g a) = (parts a).map (Lexeme.map f))
    (xs : List α) :
    commaList ((xs.map g).map parts') = (commaList (xs.map parts)).map (Lexeme.map f) := by
  rw [commaList_map, map_map, map_map]
  congr 1
  exact map_congr_left fun a _ => h a

/-! ### Names, literals and types -/

/-- `table_ident`, also of a view or a procedure. -/
structure TableName (ν : Type) where
  schema : Option ν
  name : ν

/-- A column with the names in front of it. -/
structure ColumnName (ν : Type) where
  qualifiers : List ν
  name : ν

/-- An alias, with `AS` or without. -/
structure Alias (ν : Type) where
  withAs : Bool
  name : ν

/-- A literal of `VALUES`. -/
inductive Literal
  | null
  | number (whole : Digits) (fraction : Option Digits)
  | text (literal : QuotedText)

/-- A column type with its parameters. -/
structure ColumnType where
  word : TypeWord
  params : List Literal
  unsigned : Bool

def TableName.parts (t : TableName ν) : List (Lexeme ν) :=
  (t.schema.toList.flatMap fun schema => [.name schema, .symbol .dot]) ++ [.name t.name]

def TableName.map (t : TableName ν) : TableName μ := ⟨t.schema.map f, f t.name⟩

def ColumnName.parts (c : ColumnName ν) : List (Lexeme ν) :=
  (c.qualifiers.flatMap fun qualifier => [.name qualifier, .symbol .dot]) ++ [.name c.name]

def ColumnName.map (c : ColumnName ν) : ColumnName μ :=
  ⟨c.qualifiers.map f, f c.name⟩

def Alias.parts (a : Alias ν) : List (Lexeme ν) :=
  if a.withAs then [.keyword .asWord, .name a.name] else [.name a.name]

def Alias.map (a : Alias ν) : Alias μ := ⟨a.withAs, f a.name⟩

def Literal.parts : Literal → List (Lexeme ν)
  | null => [.keyword .null]
  | number whole fraction => [.number whole fraction]
  | text literal => [.text literal]

def ColumnType.parts (t : ColumnType) : List (Lexeme ν) :=
  .type t.word :: ((if t.params.isEmpty then [] else parens
    (commaList (t.params.map Literal.parts)))
    ++ if t.unsigned then [.keyword .unsigned] else [])

/-! ### Queries and inserts -/

/-- A column of a query. -/
structure SelectItem (ν : Type) where
  column : ColumnName ν
  label : Option (Alias ν)

/-- A table of a query. -/
structure TableRef (ν : Type) where
  table : TableName ν
  label : Option (Alias ν)

/-- `SELECT` of columns from tables, the further ones behind a comma (`false`) or `JOIN`. -/
structure Query (ν : Type) where
  items : List (SelectItem ν)
  table : TableRef ν
  more : List (Bool × TableRef ν)

/-- `INSERT INTO table (columns) VALUES (literals), …`. -/
structure Insert (ν : Type) where
  table : TableName ν
  columns : List ν
  rows : List (List Literal)

def SelectItem.parts (i : SelectItem ν) : List (Lexeme ν) :=
  i.column.parts ++ i.label.toList.flatMap Alias.parts

def SelectItem.map (i : SelectItem ν) : SelectItem μ :=
  ⟨i.column.map f, i.label.map (Alias.map f)⟩

def TableRef.parts (t : TableRef ν) : List (Lexeme ν) :=
  t.table.parts ++ t.label.toList.flatMap Alias.parts

def TableRef.map (t : TableRef ν) : TableRef μ :=
  ⟨t.table.map f, t.label.map (Alias.map f)⟩

def Query.parts (q : Query ν) : List (Lexeme ν) :=
  .keyword .select :: (commaList (q.items.map SelectItem.parts) ++
    .keyword .fromWord :: (q.table.parts ++ q.more.flatMap fun (isJoin, table) =>
      (if isJoin then .keyword .join else .symbol .comma) :: table.parts))

def Query.map (q : Query ν) : Query μ :=
  ⟨q.items.map (SelectItem.map f), q.table.map f,
    q.more.map fun (isJoin, table) => (isJoin, table.map f)⟩

def Insert.parts (i : Insert ν) : List (Lexeme ν) :=
  .keyword .insert :: .keyword .into :: (i.table.parts ++
    (parens (commaList (i.columns.map fun column => [.name column])) ++
      .keyword .values :: commaList (i.rows.map fun row =>
        parens (commaList (row.map Literal.parts)))))

def Insert.map (i : Insert ν) : Insert μ := ⟨i.table.map f, i.columns.map f, i.rows⟩

/-! ### Statements -/

/-- A column of a new table. -/
structure Column (ν : Type) where
  name : ν
  type : ColumnType

/-- A part of an account: `ident_or_text`. -/
inductive AccountPart (ν : Type)
  | ident (name : ν)
  | text (literal : QuotedText)

/-- `user`. -/
inductive User (ν : Type)
  | current
  | account (user : AccountPart ν) (host : Option (AccountPart ν))

/-- A parameter of a procedure, with `IN`, `OUT` or `INOUT` or nothing in front. -/
structure Param (ν : Type) where
  mode : Option { word : Keyword // word = .inWord ∨ word = .out ∨ word = .inout }
  name : ν
  type : ColumnType

/-- A statement on the rows of tables. -/
inductive RowStatement (ν : Type)
  | insert (insert : Insert ν)
  | select (query : Query ν)

/-- The body of a procedure: a statement, or several between `BEGIN` and `END`. -/
inductive Body (ν : Type)
  | single (statement : RowStatement ν)
  | block (statements : List (RowStatement ν))

/-- A statement of an application. -/
inductive ApplicationStatement (ν : Type)
  | createTable (table : TableName ν) (columns : List (Column ν))
  | rows (statement : RowStatement ν)
  | createView (definer : User ν) (view : TableName ν) (columns : List ν) (query : Query ν)
  | createProcedure (definer : User ν) (procedure : TableName ν) (params : List (Param ν))
      (body : Body ν)

def Column.parts (c : Column ν) : List (Lexeme ν) := .name c.name :: c.type.parts

def Column.map (c : Column ν) : Column μ := ⟨f c.name, c.type⟩

def AccountPart.parts : AccountPart ν → List (Lexeme ν)
  | ident name => [.name name]
  | text literal => [.text literal]

def AccountPart.map : AccountPart ν → AccountPart μ
  | ident name => ident (f name)
  | text literal => text literal

def User.parts : User ν → List (Lexeme ν)
  | current => [.keyword .currentUser]
  | account user host => user.parts ++ host.toList.flatMap fun host => .symbol .atSign :: host.parts

def User.map : User ν → User μ
  | current => current
  | account user host => account (user.map f) (host.map (AccountPart.map f))

def Param.parts (p : Param ν) : List (Lexeme ν) :=
  (p.mode.toList.map fun mode => .keyword mode.1) ++ .name p.name :: p.type.parts

def Param.map (p : Param ν) : Param μ := ⟨p.mode, f p.name, p.type⟩

def RowStatement.parts : RowStatement ν → List (Lexeme ν)
  | insert i => i.parts
  | select q => q.parts

def RowStatement.map : RowStatement ν → RowStatement μ
  | insert i => insert (i.map f)
  | select q => select (q.map f)

def Body.parts : Body ν → List (Lexeme ν)
  | single statement => statement.parts
  | block statements => .keyword .beginWord ::
    ((statements.flatMap fun s => s.parts ++ [.symbol .semicolon]) ++ [.keyword .endWord])

def Body.map : Body ν → Body μ
  | single statement => single (statement.map f)
  | block statements => block (statements.map (RowStatement.map f))

namespace ApplicationStatement

/-- `CREATE DEFINER = user`. -/
def definerParts (definer : User ν) : List (Lexeme ν) :=
  .keyword .create :: .keyword .definer :: .symbol .equal :: definer.parts

/-- The parts of a statement, in order. -/
def parts : ApplicationStatement ν → List (Lexeme ν)
  | createTable table columns => .keyword .create :: .keyword .table ::
    (table.parts ++ parens (commaList (columns.map Column.parts)))
  | rows statement => statement.parts
  | createView definer view columns query => definerParts definer ++
    .keyword .view :: (view.parts ++
      ((if columns.isEmpty then [] else
          parens (commaList (columns.map fun column => [.name column]))) ++
        .keyword .asWord :: query.parts))
  | createProcedure definer procedure params body => definerParts definer ++
    .keyword .procedure :: (procedure.parts ++
      (parens (commaList (params.map Param.parts)) ++ body.parts))

/-- The statement with other names. -/
def map (f : ν → μ) : ApplicationStatement ν → ApplicationStatement μ
  | createTable table columns => createTable (table.map f) (columns.map (Column.map f))
  | rows statement => rows (statement.map f)
  | createView definer view columns query =>
    createView (definer.map f) (view.map f) (columns.map f) (query.map f)
  | createProcedure definer procedure params body =>
    createProcedure (definer.map f) (procedure.map f) (params.map (Param.map f)) (body.map f)

/-- The statement has a `DEFINER` clause. -/
def hasDefiner : ApplicationStatement ν → Bool
  | createView .. => true
  | createProcedure .. => true
  | _ => false

/-- The names in the statement. -/
def names (s : ApplicationStatement ν) : List ν := s.parts.filterMap Lexeme.name?

end ApplicationStatement

/-! ### Renaming -/

theorem Literal.parts_map (l : Literal) :
    (l.parts : List (Lexeme ν)).map (Lexeme.map f) = l.parts := by
  cases l with
  | null | number whole fraction | text literal => rfl

theorem literals_map (ls : List Literal) :
    (commaList (ls.map Literal.parts) : List (Lexeme ν)).map (Lexeme.map f) =
      commaList (ls.map Literal.parts) := by
  rw [commaList_map, map_map]
  congr 1
  exact map_congr_left fun l _ => l.parts_map f

theorem ColumnType.parts_map (t : ColumnType) :
    (t.parts : List (Lexeme ν)).map (Lexeme.map f) = t.parts := by
  unfold ColumnType.parts
  cases t.unsigned <;> cases t.params.isEmpty <;>
    simp [parens_map, literals_map, Lexeme.map]

theorem TableName.parts_map (t : TableName ν) : (t.map f).parts = t.parts.map (Lexeme.map f) := by
  cases h : t.schema with
  | none | some schema => simp [TableName.parts, TableName.map, Lexeme.map, h]

theorem ColumnName.parts_map (c : ColumnName ν) : (c.map f).parts = c.parts.map (Lexeme.map f) := by
  simp [ColumnName.parts, ColumnName.map, Lexeme.map, flatMap_map, map_flatMap]

theorem Alias.parts_map (a : Alias ν) : (a.map f).parts = a.parts.map (Lexeme.map f) := by
  cases h : a.withAs <;> simp [Alias.parts, Alias.map, Lexeme.map, h]

theorem labels_map (label : Option (Alias ν)) :
    (label.map (Alias.map f)).toList.flatMap Alias.parts =
      (label.toList.flatMap Alias.parts).map (Lexeme.map f) := by
  cases label with
  | none => rfl
  | some a => simp [Alias.parts_map]

theorem SelectItem.parts_map (i : SelectItem ν) : (i.map f).parts = i.parts.map (Lexeme.map f) := by
  simp [SelectItem.parts, SelectItem.map, ColumnName.parts_map, labels_map]

theorem TableRef.parts_map (t : TableRef ν) : (t.map f).parts = t.parts.map (Lexeme.map f) := by
  simp [TableRef.parts, TableRef.map, TableName.parts_map, labels_map]

theorem names_parts_map (columns : List ν) :
    commaList ((columns.map f).map fun column => [Lexeme.name column]) =
      (commaList (columns.map fun column => [Lexeme.name column])).map (Lexeme.map f) :=
  commaList_map_map f f _ _ (fun _ => rfl) columns

theorem Query.parts_map (q : Query ν) : (q.map f).parts = q.parts.map (Lexeme.map f) := by
  have hitems := commaList_map_map f (SelectItem.map f) _ _ (SelectItem.parts_map f) q.items
  have hmore : ((q.map f).more.flatMap fun (isJoin, table) =>
      (if isJoin then .keyword .join else .symbol .comma) :: table.parts) =
      (q.more.flatMap fun (isJoin, table) =>
        (if isJoin then .keyword .join else .symbol .comma) :: table.parts).map (Lexeme.map f) := by
    rw [Query.map, flatMap_map, map_flatMap]
    refine flatMap_congr ?_
    rintro ⟨isJoin, table⟩ -
    cases isJoin <;> simp [TableRef.parts_map, Lexeme.map]
  simp only [Query.parts, map_cons, map_append, hmore]
  simp only [Query.map, hitems, TableRef.parts_map, Lexeme.map]

theorem Insert.parts_map (i : Insert ν) : (i.map f).parts = i.parts.map (Lexeme.map f) := by
  have hrows : (commaList (i.rows.map fun row => parens (commaList (row.map Literal.parts))) :
      List (Lexeme ν)).map (Lexeme.map f) =
        commaList (i.rows.map fun row => parens (commaList (row.map Literal.parts))) := by
    rw [commaList_map, map_map]
    congr 1
    exact map_congr_left fun row _ => by
      rw [Function.comp_apply, parens_map, literals_map]
  simp only [Insert.parts, map_cons, map_append, parens_map, hrows]
  simp only [Insert.map, names_parts_map, TableName.parts_map, Lexeme.map]

theorem RowStatement.parts_map (s : RowStatement ν) :
    (s.map f).parts = s.parts.map (Lexeme.map f) := by
  cases s with
  | insert i => exact i.parts_map f
  | select q => exact q.parts_map f

theorem AccountPart.parts_map (p : AccountPart ν) :
    (p.map f).parts = p.parts.map (Lexeme.map f) := by
  cases p with
  | ident name | text literal => rfl

theorem User.parts_map (u : User ν) : (u.map f).parts = u.parts.map (Lexeme.map f) := by
  cases u with
  | current => rfl
  | account user host =>
    cases host <;> simp [User.parts, User.map, AccountPart.parts_map, Lexeme.map]

theorem Body.parts_map (b : Body ν) : (b.map f).parts = b.parts.map (Lexeme.map f) := by
  cases b with
  | single s => exact s.parts_map f
  | block ss =>
    simp [Body.parts, Body.map, flatMap_map, map_flatMap, RowStatement.parts_map,
      Lexeme.map]

theorem Column.parts_map (c : Column ν) : (c.map f).parts = c.parts.map (Lexeme.map f) := by
  simp only [Column.parts, Column.map, map_cons, Lexeme.map, ColumnType.parts_map]

theorem Param.parts_map (p : Param ν) : (p.map f).parts = p.parts.map (Lexeme.map f) := by
  simp only [Param.parts, Param.map, map_cons, map_append, map_map, Lexeme.map,
    ColumnType.parts_map]
  congr 1

namespace ApplicationStatement

/-- **Renaming.** The renamed statement has the same parts with other names. -/
theorem parts_map (f : ν → μ) (s : ApplicationStatement ν) :
    (s.map f).parts = s.parts.map (Lexeme.map f) := by
  cases s with
  | createTable table columns =>
    have hcolumns := commaList_map_map f (Column.map f) _ _ (Column.parts_map f) columns
    simp only [parts, map, map_cons, map_append, parens_map, hcolumns,
      TableName.parts_map, Lexeme.map]
  | rows statement => exact statement.parts_map f
  | createView definer view columns query =>
    simp only [parts, map, definerParts, map_cons, map_append, User.parts_map,
      TableName.parts_map, Query.parts_map, Lexeme.map, isEmpty_map]
    cases columns.isEmpty with
    | true => rfl
    | false => simp only [Bool.false_eq_true, if_false, names_parts_map, parens_map]
  | createProcedure definer procedure params body =>
    have hparams := commaList_map_map f (Param.map f) _ _ (Param.parts_map f) params
    simp only [parts, map, definerParts, map_cons, map_append, parens_map, hparams,
      User.parts_map, TableName.parts_map, Body.parts_map, Lexeme.map]

theorem names_map (f : ν → μ) (s : ApplicationStatement ν) : (s.map f).names = s.names.map f := by
  have hname : Lexeme.name? ∘ Lexeme.map f = fun p : Lexeme ν => p.name?.map f := by
    funext p
    cases p <;> rfl
  rw [names, names, parts_map, filterMap_map, hname, map_filterMap]

end ApplicationStatement

/-! ### Texts -/

/-- The bytes a part may be written with. -/
def Lexeme.SpelledBy : Lexeme DatabaseName → Text → Prop
  | .keyword word, bytes => tokenEquals bytes word.string = true
  | .symbol s, bytes => bytes = [s.byte]
  | .type word, bytes => tokenEquals bytes word.string = true
  | .number whole none, bytes => bytes = whole.1
  | .number whole (some fraction), bytes => bytes = whole.1 ++ byteDot :: fraction.1
  | .text literal, bytes => bytes = literal.quote :: (literal.body ++ [literal.quote])
  | .name n, bytes => bytes = n.spelling

/-- A part in a text, with the blanks behind it. -/
structure Slot where
  part : Lexeme DatabaseName
  text : Text
  spelled : part.SpelledBy text
  gap : Text
  isBlank : gap.all isSqlSpace = true

/-- Only next to a symbol there may be no blank. -/
def WellSpaced : List Slot → Prop
  | slot :: next :: rest =>
    (slot.gap = [] → slot.part.isSymbol = true ∨ next.part.isSymbol = true) ∧
      WellSpaced (next :: rest)
  | _ => True

/-- The bytes of some parts. -/
def slotsText (slots : List Slot) : Text := slots.flatMap fun slot => slot.text ++ slot.gap

/-- A text of the statement. -/
structure Spelling (s : ApplicationStatement DatabaseName) where
  slots : List Slot
  parts_eq : slots.map Slot.part = s.parts
  wellSpaced : WellSpaced slots

def Spelling.text {s : ApplicationStatement DatabaseName} (sp : Spelling s) : Text :=
  slotsText sp.slots

/-- A part in upper case. -/
def Lexeme.bytes : Lexeme DatabaseName → Text
  | .keyword word => ascii word.string
  | .symbol s => [s.byte]
  | .type word => ascii word.string
  | .number whole none => whole.1
  | .number whole (some fraction) => whole.1 ++ byteDot :: fraction.1
  | .text literal => literal.quote :: (literal.body ++ [literal.quote])
  | .name n => n.spelling

theorem Lexeme.spelledBy_bytes (p : Lexeme DatabaseName) : p.SpelledBy p.bytes := by
  match p with
  | .keyword word | .type word => exact beq_self_eq_true _
  | .number whole none | .number whole (some fraction) | .symbol s | .text literal | .name n => rfl

/-- The text with one space behind every part. -/
def Spelling.plain (s : ApplicationStatement DatabaseName) : Spelling s where
  slots := s.parts.map fun p => ⟨p, p.bytes, p.spelledBy_bytes, [byteSpace], by decide⟩
  parts_eq := by
    rw [map_map]
    exact map_id _
  wellSpaced := by
    induction s.parts with
    | nil => trivial
    | cons p rest ih =>
      cases rest with
      | nil => trivial
      | cons next rest => exact ⟨fun hgap => absurd hgap (cons_ne_nil _ _), ih⟩

end MyLite.MariaDB

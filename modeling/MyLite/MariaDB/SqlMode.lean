import Mathlib.Algebra.Group.Nat.Defs
import MyLite.MariaDB.SetGrammar

namespace MyLite.MariaDB

open MyLite.Sql MyLite.Policy

/-!
# The value of `sql_mode`

`Sys_sql_mode` is a set variable: a string is read as a list of mode names with commas between
them, an integer as a bit mask over the same names.  `expand_sql_mode` then adds the modes that
come with some others.
-/

/-- `sql_mode_names`; the position of a name is its bit. -/
def sqlModeNames : List String :=
  ["REAL_AS_FLOAT", "PIPES_AS_CONCAT", "ANSI_QUOTES", "IGNORE_SPACE", "IGNORE_BAD_TABLE_OPTIONS",
    "ONLY_FULL_GROUP_BY", "NO_UNSIGNED_SUBTRACTION", "NO_DIR_IN_CREATE", "POSTGRESQL", "ORACLE",
    "MSSQL", "DB2", "MAXDB", "NO_KEY_OPTIONS", "NO_TABLE_OPTIONS", "NO_FIELD_OPTIONS", "MYSQL323",
    "MYSQL40", "ANSI", "NO_AUTO_VALUE_ON_ZERO", "NO_BACKSLASH_ESCAPES", "STRICT_TRANS_TABLES",
    "STRICT_ALL_TABLES", "NO_ZERO_IN_DATE", "NO_ZERO_DATE", "ALLOW_INVALID_DATES",
    "ERROR_FOR_DIVISION_BY_ZERO", "TRADITIONAL", "NO_AUTO_CREATE_USER", "HIGH_NOT_PRECEDENCE",
    "NO_ENGINE_SUBSTITUTION", "PAD_CHAR_TO_FULL_LENGTH", "EMPTY_STRING_IS_NULL",
    "SIMULTANEOUS_ASSIGNMENT", "TIME_ROUND_FRACTIONAL"]

/-- A set of modes, as their bits. -/
abbrev SqlMode := List ℕ

/-- The bit of `MODE_ORACLE`. -/
def modeOracle : ℕ := 9

/-- The bit of `MODE_NO_BACKSLASH_ESCAPES`. -/
def modeNoBackslashEscapes : ℕ := 20

/-- Every mode. -/
def allModes : SqlMode := List.range sqlModeNames.length

/-- The modes `expand_sql_mode` adds. -/
def expandedModes (mode : SqlMode) : SqlMode :=
  (if 18 ∈ mode then [0, 1, 2, 3] else []) ++
  (if modeOracle ∈ mode then [1, 2, 3, 13, 14, 15, 28, 33] else []) ++
  (if 10 ∈ mode then [1, 2, 3, 13, 14, 15] else []) ++
  (if 8 ∈ mode then [1, 2, 3, 13, 14, 15] else []) ++
  (if 11 ∈ mode then [1, 2, 3, 13, 14, 15] else []) ++
  (if 12 ∈ mode then [1, 2, 3, 13, 14, 15, 28] else []) ++
  (if 17 ∈ mode then [29] else []) ++
  (if 16 ∈ mode then [29] else []) ++
  (if 27 ∈ mode then [21, 22, 23, 24, 26, 28, 30] else [])

/-- `expand_sql_mode`. -/
def expandSqlMode (mode : SqlMode) : SqlMode := mode ++ expandedModes mode

/-- The pieces of a text between commas. -/
def splitCommas : Text → List Text
  | [] => [[]]
  | c :: rest =>
    if c == 0x2C then [] :: splitCommas rest
    else
      match splitCommas rest with
      | piece :: pieces => (c :: piece) :: pieces
      | [] => [[c]]

/-- A text without the spaces at its end. -/
def stripSpaces (text : Text) : Text := (text.reverse.dropWhile (· == byteSpace)).reverse

/-- `find_type`: a mode name in any case. -/
def findMode (piece : Text) : Option ℕ := sqlModeNames.findIdx? (tokenEquals piece)

/-- `Sys_var_set::do_check` of a string: an unknown name is an error unless it is empty, and the
    word `ALL` stands for every mode. -/
def sqlModeOfString (value : Text) : Option SqlMode :=
  let pieces := splitCommas (stripSpaces value)
  if pieces.all fun piece => piece.isEmpty || (findMode piece).isSome then
    some (pieces.filterMap findMode)
  else if tokenEquals (stripSpaces value) "ALL" then some allModes
  else none

/-- `Sys_var_set::do_check` of an integer. -/
def sqlModeOfInt (value : ℕ) : Option SqlMode :=
  if value < 2 ^ sqlModeNames.length then some (allModes.filter value.testBit) else none

/-! ### Literals

The value expressions of a `SET` statement that are a string literal, also in several adjacent
pieces, or an integer literal: their tokens as the policy cuts them, and the modes MariaDB makes
of them. -/

/-- `TEXT_STRING_literal`: one piece in quotes, as `get_text` reads it to its end. -/
structure TextPiece where
  quote : UInt8
  isQuote : quote = byteQuote ∨ quote = byteDoubleQuote
  body : Text
  value : Text
  closed : getText defaultSession quote (body ++ [quote]) = some (value, [])

/-- The tokens of the piece: a doubled quote in it starts a further token. -/
def TextPiece.tokens (piece : TextPiece) : List Text :=
  sqlTokens (piece.quote :: (piece.body ++ [piece.quote]))

/-- A literal in a value. -/
inductive ModeLiteral
  /-- `text_literal`: a piece and those that follow it directly. -/
  | text (first : TextPiece) (rest : List TextPiece)
  /-- `NUM`. -/
  | integer (digits : Text) (isNumber : digits ≠ [] ∧ digits.all isDigit = true)

namespace ModeLiteral

def tokens : ModeLiteral → List Text
  | text first rest => (first :: rest).flatMap TextPiece.tokens
  | integer digits _ => [digits]

/-- The number some digits denote. -/
def ofDigits (digits : Text) : ℕ := digits.foldl (fun n b => 10 * n + (b.toNat - 0x30)) 0

/-- The modes of the value, as `Sys_var_set::do_check` reads it. -/
def mode : ModeLiteral → Option SqlMode
  | text first rest => sqlModeOfString ((first :: rest).flatMap TextPiece.value)
  | integer digits _ => sqlModeOfInt (ofDigits digits)

/-- MariaDB accepts the value, and Oracle mode is on with it. -/
def EnablesOracle (literal : ModeLiteral) : Prop :=
  ∃ mode, literal.mode = some mode ∧ modeOracle ∈ expandSqlMode mode

end ModeLiteral

/-- The variable and the value tokens of an option value that assigns a system variable. -/
def SetItem.assignment : SetItem → Option (Text × List Text)
  | .bare name _ value => some (name.value, value.1)
  | .scoped _ name _ value => some (name.value, value.1)
  | .system _ name _ value => some (name.value, value.1)
  | .other _ _ _ => none

/-- Some option value assigns `sql_mode` a literal that turns Oracle mode on. -/
def SetStatement.EnablesOracle (d : SetStatement) : Prop :=
  ∃ item ∈ d.items, ∃ name literal, item.assignment = some (name, ModeLiteral.tokens literal) ∧
    tokenEquals name "SQL_MODE" = true ∧ literal.EnablesOracle

end MyLite.MariaDB

import Mathlib.Data.List.Basic
import Mathlib.Data.Fintype.Basic

namespace MyLite.Sql

/-!
# SQL text as bytes

The scanners of this development read raw bytes, as the sources do: a statement is a
`List UInt8`, and a position in it is a suffix of that list (`sql.substr(offset)`).  This
file fixes the byte names, the character classes of `database.cc` (`is_sql_space`,
`is_sql_identifier_char`) and the ASCII upper-casing its comparisons use.
-/

/-- A token, or any other stretch of SQL text: the bytes of a `std::string_view`. -/
abbrev Text := List UInt8

/-! ### Byte names -/

@[match_pattern] abbrev byteNul : UInt8 := 0x00
@[match_pattern] abbrev byteNewline : UInt8 := 0x0A
@[match_pattern] abbrev byteSpace : UInt8 := 0x20
@[match_pattern] abbrev byteBang : UInt8 := 0x21
@[match_pattern] abbrev byteDoubleQuote : UInt8 := 0x22
@[match_pattern] abbrev byteHash : UInt8 := 0x23
@[match_pattern] abbrev byteQuote : UInt8 := 0x27
@[match_pattern] abbrev byteStar : UInt8 := 0x2A
@[match_pattern] abbrev byteDash : UInt8 := 0x2D
@[match_pattern] abbrev byteDot : UInt8 := 0x2E
@[match_pattern] abbrev byteSlash : UInt8 := 0x2F
@[match_pattern] abbrev byteEqual : UInt8 := 0x3D
@[match_pattern] abbrev byteAt : UInt8 := 0x40
@[match_pattern] abbrev byteBackslash : UInt8 := 0x5C
@[match_pattern] abbrev byteBacktick : UInt8 := 0x60

/-- The bytes of an ASCII string literal of the source. -/
def ascii (s : String) : Text := s.toList.map Char.toUInt8

/-- A statement about every byte is decided by trying the 256 of them. -/
instance decidableForallByte (p : UInt8 → Prop) [DecidablePred p] : Decidable (∀ b, p b) :=
  decidable_of_iff (∀ i : Fin 256, p (UInt8.ofFin i))
    ⟨fun h b => h b.toFin, fun h _ => h _⟩

/-! ### Character classes -/

/-- `is_sql_space`. -/
def isSqlSpace (value : UInt8) : Bool :=
  value == 0x20 || value == 0x09 || value == 0x0A || value == 0x0D || value == 0x0C

/-- A decimal digit, as `enter_executable_sql_comment` skips them. -/
def isDigit (value : UInt8) : Bool := 0x30 ≤ value && value ≤ 0x39

/-- `is_sql_identifier_char`. -/
def isSqlIdentifierChar (value : UInt8) : Bool :=
  (0x61 ≤ value && value ≤ 0x7A) || (0x41 ≤ value && value ≤ 0x5A) || isDigit value ||
    value == 0x5F

/-- The three bytes that open a quoted token in `next_sql_token`. -/
def isQuoteByte (value : UInt8) : Bool :=
  value == byteQuote || value == byteDoubleQuote || value == byteBacktick

theorem isSqlIdentifierChar_of_isDigit {b : UInt8} (h : isDigit b = true) :
    isSqlIdentifierChar b = true := by
  simp [isSqlIdentifierChar, h]

theorem not_isSqlIdentifierChar_of_isSqlSpace :
    ∀ c : UInt8, isSqlSpace c = true → isSqlIdentifierChar c = false := by
  decide +kernel

/-! ### Case folding -/

/-- The in-place upper-casing of `token_equals`: only `a`..`z` change. -/
def upperByte (c : UInt8) : UInt8 := if 0x61 ≤ c && c ≤ 0x7A then c - 0x20 else c

/-- A token with every ASCII letter in upper case. -/
def fold (token : Text) : Text := token.map upperByte

@[simp] theorem length_fold (token : Text) : (fold token).length = token.length := by
  simp [fold]

theorem upperByte_upperByte : ∀ c : UInt8, upperByte (upperByte c) = upperByte c := by
  decide +kernel

@[simp] theorem fold_fold (token : Text) : fold (fold token) = fold token := by
  simp [fold, upperByte_upperByte]

theorem isSqlIdentifierChar_upperByte :
    ∀ c : UInt8, isSqlIdentifierChar (upperByte c) = isSqlIdentifierChar c := by
  decide +kernel

end MyLite.Sql

import MyLite.MariaDB.StringLiteral

namespace MyLite.Php

open MyLite.Sql MyLite.MariaDB

/-!
# Escaping of string literals in the PHP extensions

`php_mylite_mysqli_escape_sql` and `pdo_mylite_quote_string` write a backslash and a letter for
seven bytes and every other byte as it is.  The lexer reads the result back in any session with
backslash escapes whose character set keeps escapes apart: the multi-byte characters it passes
over are then made of unescaped bytes only, whatever bytes the value has.

* `encodesByte_escapeByte` — every byte is written as the lexer reads it.
* `getText_escapeSql` — the literal ends at its closing quote and has the value it was made from.
-/

/-- The byte written behind a backslash for `c`, where `c` is escaped. -/
def escapeLetter (c : UInt8) : Option UInt8 :=
  if c == 0x00 then some 0x30
  else if c == 0x0A then some 0x6E
  else if c == 0x0D then some 0x72
  else if c == byteBackslash || c == byteQuote || c == byteDoubleQuote then some c
  else if c == 0x1A then some 0x5A
  else none

/-- One turn of the escaping loop. -/
def escapeByte (c : UInt8) : Text :=
  match escapeLetter c with
  | some letter => [byteBackslash, letter]
  | none => [c]

/-- The escaping loop. -/
def escapeSql (input : Text) : Text := input.flatMap escapeByte

/-- `php_mylite_mysqli_escape_sql`, what `real_escape_string` returns. -/
def phpMyliteMysqliEscapeSql (input : Text) : Text := escapeSql input

/-- `pdo_mylite_quote_string`. -/
def pdoMyliteQuoteString (input : Text) : Text := escapeSql input

/-- `pdo_mylite_handle_quoter`, what `PDO::quote` returns. -/
def pdoMyliteHandleQuoter (unquoted : Text) : Text :=
  byteQuote :: (pdoMyliteQuoteString unquoted ++ [byteQuote])

/-! ### Single bytes -/

theorem isPlainTail_of_escapeLetter :
    ∀ c : UInt8, escapeLetter c = none → isPlainTail c = true := by
  decide +kernel

theorem escapeValue_of_escapeLetter :
    ∀ c : UInt8, ∀ letter ∈ escapeLetter c, escapeValue letter = [c] := by
  have hall : ∀ c : UInt8, (escapeLetter c).all (fun letter => escapeValue letter == [c]) =
      true := by
    decide +kernel
  intro c letter hletter
  have hc := hall c
  rw [Option.mem_def.mp hletter, Option.all_some, beq_iff_eq] at hc
  exact hc

theorem escapeSql_cons (c : UInt8) (s : Text) :
    escapeSql (c :: s) = escapeByte c ++ escapeSql s := rfl

theorem escapeSql_cons_plain {c : UInt8} (h : escapeLetter c = none) (s : Text) :
    escapeSql (c :: s) = c :: escapeSql s := by
  rw [escapeSql_cons, escapeByte, h]
  rfl

theorem escapeSql_cons_escaped {c letter : UInt8} (h : escapeLetter c = some letter) (s : Text) :
    escapeSql (c :: s) = byteBackslash :: letter :: escapeSql s := by
  rw [escapeSql_cons, escapeByte, h]
  rfl

/-- At most two bytes are written for each byte. -/
theorem length_escapeSql_le (s : Text) : (escapeSql s).length ≤ 2 * s.length := by
  induction s with
  | nil => exact Nat.le_refl 0
  | cons c s ih =>
    cases h : escapeLetter c with
    | none =>
      rw [escapeSql_cons_plain h, List.length_cons, List.length_cons]
      omega
    | some letter =>
      rw [escapeSql_cons_escaped h]
      simp only [List.length_cons]
      omega

/-! ### Reading back -/

/-- A session that reads escapes as they are written. -/
def readsEscapes (cs : ParserCharset) : LexSession := ⟨cs, false⟩

/-- Every byte is written as such a session reads it. -/
theorem encodesByte_escapeByte (cs : ParserCharset) (c : UInt8) :
    EncodesByte (readsEscapes cs) c (escapeByte c) := by
  rw [escapeByte]
  cases hc : escapeLetter c with
  | none =>
    have hplain := isPlainTail_of_escapeLetter c hc
    rw [isPlainTail, Bool.and_eq_true, bne_iff_ne, bne_iff_ne] at hplain
    exact .inl ⟨rfl, hplain.2, fun hback => absurd hback hplain.1⟩
  | some letter => exact .inr (.inl ⟨letter, rfl, escapeValue_of_escapeLetter c letter hc, rfl⟩)

/-- **Reading back.** The lexer takes the escaped text up to the closing quote and unescapes it to
    the value. -/
theorem getText_escapeSql {cs : ParserCharset} (hcs : cs.keepsEscapes = true) (s : Text)
    {tail : Text} (htail : tail.head? ≠ some byteQuote) :
    getText (readsEscapes cs) byteQuote (escapeSql s ++ byteQuote :: tail) = some (s, tail) :=
  getText_flatMap hcs (encodesByte_escapeByte cs) s htail

/-- **Round trip.** In a `utf8mb4` session with backslash escapes, `real_escape_string` between
    single quotes and `PDO::quote` are read back as the value they were made from, and the escaped
    text fits into the memory reserved for it. -/
theorem escape_roundTrip (s tail : Text) (htail : tail.head? ≠ some byteQuote) :
    (getText ⟨.utf8mb4, false⟩ byteQuote (phpMyliteMysqliEscapeSql s ++ byteQuote :: tail)
        = some (s, tail) ∧
      (phpMyliteMysqliEscapeSql s).length ≤ 2 * s.length) ∧
    ∃ text, pdoMyliteHandleQuoter s ++ tail = byteQuote :: text ∧
      getText ⟨.utf8mb4, false⟩ byteQuote text = some (s, tail) ∧
      (pdoMyliteQuoteString s).length ≤ 2 * s.length := by
  have hread := getText_escapeSql (show ParserCharset.utf8mb4.keepsEscapes = true from rfl) s htail
  refine ⟨⟨hread, length_escapeSql_le s⟩, escapeSql s ++ byteQuote :: tail, ?_, hread,
    length_escapeSql_le s⟩
  rw [pdoMyliteHandleQuoter, pdoMyliteQuoteString, List.cons_append, List.append_assoc]
  rfl

theorem escape_roundTrip_invalid :
    getText ⟨.utf8mb4, false⟩ byteQuote
        (phpMyliteMysqliEscapeSql [0x00, 0xE2, 0x82, byteQuote, 0xFF, byteBackslash] ++
          byteQuote :: ascii " OR 1")
      = some ([0x00, 0xE2, 0x82, byteQuote, 0xFF, byteBackslash], ascii " OR 1") :=
  (escape_roundTrip _ _ (by decide)).1.1

end MyLite.Php

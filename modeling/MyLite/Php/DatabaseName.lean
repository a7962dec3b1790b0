import MyLite.MariaDB.LexTokens
import MyLite.Php.EntryPoints

namespace MyLite.Php

open MyLite.Sql MyLite.MariaDB

/-!
# The name in `select_db`

`php_mylite_mysqli_use_database_sql` puts a name into backticks and doubles those in it, byte by
byte.  The lexer looks for the closing backtick character by character, and the value of the name
is taken byte by byte again.

* `lexTokens_useDatabaseSql` — the statement is `USE` and the one name, whatever bytes it has.
-/

/-- The length `php_mylite_mysqli_use_database_sql` asks `zend_string_alloc` for; the zero behind
    the text has a byte of its own. -/
def useDatabaseAllocation (databaseLength : ℕ) : ℕ := (ascii "USE ``").length + databaseLength * 2

theorem useDatabaseSql_eq (database : Text) :
    useDatabaseSql database =
      ascii "USE" ++ byteSpace ::
        byteBacktick :: (doubleBackticks database ++ byteBacktick :: []) := by
  have huse : ascii "USE " = ascii "USE" ++ [byteSpace] := by decide
  rw [useDatabaseSql, huse, List.append_assoc]
  rfl

theorem length_doubleBackticks_le (name : Text) :
    (doubleBackticks name).length ≤ name.length * 2 := by
  induction name with
  | nil => exact Nat.le_refl 0
  | cons c name ih =>
    by_cases hc : c = byteBacktick
    · subst hc
      show (doubleBackticks name).length + 2 ≤ (name.length + 1) * 2
      omega
    · rw [doubleBackticks_cons hc, List.length_cons, List.length_cons]
      omega

/-- **Quoting.** The statement for any name without a zero byte is read as the word `USE` and one
    name in backticks whose value is the name, and it fits into the string that is allocated. -/
theorem lexTokens_useDatabaseSql (database : Text) (hnul : byteNul ∉ database) :
    lexTokens (cString (useDatabaseSql database))
        = some [.plain (ascii "USE"), .delimited database] ∧
      (useDatabaseSql database).length ≤ useDatabaseAllocation database.length := by
  have hlen : (useDatabaseSql database).length = (doubleBackticks database).length + 6 := by
    rw [useDatabaseSql_eq, List.length_append, List.length_cons, List.length_cons,
      List.length_append]
    have huse : (ascii "USE").length = 3 := by decide
    rw [huse, List.length_singleton]
    omega
  constructor
  · have hwhole : cString (useDatabaseSql database) = useDatabaseSql database :=
      cString_eq_self_iff.mpr fun hmem =>
        hnul ((nul_mem_statement_iff .mysqliSelectDb database).mp hmem)
    -- Four turns: the word, the space, the name and the end of the text.
    obtain ⟨n, hn⟩ : ∃ n, lexTurns .start (useDatabaseSql database) = n + 1 + 1 + 1 + 1 := by
      refine ⟨3 * (useDatabaseSql database).length - 3, ?_⟩
      show 3 * (useDatabaseSql database).length + 1 = _
      omega
    have huse : ascii "USE" = 0x55 :: [0x53, 0x45] := by decide
    have hword : (0x55 :: [0x53, 0x45] : Text).all isSqlIdentifierChar = true := by decide
    have hend : peek [] ≠ byteBacktick := by decide
    rw [hwhole, lexTokens, hn, useDatabaseSql_eq, huse,
      lexTokensLoop_word _ (by decide) (List.all_eq_true.mp hword) (.inr ⟨_, rfl⟩),
      lexTokensLoop_space,
      lexTokensLoop_delimited _ hnul hend, lexTokensLoop_nil]
    rfl
  · have hdoubled := length_doubleBackticks_le database
    have halloc : useDatabaseAllocation database.length = 6 + database.length * 2 := by
      have hframe : (ascii "USE ``").length = 6 := by decide
      rw [useDatabaseAllocation, hframe]
    omega

/-- A name of a backtick, a lead byte without its character, a backtick and a backslash. -/
theorem lexTokens_useDatabaseSql_invalid :
    lexTokens (cString (useDatabaseSql [byteBacktick, 0xE2, byteBacktick, byteBackslash]))
        = some [.plain (ascii "USE"),
          .delimited [byteBacktick, 0xE2, byteBacktick, byteBackslash]] ∧
      (useDatabaseSql [byteBacktick, 0xE2, byteBacktick, byteBackslash]).length
        ≤ useDatabaseAllocation 4 :=
  lexTokens_useDatabaseSql [byteBacktick, 0xE2, byteBacktick, byteBackslash] (by decide)

end MyLite.Php

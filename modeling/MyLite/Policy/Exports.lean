import MyLite.MariaDB.ExportGrammar
import MyLite.Policy.Window
import MyLite.Policy.SetGate

namespace MyLite.Policy

open MyLite.Lib MyLite.Sql MyLite.MariaDB

/-!
# Passwords and files

The gate on the statements that change a password and on the queries that write a file.

* `opens_export` — only parentheses stand in front of the first word of such a query.
* `rejects_export_iff` — a query that writes a file is seen if it begins with `SELECT` or `WITH`
  and its clause is among the collected tokens.
* `rejects_accountOrFile_iff` — the same for both families.
-/

/-! ### The first word -/

theorem opens_simpleTable (table : SimpleTable) : Opens table.word table.tokens := by
  cases table with
  | specification select clauses =>
    exact ⟨tokenIn_mono select.2 (by decide), 0, clauses, rfl⟩
  | constructor values rows =>
    exact ⟨tokenIn_mono values.2 (by decide), 0, rows, rfl⟩

theorem opens_queryExpression (query : QueryExpression) : Opens query.word query.tokens := by
  induction query with
  | simple table => exact opens_simpleTable table
  | parens inner ih =>
    obtain ⟨hword, n, rest, hinner⟩ := ih
    refine ⟨hword, n + 1, rest ++ [[0x29]], ?_⟩
    rw [QueryExpression.tokens, hinner, List.append_assoc, List.replicate_succ]
    rfl
  | unit left unitType right ih | tail body orderLimitLock ih => exact ih.append _

theorem opens_withClause (clause : WithClause) (rest : List Text) :
    Opens clause.word.1 (clause.tokens ++ rest) :=
  ⟨tokenIn_mono clause.word.2 (by decide), 0, clause.elements ++ rest, rfl⟩

theorem opens_export (e : ExportStatement) : Opens e.word e.tokens := by
  cases e with
  | select withClause query into lock =>
    cases withClause with
    | none => exact (opens_queryExpression query).append _
    | some clause => exact opens_withClause clause _
  | selectInto withClause select items into clauses =>
    cases withClause with
    | none => exact ⟨tokenIn_mono select.2 (by decide), 0, _, rfl⟩
    | some clause => exact opens_withClause clause _

/-! ### Queries that write a file -/

/-- The file clause is among the collected tokens and the statement begins with a word that the
    rule knows. -/
def ClauseSeen (e : ExportStatement) : Prop :=
  tokenIn e.word ["SELECT", "WITH"] = true ∧
    Adjacent (tokenEquals · "INTO") (tokenIn · ["OUTFILE", "DUMPFILE"])
      (e.tokens.take policyTokenLimit)

theorem clauseSeen_iff (e : ExportStatement) :
    isUnsupportedSelectFileStatement (e.tokens.take policyTokenLimit) = true ↔
      ClauseSeen e := by
  rw [isUnsupportedSelectFileStatement_iff, ClauseSeen]
  refine and_congr_left fun hpair => ?_
  rcases (opens_export e).identifierTokenAt_take policyTokenLimit with heq | hall
  · rw [heq]
  · -- With nothing but parentheses collected there is no clause to see.
    obtain ⟨a, b, hab, ha, -⟩ := hpair
    rw [hall a (hab.subset List.mem_cons_self)] at ha
    exact absurd ha (by decide)

theorem rejects_export_iff (currentSchema sql : Text) (e : ExportStatement)
    (h : sqlTokens sql = e.tokens) :
    rejects currentSchema sql = true ↔
      ClauseSeen e ∨
        nearbyRule currentSchema (e.tokens.take policyTokenLimit) = true := by
  rw [rejects_eq, h, (opens_export e).rejectsTokens_eq, neighbourRule_eq, Bool.or_eq_true,
    clauseSeen_iff, or_comm]

/-! ### Both families -/

/-- A statement that changes a password or writes a file. -/
inductive AccountOrFileStatement
  | password (set : SetStatement) (changes : set.ChangesPassword)
  | file (statement : ExportStatement)

namespace AccountOrFileStatement

def tokens : AccountOrFileStatement → List Text
  | password set _ => set.tokens
  | file statement => statement.tokens

/-- What the rules look for is among the collected tokens: a blocked assignment, such as
    `PASSWORD =` at the start of an option value, or the clause behind `SELECT` or `WITH`; or the
    operands of the statement hit another rule. -/
def Seen (currentSchema : Text) : AccountOrFileStatement → Prop
  | password set _ => VisiblyAssigns set ∨ ReadsSystemVariable set.tokens ∨
      isUnsupportedOracleSqlModeStatement (set.tokens.take policyTokenLimit) = true ∨
      neighbourRule currentSchema (set.tokens.take policyTokenLimit) = true
  | file statement => ClauseSeen statement ∨
      nearbyRule currentSchema (statement.tokens.take policyTokenLimit) = true

end AccountOrFileStatement

/-- `SELECT 1 INTO OUTFILE 'f'`, or the same query as `VALUES (1)`. -/
def writeFile (table : SimpleTable) : ExportStatement :=
  .select none (.simple table)
    ⟨⟨ascii "INTO", by decide⟩, ⟨ascii "OUTFILE", by decide⟩, [ascii "'f'"]⟩ []

theorem tokenIn_select : tokenIn (ascii "SELECT") ["SELECT"] = true := by
  decide

def selectOne : SimpleTable := .specification ⟨ascii "SELECT", tokenIn_select⟩ [ascii "1"]

def valuesOne : SimpleTable :=
  .constructor ⟨ascii "VALUES", by decide⟩ [ascii "(", ascii "1", ascii ")"]

/-- `SET PASSWORD FOR 'u' = 'x'`. -/
def setPasswordOfUser : SetStatement :=
  setOption (.other (["PASSWORD", "FOR", "'u'", "=", "'x'"].map ascii) (by decide) (by decide))
    rfl (by decide)

theorem changesPassword_setPasswordOfUser : setPasswordOfUser.ChangesPassword :=
  ⟨rfl, _, List.mem_cons_self, .ofUser (ascii "PASSWORD") (ascii "FOR") (by decide) (by decide)
    ⟨[ascii "'u'"], by decide⟩ .eq ⟨[ascii "'x'"], by decide⟩, rfl⟩

end MyLite.Policy

import MyLite.MariaDB.FromGrammar
import MyLite.MariaDB.LexTokens
import MyLite.Policy.Window

namespace MyLite.Policy

open MyLite.Lib MyLite.Sql MyLite.MariaDB List

/-!
# Tables of the current schema

While the current schema is `information_schema`, `has_unqualified_table_reference` looks for a
blocked name directly behind a word such as `FROM` or `JOIN`.  Here that is compared with the
shape of the `FROM` clause.

* `behindKeyword` — a blocked name behind a keyword, in one pass over the marked tokens.
* `behindKeyword_tables` — in a `FROM` clause the names that are found are the first table of the
  clause and the right operands of `JOIN`, if no parenthesis, dot or brace is in front of them.
* `rejects_namesBlocked_iff` — when a statement that names a blocked table is rejected.
-/

/-! ### One pass over the tokens -/

/-- A token with `p` directly behind a table-reference keyword, among the collected tokens.  `k`
    tokens stand in front, the last of them a keyword if `behind`. -/
def behindKeyword (p : Marked → Bool) (behind : Bool) (k : ℕ) : List Marked → Bool
  | [] => false
  | c :: cs => behind && p c && decide (k < policyTokenLimit) ||
      behindKeyword p (tableReferenceKeyword c.1) (k + 1) cs

/-- Whether the last token is a keyword, if there is one. -/
def lastKeyword (behind : Bool) : List Marked → Bool
  | [] => behind
  | c :: cs => lastKeyword (tableReferenceKeyword c.1) cs

theorem lastKeyword_concat (behind : Bool) (cs : List Marked) (c : Marked) :
    lastKeyword behind (cs ++ [c]) = tableReferenceKeyword c.1 := by
  induction cs generalizing behind with
  | nil => rfl
  | cons d cs ih => exact ih _

theorem behindKeyword_append (p : Marked → Bool) (behind : Bool) (k : ℕ) (as bs : List Marked) :
    behindKeyword p behind k (as ++ bs) =
      (behindKeyword p behind k as || behindKeyword p (lastKeyword behind as)
        (k + as.length) bs) := by
  induction as generalizing behind k with
  | nil => rfl
  | cons a as ih =>
    rw [cons_append, behindKeyword, behindKeyword, ih, lastKeyword, length_cons,
      Bool.or_assoc, Nat.add_assoc, Nat.add_comm 1]

variable {p : Marked → Bool} {cs : List Marked}

/-- The pass finds the first token behind a keyword, or a keyword and its neighbour. -/
theorem behindKeyword_iff {behind : Bool} {k : ℕ} :
    behindKeyword p behind k cs = true ↔
      (behind = true ∧ k < policyTokenLimit ∧ ∃ c, cs.head? = some c ∧ p c = true) ∨
        Adjacent (tableReferenceKeyword ∘ Prod.fst) p (cs.take (policyTokenLimit - k)) := by
  induction cs generalizing behind k with
  | nil =>
    refine iff_of_false Bool.false_ne_true ?_
    rintro (⟨-, -, c, hc, -⟩ | ⟨a, b, hab, -⟩)
    · cases hc
    · rw [take_nil] at hab
      exact absurd (infix_nil.mp hab) (cons_ne_nil _ _)
  | cons c cs ih =>
    rw [behindKeyword, Bool.or_eq_true, ih, Bool.and_eq_true, Bool.and_eq_true, decide_eq_true_eq]
    rcases Nat.lt_or_ge k policyTokenLimit with hk | hk
    · obtain ⟨m, hm⟩ : ∃ m, policyTokenLimit - k = m + 1 := ⟨policyTokenLimit - k - 1, by omega⟩
      have hm' : policyTokenLimit - (k + 1) = m := by omega
      have hhead : ∀ b, (cs.take m).head? = some b ↔ k + 1 < policyTokenLimit ∧
          cs.head? = some b := by
        intro b
        rw [List.head?_take]
        split_ifs with h0
        · exact iff_of_false (by simp) (by omega)
        · exact ⟨fun h => ⟨by omega, h⟩, And.right⟩
      rw [hm, hm', take_succ_cons, adjacent_cons]
      simp only [hhead, List.head?_cons, Option.some.injEq, exists_eq_left', hk, true_and,
        and_true, Function.comp_apply]
      refine or_congr_right (or_congr_left ?_)
      constructor
      · rintro ⟨hc, hlt, b, hb, hp⟩
        exact ⟨hc, b, ⟨hlt, hb⟩, hp⟩
      · rintro ⟨hc, b, ⟨hlt, hb⟩, hp⟩
        exact ⟨hc, hlt, b, hb, hp⟩
    · rw [Nat.sub_eq_zero_of_le hk, Nat.sub_eq_zero_of_le (Nat.le_succ_of_le hk), take_zero,
        take_zero]
      have hk' : ¬k < policyTokenLimit := Nat.not_lt.mpr hk
      have hk'' : ¬k + 1 < policyTokenLimit := by omega
      simp only [hk', hk'', and_false, false_and, false_or]

/-- A pass for either of two kinds of tokens. -/
theorem behindKeyword_or (p q : Marked → Bool) (behind : Bool) (k : ℕ) (cs : List Marked) :
    behindKeyword (fun c => p c || q c) behind k cs =
      (behindKeyword p behind k cs || behindKeyword q behind k cs) := by
  induction cs generalizing behind k with
  | nil => rfl
  | cons c cs ih =>
    rw [behindKeyword, behindKeyword, behindKeyword, ih, Bool.and_or_distrib_left,
      Bool.and_or_distrib_right]
    ac_rfl

theorem behindKeyword_eq_false (h : ∀ c ∈ cs, p c = false) (behind : Bool) (k : ℕ) :
    behindKeyword p behind k cs = false := by
  induction cs generalizing behind k with
  | nil => rfl
  | cons c cs ih =>
    rw [behindKeyword, h c mem_cons_self, ih fun d hd => h d (mem_cons_of_mem c hd),
      Bool.and_false, Bool.false_and, Bool.or_false]

/-! ### The tables of a clause -/

/-- A name that the rules on tables know. -/
def isBlockedTable (token : Text) : Bool :=
  blockedInformationSchemaTables.any (identifierTokenEquals token)

/-- A marked token with such a name. -/
def namesBlockedTable (c : Marked) : Bool := c.2 && isBlockedTable c.1

/-- Any other token with such a name. -/
def repeatsBlockedTable (c : Marked) : Bool := !c.2 && isBlockedTable c.1

/-- Some blocked table stands directly behind `FROM` or `JOIN` within the first 32 tokens, `k`
    of which stand in front of the references.  A comma, a parenthesis, a dot, an escape and
    `STRAIGHT_JOIN` hide the name that follows. -/
def directlyNames (k : ℕ) (behind : Bool) : TableReferences → Bool
  | .table dot name _ => behind && !dot && tokenIn name.value blockedInformationSchemaTables &&
      decide (k < policyTokenLimit)
  | .other _ => false
  | .parens inner => directlyNames (k + 1) false inner
  | .escape ident inner => directlyNames (k + 2) (tableReferenceKeyword ident) inner
  | .comma left right =>
    directlyNames k behind left || directlyNames (k + left.marked.length + 1) false right
  | .join left operator right _ =>
    directlyNames k behind left ||
      directlyNames (k + left.marked.length + operator.tokens.length)
        (tokenEquals operator.word.1 "JOIN") right

theorem behindKeyword_unmarked (behind : Bool) (k : ℕ) (tokens : List Text) :
    behindKeyword namesBlockedTable behind k (unmarked tokens) = false := by
  refine behindKeyword_eq_false ?_ behind k
  intro c hc
  obtain ⟨token, -, rfl⟩ := mem_map.mp hc
  rfl

theorem length_unmarked (tokens : List Text) : (unmarked tokens).length = tokens.length :=
  length_map _

/-- The rules on tables see the name that is meant. -/
theorem isBlockedTable_token (name : IdentName) :
    isBlockedTable name.token = tokenIn name.value blockedInformationSchemaTables := by
  unfold isBlockedTable identifierTokenEquals tokenIn
  rw [unquotedIdentifierToken_token]

/-- Of the words of a join only `JOIN` is a table-reference keyword. -/
theorem tableReferenceKeyword_join (word : KeywordToken ["JOIN", "STRAIGHT_JOIN"]) :
    tableReferenceKeyword word.1 = tokenEquals word.1 "JOIN" := by
  obtain ⟨name, hmem, hname⟩ := any_eq_true.mp word.2
  rw [tableReferenceKeyword, tokenIn_congr (tokenEquals_iff.mp hname),
    tokenEquals_subst hname]
  simp only [mem_cons, not_mem_nil, or_false] at hmem
  rcases hmem with rfl | rfl
  · decide
  · decide

/-- **Tables.** The pass over a `FROM` clause finds the blocked tables that are named directly. -/
theorem behindKeyword_tables (behind : Bool) (k : ℕ) (tables : TableReferences) :
    behindKeyword namesBlockedTable behind k tables.marked = directlyNames k behind tables := by
  induction tables generalizing behind k with
  | table dot name rest =>
    rw [TableReferences.marked, behindKeyword_append, behindKeyword_unmarked, behindKeyword,
      behindKeyword_unmarked, length_unmarked]
    cases dot with
    | false =>
      simp [directlyNames, lastKeyword, unmarked, namesBlockedTable, isBlockedTable_token]
    | true =>
      have hdot : tableReferenceKeyword dotToken = false := by decide
      simp [directlyNames, lastKeyword, unmarked, hdot]
  | other tokens => exact behindKeyword_unmarked behind k tokens
  | parens inner ih =>
    rw [TableReferences.marked, behindKeyword, behindKeyword_append, ih, behindKeyword_unmarked]
    have hparen : tableReferenceKeyword parenToken = false := by decide
    simp [directlyNames, namesBlockedTable, hparen]
  | escape ident inner ih =>
    rw [TableReferences.marked, behindKeyword_append, behindKeyword_unmarked, behindKeyword_append,
      ih, behindKeyword_unmarked]
    simp [directlyNames, lastKeyword, unmarked]
  | comma left right ihl ihr =>
    have hcomma : tableReferenceKeyword commaToken = false := by decide
    rw [TableReferences.marked, behindKeyword_append, ihl, behindKeyword, ihr]
    simp [directlyNames, namesBlockedTable, hcomma]
  | join left operator right condition ihl ihr =>
    have hlast : ∀ b, lastKeyword b (unmarked operator.tokens) =
        tokenEquals operator.word.1 "JOIN" := by
      intro b
      rw [← tableReferenceKeyword_join, unmarked, JoinOperator.tokens, map_append]
      exact lastKeyword_concat b _ _
    rw [TableReferences.marked, behindKeyword_append, ihl, behindKeyword_append,
      behindKeyword_unmarked, hlast, behindKeyword_append, ihr, behindKeyword_unmarked,
      length_unmarked]
    simp [directlyNames]

/-! ### The gate -/

variable {currentSchema : Text}

/-- The rules on neighbours other than the one on tables without a schema. -/
def otherNeighbourRule (tokens : SqlPolicyTokens) : Bool :=
  isUnsupportedProcedureAnalyseStatement tokens || isUnsupportedVectorRuntimeStatement tokens ||
    isUnsupportedXmlSqlFunctionCall tokens || isUnsupportedDynamicColumnFunctionCall tokens ||
    !(identifierTokenAt tokens 0).isEmpty &&
      (serverSurfaceFunctionCall tokens || isUnsupportedSelectFileStatement tokens ||
        blockedInformationSchemaTables.any (hasInformationSchemaTable tokens))

theorem any_hasCurrentSchemaTableReference_iff {tokens : SqlPolicyTokens} :
    blockedInformationSchemaTables.any
        (hasCurrentSchemaTableReference tokens · currentSchema) = true ↔
      identifierTokenEquals currentSchema "INFORMATION_SCHEMA" = true ∧
        Adjacent tableReferenceKeyword isBlockedTable tokens := by
  simp only [any_eq_true, hasCurrentSchemaTableReference, Bool.and_eq_true,
    hasUnqualifiedTableReference_iff]
  constructor
  · rintro ⟨name, hmem, hschema, a, b, hab, ha, hb⟩
    exact ⟨hschema, a, b, hab, ha, any_eq_true.mpr ⟨name, hmem, hb⟩⟩
  · rintro ⟨hschema, a, b, hab, ha, hb⟩
    obtain ⟨name, hmem, hname⟩ := any_eq_true.mp hb
    exact ⟨name, hmem, hschema, a, b, hab, ha, hname⟩

/-- In `information_schema` the rule on tables fires exactly where a blocked name is directly behind
    a keyword. -/
theorem neighbourRule_iff (hschema : tokenEquals currentSchema "information_schema" = true)
    (tokens : SqlPolicyTokens) :
    neighbourRule currentSchema tokens = true ↔
      Adjacent tableReferenceKeyword isBlockedTable tokens ∨ otherNeighbourRule tokens = true := by
  have hcurrent : identifierTokenEquals currentSchema "INFORMATION_SCHEMA" = true := by
    rw [identifierTokenEquals_congr (tokenEquals_iff.mp hschema)]
    decide
  have hword : Adjacent tableReferenceKeyword isBlockedTable tokens →
      (!(identifierTokenAt tokens 0).isEmpty) = true := by
    rintro ⟨a, b, hab, ha, -⟩
    exact hasWord_iff.mpr ⟨a, hab.subset mem_cons_self,
      isSqlIdentifierToken_of_tokenIn ha (by decide)⟩
  unfold neighbourRule otherNeighbourRule mentionsInformationSchemaTable
  simp only [Bool.or_eq_true, Bool.and_eq_true, any_hasCurrentSchemaTableReference_iff, hcurrent,
    true_and]
  constructor
  · rintro (h | ⟨hw, (h | h) | h | h⟩)
    · exact .inr (.inl h)
    · exact .inr (.inr ⟨hw, .inl (.inl h)⟩)
    · exact .inr (.inr ⟨hw, .inl (.inr h)⟩)
    · exact .inr (.inr ⟨hw, .inr h⟩)
    · exact .inl h
  · rintro (h | h | ⟨hw, (h | h) | h⟩)
    · exact .inr ⟨hword h, .inr (.inr h)⟩
    · exact .inl h
    · exact .inr ⟨hw, .inl (.inl h)⟩
    · exact .inr ⟨hw, .inl (.inr h)⟩
    · exact .inr ⟨hw, .inr (.inl h)⟩

variable (s : FromStatement)

/-- The statement names a blocked table without a schema. -/
def NamesBlocked : Prop :=
  ∃ name ∈ s.tables.names, tokenIn name blockedInformationSchemaTables = true

/-- The statement begins as a query does. -/
def IsQuery : Prop := ∃ word, Opens word (s.lead ++ [s.select.1])

/-- A blocked table of the clause stands directly behind `FROM` or `JOIN`. -/
def DirectlyNames : Prop := directlyNames s.front.length true s.tables = true

/-- Something outside the names of the clause is rejected: a blocked name behind a keyword, or the
    neighbours of another rule. -/
def HitsElsewhere : Prop :=
  behindKeyword repeatsBlockedTable false 0 s.marked = true ∨
    otherNeighbourRule (s.tokens.take policyTokenLimit) = true

/-- The pass over the whole statement. -/
theorem adjacent_tokens_iff :
    Adjacent tableReferenceKeyword isBlockedTable (s.tokens.take policyTokenLimit) ↔
      DirectlyNames s ∨ behindKeyword repeatsBlockedTable false 0 s.marked = true := by
  have hsplit : isBlockedTable ∘ Prod.fst =
      fun c : Marked => namesBlockedTable c || repeatsBlockedTable c := by
    funext ⟨token, mark⟩
    cases mark <;> simp [namesBlockedTable, repeatsBlockedTable]
  have hnames : behindKeyword namesBlockedTable false 0 s.marked =
      directlyNames s.front.length true s.tables := by
    have hfrom : lastKeyword false (unmarked s.front) = true := by
      rw [FromStatement.front, unmarked, ← cons_append, ← append_assoc,
        map_append]
      exact (lastKeyword_concat _ _ _).trans
        (tokenIn_mono s.fromWord.2 (by decide))
    rw [FromStatement.marked, behindKeyword_append, behindKeyword_unmarked, hfrom,
      behindKeyword_append, behindKeyword_tables, behindKeyword_unmarked, length_unmarked]
    simp
  rw [FromStatement.tokens, ← map_take, adjacent_map, hsplit, DirectlyNames,
    ← hnames, ← Bool.or_eq_true, ← behindKeyword_or, behindKeyword_iff]
  simp

/-- `SELECT * FROM` with the given tables. -/
def selectAllFrom (tables : TableReferences) : FromStatement where
  lead := []
  select := ⟨ascii "SELECT", by decide⟩
  items := [ascii "*"]
  fromWord := ⟨ascii "FROM", by decide⟩
  tables := tables
  clauses := []

theorem isQuery_selectAllFrom (tables : TableReferences) : IsQuery (selectAllFrom tables) :=
  ⟨ascii "SELECT", by decide, 0, [], rfl⟩

def profilingTable : TableReferences := .table false (.plain (ascii "profiling") (by decide)) []

/-- `t, profiling`. -/
def profilingBehindComma : TableReferences :=
  .comma (.table false (.plain (ascii "t") (by decide)) []) profilingTable

end MyLite.Policy

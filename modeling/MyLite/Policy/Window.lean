import MyLite.Lib.Neighbours
import MyLite.Policy.Assignments

namespace MyLite.Policy

open MyLite.Lib MyLite.Sql MyLite.MariaDB List

/-!
# The rules on a part of the tokens

The gate works on the first 32 tokens of a text.  Here the rules are stated without positions, so
that they can be compared on a list of tokens and on its beginning: a rule on neighbouring tokens
asks for two or three neighbours, a rule on assignments for a split of the tokens, and a
leading-word rule for the identifier tokens in order.

* `hasFunctionCall_iff`, … — the rules on neighbouring tokens.
* `identifierTokenAt_cases` — the identifier tokens of a beginning.
* `persists_leadingRule` — a leading-word rule that fires on a beginning fires on all tokens.
-/

/-! ### Neighbouring tokens -/

variable {tokens : SqlPolicyTokens} {i : ℕ}

variable {t : Text} {names : List String} {tableName : String}

theorem getElem?_eq_some_value (h : i < tokens.length) : tokens[i]? = some (tokens.value i) := by
  rw [SqlPolicyTokens.value, getD_eq_getElem?_getD, List.getElem?_eq_getElem h]
  rfl

theorem value_of_getElem? (h : tokens[i]? = some t) : tokens.value i = t := by
  rw [SqlPolicyTokens.value, getD_eq_getElem?_getD, h]
  rfl

theorem lt_of_getElem? (h : tokens[i]? = some t) :
    i < tokens.length := (List.getElem?_eq_some_iff.mp h).1

/-- A loop over pairs of neighbours. -/
theorem anyFrom_pair_iff (p q : Text → Bool) :
    (tokens.anyFrom 0 fun index => decide (index + 1 < tokens.length) && p (tokens.value index) &&
      q (tokens.value (index + 1))) = true ↔ Adjacent p q tokens := by
  rw [SqlPolicyTokens.anyFrom_eq_true, adjacent_iff_getElem?]
  simp only [Bool.and_eq_true, decide_eq_true_eq]
  constructor
  · rintro ⟨i, -, hi, ⟨hlt, hp⟩, hq⟩
    exact ⟨i, _, _, getElem?_eq_some_value hi, getElem?_eq_some_value hlt, hp, hq⟩
  · rintro ⟨i, a, b, ha, hb, hp, hq⟩
    have hlt := lt_of_getElem? hb
    refine ⟨i, Nat.zero_le _, lt_of_getElem? ha, ⟨hlt, ?_⟩, ?_⟩
    · rwa [value_of_getElem? ha]
    · rwa [value_of_getElem? hb]

/-- A loop over triples of neighbours. -/
theorem anyFrom_triple_iff (p q r : Text → Bool) :
    (tokens.anyFrom 0 fun index => decide (index + 2 < tokens.length) && p (tokens.value index) &&
      q (tokens.value (index + 1)) && r (tokens.value (index + 2))) = true ↔
        Adjacent3 p q r tokens := by
  rw [SqlPolicyTokens.anyFrom_eq_true, adjacent3_iff_getElem?]
  simp only [Bool.and_eq_true, decide_eq_true_eq]
  constructor
  · rintro ⟨i, -, hi, ⟨⟨hlt, hp⟩, hq⟩, hr⟩
    exact ⟨i, _, _, _, getElem?_eq_some_value hi, getElem?_eq_some_value (by omega),
      getElem?_eq_some_value hlt, hp, hq, hr⟩
  · rintro ⟨i, a, b, c, ha, hb, hc, hp, hq, hr⟩
    have hlt := lt_of_getElem? hc
    refine ⟨i, Nat.zero_le _, lt_of_getElem? ha, ⟨⟨hlt, ?_⟩, ?_⟩, ?_⟩
    · rwa [value_of_getElem? ha]
    · rwa [value_of_getElem? hb]
    · rwa [value_of_getElem? hc]

theorem hasFunctionCall_iff :
    hasFunctionCall names tokens = true ↔
      Adjacent (fun token => names.any (identifierTokenEquals token)) (tokenEquals · "(") tokens :=
  anyFrom_pair_iff (fun token => names.any (identifierTokenEquals token)) (tokenEquals · "(")

theorem isUnsupportedSelectFileStatement_iff :
    isUnsupportedSelectFileStatement tokens = true ↔
      tokenIn (identifierTokenAt tokens 0) ["SELECT", "WITH"] = true ∧
        Adjacent (tokenEquals · "INTO") (tokenIn · ["OUTFILE", "DUMPFILE"]) tokens := by
  rw [isUnsupportedSelectFileStatement, Bool.and_eq_true]
  exact and_congr_right fun _ =>
    anyFrom_pair_iff (tokenEquals · "INTO") (tokenIn · ["OUTFILE", "DUMPFILE"])

theorem hasInformationSchemaTable_iff :
    hasInformationSchemaTable tokens tableName = true ↔
      Adjacent3 (identifierTokenEquals · "INFORMATION_SCHEMA") (tokenEquals · ".")
        (identifierTokenEquals · tableName) tokens :=
  anyFrom_triple_iff (identifierTokenEquals · "INFORMATION_SCHEMA") (tokenEquals · ".")
    (identifierTokenEquals · tableName)

/-- A loop that looks at a token and the one in front of it. -/
theorem hasUnqualifiedTableReference_iff :
    hasUnqualifiedTableReference tokens tableName = true ↔
      Adjacent tableReferenceKeyword (identifierTokenEquals · tableName) tokens := by
  rw [hasUnqualifiedTableReference, SqlPolicyTokens.anyFrom_eq_true, adjacent_iff_getElem?]
  simp only [Bool.and_eq_true]
  constructor
  · rintro ⟨i, hpos, hi, hname, hkeyword⟩
    obtain ⟨k, rfl⟩ : ∃ k, i = k + 1 := ⟨i - 1, by omega⟩
    exact ⟨k, _, _, getElem?_eq_some_value (by omega), getElem?_eq_some_value hi, hkeyword, hname⟩
  · rintro ⟨i, a, b, ha, hb, hkeyword, hname⟩
    refine ⟨i + 1, Nat.le_add_left 1 i, lt_of_getElem? hb, ?_, ?_⟩
    · rwa [value_of_getElem? hb]
    · rwa [Nat.add_sub_cancel, value_of_getElem? ha]

theorem isUnsupportedVectorIndexStatement_iff :
    isUnsupportedVectorIndexStatement tokens = true ↔
      Adjacent (identifierTokenEquals · "VECTOR")
          (fun token => identifierTokenEquals token "KEY" || identifierTokenEquals token "INDEX")
          tokens ∨
        Adjacent3 (tokenIn · ["(", ","]) (identifierTokenEquals · "VECTOR") (tokenEquals · "(")
          tokens := by
  rw [isUnsupportedVectorIndexStatement, SqlPolicyTokens.anyFrom_eq_true, adjacent_iff_getElem?,
    adjacent3_iff_getElem?]
  simp only [Bool.and_eq_true, Bool.or_eq_true, decide_eq_true_eq]
  constructor
  · rintro ⟨i, -, hi, ⟨hlt, hvector⟩, hkey | ⟨⟨hparen, hpos⟩, hbefore⟩⟩
    · exact .inl ⟨i, _, _, getElem?_eq_some_value hi, getElem?_eq_some_value hlt, hvector, hkey⟩
    · obtain ⟨k, rfl⟩ : ∃ k, i = k + 1 := ⟨i - 1, by omega⟩
      exact .inr ⟨k, _, _, _, getElem?_eq_some_value (by omega), getElem?_eq_some_value hi,
        getElem?_eq_some_value hlt, hbefore, hvector, hparen⟩
  · rintro (⟨i, a, b, ha, hb, hvector, hkey⟩ | ⟨i, a, b, c, ha, hb, hc, hbefore, hvector, hparen⟩)
    · refine ⟨i, Nat.zero_le _, lt_of_getElem? ha, ⟨lt_of_getElem? hb, ?_⟩, .inl ?_⟩
      · rwa [value_of_getElem? ha]
      · rwa [value_of_getElem? hb]
    · refine ⟨i + 1, Nat.zero_le _, lt_of_getElem? hb, ⟨lt_of_getElem? hc, ?_⟩, .inr ⟨⟨?_, ?_⟩, ?_⟩⟩
      · rwa [value_of_getElem? hb]
      · rwa [value_of_getElem? hc]
      · exact Nat.succ_pos i
      · rwa [Nat.add_sub_cancel, value_of_getElem? ha]

/-! ### Rules that look at neighbours only -/

/-- The rules of the server-surface group that look at neighbours only. -/
def serverSurfaceNearby (currentSchema : Text) (tokens : SqlPolicyTokens) : Bool :=
  serverSurfaceFunctionCall tokens ||
    mentionsInformationSchemaTable tokens currentSchema blockedInformationSchemaTables

/-- `neighbourRule` without the rule on file statements. -/
def nearbyRule (currentSchema : Text) (tokens : SqlPolicyTokens) : Bool :=
  isUnsupportedProcedureAnalyseStatement tokens || isUnsupportedVectorRuntimeStatement tokens ||
    isUnsupportedXmlSqlFunctionCall tokens || isUnsupportedDynamicColumnFunctionCall tokens ||
    !(identifierTokenAt tokens 0).isEmpty && serverSurfaceNearby currentSchema tokens

theorem neighbourRule_eq (currentSchema : Text) (tokens : SqlPolicyTokens) :
    neighbourRule currentSchema tokens =
      (nearbyRule currentSchema tokens || isUnsupportedSelectFileStatement tokens) := by
  unfold neighbourRule nearbyRule serverSurfaceNearby
  cases hword : (identifierTokenAt tokens 0).isEmpty
  · simp only [Bool.not_false, Bool.true_and]
    ac_rfl
  · have hfile : isUnsupportedSelectFileStatement tokens = false := by
      rw [isUnsupportedSelectFileStatement, isEmpty_iff.mp hword]
      rfl
    rw [hfile]
    simp only [Bool.not_true, Bool.false_and, Bool.or_false]

/-! ### Words -/

variable {u : SqlPolicyTokens}

/-- The first word of a statement is not the third token of `PROCEDURE ANALYSE (`, so the loop may
    as well begin with the first token. -/
theorem isUnsupportedProcedureAnalyseStatement_iff :
    isUnsupportedProcedureAnalyseStatement tokens = true ↔
      tokenEquals (identifierTokenAt tokens 0) "SELECT" = true ∧
        Adjacent3 (tokenEquals · "PROCEDURE") (tokenEquals · "ANALYSE") (tokenEquals · "(")
          tokens := by
  rw [isUnsupportedProcedureAnalyseStatement, Bool.and_eq_true]
  refine and_congr_right fun hselect => ?_
  rw [← anyFrom_triple_iff, SqlPolicyTokens.anyFrom_eq_true, SqlPolicyTokens.anyFrom_eq_true]
  constructor
  · rintro ⟨i, -, hi, hhit⟩
    exact ⟨i, Nat.zero_le _, hi, hhit⟩
  · rintro ⟨i, -, hi, hhit⟩
    refine ⟨i, Nat.pos_of_ne_zero ?_, hi, hhit⟩
    rintro rfl
    simp only [Bool.and_eq_true] at hhit
    obtain ⟨t, rest, rfl⟩ := exists_cons_of_length_pos hi
    have hword : tokenEquals t "PROCEDURE" = true := hhit.1.1.2
    have hfirst : identifierTokenAt (t :: rest) 0 = t :=
      identifierTokenAt_cons_zero
        ((isSqlIdentifierToken_congr (tokenEquals_iff.mp hword)).trans (by decide)) rest
    rw [hfirst, tokenEquals_subst hword] at hselect
    exact absurd hselect (by decide)

theorem hasWord_iff :
    (!(identifierTokenAt tokens 0).isEmpty) = true ↔
      ∃ t ∈ tokens, isSqlIdentifierToken t = true := by
  unfold identifierTokenAt
  cases hids : identifierTokens tokens with
  | nil =>
    refine iff_of_false (by simp) ?_
    rintro ⟨t, ht, hid⟩
    have hmem : t ∈ identifierTokens tokens := mem_filter.mpr ⟨ht, hid⟩
    rw [hids] at hmem
    exact not_mem_nil hmem
  | cons word rest =>
    have hmem : word ∈ identifierTokens tokens := hids ▸ mem_cons_self
    obtain ⟨hword, hid⟩ := mem_filter.mp hmem
    refine iff_of_true ?_ ⟨word, hword, hid⟩
    cases word with
    | nil => cases hid
    | cons => rfl

/-- The identifier tokens of a beginning come first among all identifier tokens. -/
theorem identifierTokens_beginning (h : u <+: tokens) :
    identifierTokens u <+: identifierTokens tokens := h.filter _

/-- Word by word, a beginning has the words of the statement until they run out. -/
theorem identifierTokenAt_cases (h : u <+: tokens) (k : ℕ) :
    identifierTokenAt u k = identifierTokenAt tokens k ∨
      ∀ m, k ≤ m → identifierTokenAt u m = [] := by
  obtain ⟨rest, hrest⟩ := identifierTokens_beginning h
  unfold identifierTokenAt
  rcases Nat.lt_or_ge k (identifierTokens u).length with hk | hk
  · left
    rw [← hrest, getD_eq_getElem?_getD, getD_eq_getElem?_getD,
      List.getElem?_append_left hk]
  · right
    intro m hm
    rw [getD_eq_getElem?_getD, List.getElem?_eq_none (by omega)]
    rfl

/-! ### Leading words persist -/

variable {keyword : String}

/-- A test of the word at `k` that fails where there is none. -/
theorem persists_at (k : ℕ) (test : Text → Bool) (hempty : test [] = false) :
    Persists fun tokens => test (identifierTokenAt tokens k) := by
  intro u tokens h hu
  dsimp only at hu ⊢
  rcases identifierTokenAt_cases h k with heq | hnil
  · rwa [← heq]
  · rw [hnil k le_rfl, hempty] at hu
    cases hu

theorem persists_word (k : ℕ) (hne : ascii keyword ≠ []) :
    Persists fun tokens => tokenEquals (identifierTokenAt tokens k) keyword :=
  persists_at k (tokenEquals · keyword) (tokenEquals_nil hne)

theorem persists_identifierWord (k : ℕ) (hne : ascii keyword ≠ []) :
    Persists fun tokens => identifierTokenEquals (identifierTokenAt tokens k) keyword :=
  persists_at k (identifierTokenEquals · keyword) (tokenEquals_nil hne)

theorem persists_wordIn (k : ℕ) (hne : ∀ name ∈ names, ascii name ≠ []) :
    Persists fun tokens => tokenIn (identifierTokenAt tokens k) names := by
  intro u tokens h hu
  obtain ⟨name, hmem, hname⟩ := any_eq_true.mp hu
  exact any_eq_true.mpr ⟨name, hmem, persists_word k (hne name hmem) h hname⟩

theorem persists_hasIdentifierToken (keyword : String) (k : ℕ) :
    Persists fun tokens => hasIdentifierToken tokens keyword k := by
  intro u tokens h hu
  obtain ⟨token, hmem, heq⟩ := any_eq_true.mp hu
  obtain ⟨rest, hrest⟩ := identifierTokens_beginning h
  refine any_eq_true.mpr ⟨token, ?_, heq⟩
  rw [← hrest, drop_append]
  exact mem_append_left _ hmem

theorem persists_accountOrEvent : Persists isUnsupportedAccountOrEventStatement := by
  unfold isUnsupportedAccountOrEventStatement
  refine .ite (persists_wordIn 0 (by decide)) (.const true) (.ite (persists_word 0 (by decide))
    (.ite (persists_word 1 (by decide)) (persists_hasIdentifierToken _ 2)
      (.ite (.and (persists_word 1 (by decide)) (persists_word 2 (by decide)))
        (.ite (persists_word 3 (by decide)) (persists_hasIdentifierToken _ 4)
          (persists_wordIn 3 (by decide)) ?_) (persists_wordIn 1 (by decide)) ?_) ?_)
    (.ite (persists_word 0 (by decide))
      (.ite (persists_word 1 (by decide)) (persists_hasIdentifierToken _ 2)
        (persists_wordIn 1 (by decide)) ?_)
      (.ite (persists_word 0 (by decide)) (persists_wordIn 1 (by decide))
        (.ite (persists_word 0 (by decide))
          (.or (persists_word 1 (by decide))
            (.and (persists_word 1 (by decide)) (persists_word 2 (by decide))))
          (.and (persists_word 0 (by decide)) (persists_word 1 (by decide))) ?_) ?_) ?_) ?_) ?_
  · exact fun l h => (tokenIn_congr (tokenEquals_iff.mp h) _).trans (by decide)
  · intro l h
    rw [Bool.and_eq_true] at h
    exact (tokenIn_congr (tokenEquals_iff.mp h.1) _).trans (by decide)
  · intro l h
    simp +decide [tokenEquals_subst h, tokenIn_congr (tokenEquals_iff.mp h)]
  · exact fun l h => (tokenIn_congr (tokenEquals_iff.mp h) _).trans (by decide)
  iterate 4
    · intro l h
      simp +decide [tokenEquals_subst h]
  · intro l h
    simp +decide [tokenEquals_eq_false h]

/-- `is_unsupported_udf_statement`, with the position of `FUNCTION` as a choice. -/
theorem isUnsupportedUdfStatement_eq (tokens : SqlPolicyTokens) :
    isUnsupportedUdfStatement tokens = (tokenEquals (identifierTokenAt tokens 0) "CREATE" &&
      if (tokenEquals (identifierTokenAt tokens 1) "OR" &&
        tokenEquals (identifierTokenAt tokens 2) "REPLACE") = true then
        if tokenEquals (identifierTokenAt tokens 3) "AGGREGATE" = true then
          tokenEquals (identifierTokenAt tokens 4) "FUNCTION" &&
            hasIdentifierToken tokens "SONAME" 5
        else
          tokenEquals (identifierTokenAt tokens 3) "FUNCTION" &&
            hasIdentifierToken tokens "SONAME" 4
      else if tokenEquals (identifierTokenAt tokens 1) "AGGREGATE" = true then
        tokenEquals (identifierTokenAt tokens 2) "FUNCTION" && hasIdentifierToken tokens "SONAME" 3
      else
        tokenEquals (identifierTokenAt tokens 1) "FUNCTION" &&
          hasIdentifierToken tokens "SONAME" 2) := by
  unfold isUnsupportedUdfStatement
  cases tokenEquals (identifierTokenAt tokens 0) "CREATE"
  · rfl
  · by_cases hreplace : (tokenEquals (identifierTokenAt tokens 1) "OR" &&
        tokenEquals (identifierTokenAt tokens 2) "REPLACE") = true
    · simp only [hreplace, if_true]
      by_cases haggregate : tokenEquals (identifierTokenAt tokens 3) "AGGREGATE" = true
      · simp [haggregate]
      · simp [haggregate]
    · simp only [if_neg hreplace]
      by_cases haggregate : tokenEquals (identifierTokenAt tokens 1) "AGGREGATE" = true
      · simp [haggregate]
      · simp [haggregate]

theorem persists_udf : Persists isUnsupportedUdfStatement := by
  rw [funext isUnsupportedUdfStatement_eq]
  refine .and (persists_word 0 (by decide))
    (.ite (.and (persists_word 1 (by decide)) (persists_word 2 (by decide)))
      (.ite (persists_word 3 (by decide))
        (.and (persists_word 4 (by decide)) (persists_hasIdentifierToken _ 5))
        (.and (persists_word 3 (by decide)) (persists_hasIdentifierToken _ 4)) ?_)
      (.ite (persists_word 1 (by decide))
        (.and (persists_word 2 (by decide)) (persists_hasIdentifierToken _ 3))
        (.and (persists_word 1 (by decide)) (persists_hasIdentifierToken _ 2)) ?_) ?_)
  iterate 2
    · intro l h
      simp +decide [tokenEquals_subst h]
  · intro l h
    rw [Bool.and_eq_true] at h
    simp +decide [tokenEquals_subst h.1]

theorem persists_binlog : Persists isUnsupportedBinlogStatement := by
  unfold isUnsupportedBinlogStatement
  refine .ite (persists_word 0 (by decide)) (.const true)
    (.ite (.and (persists_word 0 (by decide)) (persists_word 1 (by decide)))
      (persists_wordIn 2 (by decide))
    (.ite (.and (persists_word 0 (by decide)) (persists_word 1 (by decide)))
      (persists_word 2 (by decide))
    (.ite (.and (persists_word 0 (by decide)) (persists_wordIn 1 (by decide)))
      (persists_word 2 (by decide))
    (.ite (.and (persists_word 0 (by decide)) (persists_word 1 (by decide)))
      (persists_word 2 (by decide))
    (.ite (.and (persists_word 0 (by decide)) (persists_word 1 (by decide))) (.const true)
      (.and (persists_word 0 (by decide)) (persists_wordIn 1 (by decide))) ?_) ?_) ?_) ?_) ?_) ?_
  iterate 3
    · intro l h
      rw [Bool.and_eq_true] at h
      simp +decide [tokenEquals_subst h.1]
  iterate 2
    · intro l h
      rw [Bool.and_eq_true] at h
      simp +decide [tokenEquals_subst h.1, tokenEquals_subst h.2,
        tokenIn_congr (tokenEquals_iff.mp h.2)]
  · intro l h
    simp +decide [tokenEquals_subst h]

/-- The words behind `FLUSH` that a rule looks for, at position `k`. -/
def flushedAt (k : ℕ) (tokens : SqlPolicyTokens) : Bool :=
  userstatStatisticsTables.any (identifierTokenEquals (identifierTokenAt tokens k)) ||
    identifierTokenEquals (identifierTokenAt tokens k) "USER_VARIABLES" ||
    tokenEquals (identifierTokenAt tokens k) "LOGS" ||
    tokenIn (identifierTokenAt tokens k) ["GENERAL", "SLOW"] &&
      tokenEquals (identifierTokenAt tokens (k + 1)) "LOGS"

theorem persists_flushedAt (k : ℕ) : Persists (flushedAt k) := by
  unfold flushedAt
  refine .or (.or (.or ?_ (persists_identifierWord k (by decide))) (persists_word k (by decide)))
    (.and (persists_wordIn k (by decide)) (persists_word (k + 1) (by decide)))
  exact persists_at k (fun t => userstatStatisticsTables.any (identifierTokenEquals t)) (by decide)

theorem persists_flushed :
    Persists fun tokens => flushedAt (flushTargetIndex (identifierTokenAt tokens 1)) tokens := by
  have heq : (fun tokens => flushedAt (flushTargetIndex (identifierTokenAt tokens 1)) tokens) =
      fun tokens => if tokenIn (identifierTokenAt tokens 1) ["LOCAL", "NO_WRITE_TO_BINLOG"] = true
        then flushedAt 2 tokens else flushedAt 1 tokens := by
    funext tokens
    unfold flushTargetIndex
    split_ifs
    · rfl
    · rfl
  rw [heq]
  refine .ite (persists_wordIn 1 (by decide)) (persists_flushedAt 2) (persists_flushedAt 1) ?_
  -- `LOCAL` and `NO_WRITE_TO_BINLOG` are not among the things that are flushed.
  intro l h
  obtain ⟨name, hmem, hname⟩ := any_eq_true.mp h
  have hfold := tokenEquals_iff.mp hname
  simp only [flushedAt, funext (identifierTokenEquals_congr hfold), tokenEquals_congr hfold,
    tokenIn_congr hfold]
  simp only [mem_cons, not_mem_nil, or_false] at hmem
  rcases hmem with rfl | rfl
  · simp +decide
  · simp +decide

/-- **Leading words.** A rule on the identifier tokens in order that fires on a beginning of the
    tokens fires on all of them. -/
theorem persists_leadingRule : Persists leadingRule := by
  have hanalyze : Persists fun tokens => tokenEquals (identifierTokenAt tokens 0) "ANALYZE" &&
      hasIdentifierToken tokens "PERSISTENT" 1 :=
    .and (persists_word 0 (by decide)) (persists_hasIdentifierToken _ 1)
  have hflush : Persists fun tokens => tokenEquals (identifierTokenAt tokens 0) "FLUSH" &&
      flushedAt (flushTargetIndex (identifierTokenAt tokens 1)) tokens :=
    .and (persists_word 0 (by decide)) persists_flushed
  have hshow : Persists fun tokens => tokenEquals (identifierTokenAt tokens 0) "SHOW" &&
      tokenIn (identifierTokenAt tokens 1) ["USER_VARIABLES", "PROFILE", "PROFILES"] :=
    .and (persists_word 0 (by decide)) (persists_wordIn 1 (by decide))
  have hqueryCache : Persists isUnsupportedQueryCacheStatement :=
    .and (.and (persists_wordIn 0 (by decide)) (persists_word 1 (by decide)))
      (persists_word 2 (by decide))
  have hbackup : Persists isUnsupportedBackupStatement := persists_word 0 (by decide)
  have hserver : Persists isUnsupportedForeignServerMetadataStatement :=
    .and (.and (persists_word 0 (by decide)) (persists_word 1 (by decide)))
      (persists_word 2 (by decide))
  have hprocesslist : Persists isUnsupportedProcesslistMetadataStatement :=
    .and (persists_word 0 (by decide)) (.or (persists_word 1 (by decide))
      (.and (persists_word 1 (by decide)) (persists_word 2 (by decide))))
  have hinfo : Persists isUnsupportedStaticShowInfoStatement :=
    .and (persists_word 0 (by decide)) (persists_wordIn 1 (by decide))
  have hhelp : Persists isUnsupportedHelpStatement := persists_word 0 (by decide)
  have hload : Persists isUnsupportedLoadFileImportStatement :=
    .and (persists_word 0 (by decide)) (persists_wordIn 1 (by decide))
  have hhandler : Persists isUnsupportedSqlHandlerStatement := persists_word 0 (by decide)
  have hxa : Persists isUnsupportedXaStatement := persists_word 0 (by decide)
  have hreplication : Persists isUnsupportedReplicationStatement :=
    .or (.or (.and (persists_word 0 (by decide)) (persists_wordIn 1 (by decide)))
      (.and (persists_word 0 (by decide)) (persists_word 1 (by decide))))
      (.and (persists_wordIn 0 (by decide)) (persists_wordIn 1 (by decide)))
  have hplugin : Persists isUnsupportedPluginStatement :=
    .and (persists_wordIn 0 (by decide)) (persists_wordIn 1 (by decide))
  exact .or (.or (.or (.or (.or (.or (.or (.or (.or (.or (.or (.or (.or (.or (.or (.or
    persists_accountOrEvent hplugin) persists_udf) hreplication) persists_binlog) hxa) hhandler)
    hload) hhelp) hinfo) hprocesslist) hserver) hbackup) hqueryCache) hshow) hflush) hanalyze

/-! ### Queries

A query begins with `SELECT`, `WITH` or `VALUES` behind any number of parentheses.  No rule on
leading words or assignments knows these words, so it is only ever rejected by a rule on
neighbouring tokens (`Opens.rejectsTokens_eq`). -/

/-- The words a query can begin with. -/
def queryWords : List String := ["SELECT", "WITH", "VALUES"]

/-- Parentheses, a word of a query and further tokens. -/
def Opens (word : Text) (tokens : List Text) : Prop :=
  tokenIn word queryWords = true ∧
    ∃ n rest, tokens = List.replicate n parenToken ++ word :: rest

variable {word : Text} {tokens : List Text}

theorem Opens.append (h : Opens word tokens) (more : List Text) : Opens word (tokens ++ more) := by
  obtain ⟨hword, n, rest, rfl⟩ := h
  refine ⟨hword, n, rest ++ more, ?_⟩
  rw [List.append_assoc, List.cons_append]

theorem tokenIn_mono {t : Text} {names names' : List String} (h : tokenIn t names = true)
    (hsub : names ⊆ names') : tokenIn t names' = true := by
  obtain ⟨name, hmem, hname⟩ := List.any_eq_true.mp h
  exact List.any_eq_true.mpr ⟨name, hsub hmem, hname⟩

/-- The first collected word: the query's own, unless parentheses fill all the slots. -/
theorem Opens.identifierTokenAt_take (h : Opens word tokens) (k : ℕ) :
    identifierTokenAt (tokens.take k) 0 = word ∨
      ∀ t ∈ tokens.take k, t = parenToken := by
  obtain ⟨hword, n, rest, rfl⟩ := h
  have hparen : ∀ t ∈ List.replicate n parenToken, isSqlIdentifierToken t = false := by
    intro t ht
    rw [List.eq_of_mem_replicate ht]
    decide
  rcases Nat.lt_or_ge n k with hn | hn
  · left
    obtain ⟨m, hm⟩ : ∃ m, k - n = m + 1 := ⟨k - n - 1, by omega⟩
    rw [List.take_append, List.length_replicate, List.take_of_length_le (by simpa using hn.le), hm,
      List.take_succ_cons, identifierTokenAt_append hparen,
      identifierTokenAt_cons_zero (isSqlIdentifierToken_of_tokenIn hword (by decide))]
  · right
    intro t ht
    rw [List.take_append_of_le_length (by simpa using hn)] at ht
    exact List.eq_of_mem_replicate (List.mem_of_mem_take ht)

/-- A query is only ever rejected by a rule on neighbours. -/
theorem Opens.rejectsTokens_eq (h : Opens word tokens) (currentSchema : Text) (k : ℕ) :
    rejectsTokens currentSchema (tokens.take k) = neighbourRule currentSchema (tokens.take k) := by
  have hfirst : tokenIn (identifierTokenAt (tokens.take k) 0) (leadingWords ++ ["SET"]) =
      false := by
    rcases h.identifierTokenAt_take k with heq | hall
    · rw [heq]
      exact tokenIn_eq_false h.1 (by decide)
    · rw [← List.append_nil (tokens.take k), identifierTokenAt_append fun t ht => by
        rw [hall t ht]; decide]
      decide
  have hlead : tokenIn (identifierTokenAt (tokens.take k) 0) leadingWords = false := by
    rw [Bool.eq_false_iff] at hfirst ⊢
    exact fun hl => hfirst (tokenIn_mono hl (List.subset_append_left _ _))
  have hset : tokenEquals (identifierTokenAt (tokens.take k) 0) "SET" = false := by
    rw [Bool.eq_false_iff] at hfirst ⊢
    exact fun hs => hfirst (List.any_eq_true.mpr ⟨"SET", by decide, hs⟩)
  rw [MyLite.Policy.rejectsTokens_eq, leadingRule_eq_false hlead, setRule_eq_false hset,
    Bool.false_or, Bool.or_false]

end MyLite.Policy

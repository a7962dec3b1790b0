import MyLite.MariaDB.ReplicationGrammar
import MyLite.Policy.Groups

namespace MyLite.Policy

open Computability MyLite.Lib MyLite.Sql MyLite.MariaDB

/-!
# Which replication statements the gate catches

`is_unsupported_replication_statement` and `is_unsupported_binlog_statement` compare the first
two or three identifier tokens with fixed words.  This file runs them on every derivation of
the grammar rules of `MyLite.MariaDB.ReplicationGrammar` and says exactly which are rejected.

* `leadingRule_of_startStop`, `leadingRule_of_show` — what the leading-word rules look at.
* `rejects_replicationFamily_iff` — the forms that are rejected, and no others, apart from
  operands that happen to hit a rule about neighbouring tokens.
-/

/-! ### No statement of the family has a parenthesis -/

variable {names : List String}

theorem allTokens_keyword (h : tokenIn parenToken names = false) :
    AllTokens (· ≠ parenToken) (keyword names) := by
  rintro ts ⟨u, rfl, hu⟩ t ht rfl
  rw [← List.mem_singleton.mp ht, h] at hu
  exact Bool.false_ne_true hu

theorem allTokens_textStringSys : AllTokens (· ≠ parenToken) textStringSys := by
  rintro ts ⟨-, quote, hq, hts⟩ t ht rfl
  have hquote : some 0x28 = some quote := hts _ ht
  rcases hq with rfl | rfl <;> exact absurd hquote (by decide)

theorem allTokens_number : AllTokens (· ≠ parenToken) number := by
  rintro ts ⟨-, hts⟩ t ht rfl
  exact absurd (hts _ ht) (by decide)

theorem allTokens_identCli : AllTokens (· ≠ parenToken) identCli := by
  rintro ts ⟨-, hts⟩ t ht rfl
  exact absurd (hts _ ht) (by decide)

theorem allTokens_replicationFamily : AllTokens (· ≠ parenToken) replicationFamily := by
  unfold replicationFamily slave startSlave stopSlave allSlaves showReplicationParam
    showLogs showSlaveHosts showBinlogEvents showRelaylogEvents showBinlogStatus showMasterStatus
    showAllSlavesStatus showSlaveStatus eventRange optGlobalLimitClause fetchFirstClause
    onlyOrWithTies rowOrRows firstOrNext limitOptions limitOption slaveUntil masterFileDef
    boolValue slaveThreadOpts slaveThreadOpt optionalForChannel optionalConnectionName
  -- One closure lemma for each way a rule is built; what is left are the terminals.
  repeat' with_reducible first
    | apply AllTokens.add
    | apply AllTokens.mul
    | apply AllTokens.kstar
    | apply AllTokens.opt
    | exact AllTokens.one
    | exact allTokens_textStringSys
    | exact allTokens_number
    | exact allTokens_identCli
  all_goals exact allTokens_keyword (by decide)

/-! ### Rules without a parenthesis -/

variable {tokens : SqlPolicyTokens}

theorem hasFunctionCall_eq_false (h : ∀ t ∈ tokens, t ≠ parenToken) (names : List String) :
    hasFunctionCall names tokens = false := by
  rw [Bool.eq_false_iff, ne_eq, hasFunctionCall, SqlPolicyTokens.anyFrom_eq_true]
  rintro ⟨i, -, -, hi⟩
  simp only [Bool.and_eq_true, decide_eq_true_eq] at hi
  exact h _ (SqlPolicyTokens.value_mem hi.1.1) (tokenEquals_paren.mp hi.2)

/-- What is left of the rules on neighbouring tokens when no parenthesis occurs: a `VECTOR`
    index and a table of `information_schema`. -/
def operandsHit (currentSchema : Text) (tokens : SqlPolicyTokens) : Bool :=
  isUnsupportedVectorIndexStatement tokens ||
    mentionsInformationSchemaTable tokens currentSchema blockedInformationSchemaTables

/-- The words the family's statements begin with. -/
def familyWords : List String := ["START", "STOP", "SHOW"]

theorem rejectsTokens_of_familyWords (currentSchema : Text) (h : ∀ t ∈ tokens, t ≠ parenToken)
    (h0 : tokenIn (identifierTokenAt tokens 0) familyWords = true) :
    rejectsTokens currentSchema tokens =
      (leadingRule tokens || operandsHit currentSchema tokens) := by
  have hset : tokenEquals (identifierTokenAt tokens 0) "SET" = false :=
    tokenEquals_eq_false h0 (by decide)
  have hsel : tokenEquals (identifierTokenAt tokens 0) "SELECT" = false :=
    tokenEquals_eq_false h0 (by decide)
  have hwith : tokenIn (identifierTokenAt tokens 0) ["SELECT", "WITH"] = false :=
    tokenIn_eq_false h0 (by decide)
  have hne : (identifierTokenAt tokens 0).isEmpty = false := by
    rw [Bool.eq_false_iff, ne_eq, List.isEmpty_iff]
    intro he
    rw [he] at h0
    exact absurd h0 (by decide)
  rw [rejectsTokens_eq, neighbourRule, setRule_eq_false hset]
  simp only [isUnsupportedProcedureAnalyseStatement,
    isUnsupportedVectorRuntimeStatement, isUnsupportedVectorSqlFunctionStatement,
    isUnsupportedXmlSqlFunctionCall, isUnsupportedDynamicColumnFunctionCall,
    serverSurfaceFunctionCall, isUnsupportedReplicationFunctionStatement,
    isUnsupportedServerUtilityFunctionStatement, isUnsupportedSelectFileStatement,
    hasFunctionCall_eq_false h, hsel, hwith, hne, operandsHit, Bool.false_and,
    Bool.false_or, Bool.or_false, Bool.not_false, Bool.true_and]

/-! ### The leading words -/

/-- What the leading-word rules look at behind `SHOW`, in the order of the gate. -/
def showRule (second third : Text) : Bool :=
  tokenEquals second "EVENTS" || tokenEquals second "CREATE" && tokenEquals third "EVENT" ||
    (if tokenEquals second "BINARY" then tokenIn third ["LOGS", "STATUS"]
      else if tokenEquals second "BINLOG" then tokenEquals third "EVENTS"
      else if tokenIn second ["MASTER", "SLAVE", "REPLICA"] then tokenEquals third "STATUS"
      else false) ||
    tokenIn second ["AUTHORS", "CONTRIBUTORS", "PRIVILEGES"] ||
    (tokenEquals second "PROCESSLIST" ||
      tokenEquals second "FULL" && tokenEquals third "PROCESSLIST") ||
    tokenEquals second "CREATE" && tokenEquals third "SERVER" ||
    tokenIn second ["USER_VARIABLES", "PROFILE", "PROFILES"]

theorem leadingRule_of_show (h : tokenEquals (identifierTokenAt tokens 0) "SHOW" = true) :
    leadingRule tokens = showRule (identifierTokenAt tokens 1) (identifierTokenAt tokens 2) := by
  have hk := tokenEquals_subst h
  rw [Bool.eq_iff_iff]
  simp +decide [leadingRule, showRule, isUnsupportedAccountOrEventStatement,
    isUnsupportedUdfStatement, isUnsupportedBinlogStatement, hk, tokenIn_cons, tokenIn_nil]

theorem leadingRule_of_startStop
    (h : tokenIn (identifierTokenAt tokens 0) ["START", "STOP"] = true) :
    leadingRule tokens = tokenIn (identifierTokenAt tokens 1) ["SLAVE", "REPLICA"] := by
  rw [Bool.eq_iff_iff]
  obtain ⟨word, hmem, hword⟩ := List.any_eq_true.mp h
  have hk := tokenEquals_subst hword
  simp only [List.mem_cons, List.not_mem_nil, or_false] at hmem
  rcases hmem with rfl | rfl
  all_goals
    simp +decide [leadingRule, isUnsupportedAccountOrEventStatement, isUnsupportedUdfStatement,
      isUnsupportedBinlogStatement, hk, tokenIn_cons, tokenIn_nil]

theorem showRule_congr {second third s' t' : Text} (hs : fold second = fold s')
    (ht : fold third = fold t') : showRule second third = showRule s' t' := by
  simp only [showRule, tokenEquals_congr hs, tokenEquals_congr ht, tokenIn_congr hs,
    tokenIn_congr ht]

/-! ### Identifier tokens of a derivation -/

variable {ts rest : List Text} {t u v : Text}

theorem mem_keyword_mul {l : Language Text} :
    ts ∈ keyword names * l ↔ ∃ t rest, ts = t :: rest ∧ tokenIn t names = true ∧ rest ∈ l := by
  rw [Language.mem_mul]
  constructor
  · rintro ⟨a, ⟨t, rfl, ht⟩, b, hb, rfl⟩
    exact ⟨t, b, rfl, ht, hb⟩
  · rintro ⟨t, b, rfl, ht, hb⟩
    exact ⟨[t], ⟨t, rfl, ht⟩, b, hb, rfl⟩

theorem isSqlIdentifierToken_of_mem_textStringSys (h : ts ∈ textStringSys) :
    ∀ t ∈ ts, isSqlIdentifierToken t = false := by
  obtain ⟨-, quote, hq, hts⟩ := h
  intro t ht
  rw [isSqlIdentifierToken, hts t ht]
  rcases hq with rfl | rfl <;> decide

/-- A word in front: it is the first identifier token, and the others count from behind it. -/
theorem identifierTokenAt_take (h : tokenIn t names = true)
    (hw : ∀ name ∈ names, isSqlIdentifierToken (ascii name) = true) (rest : List Text) (n : ℕ) :
    identifierTokenAt ((t :: rest).take (n + 1)) 0 = t ∧
      ∀ i, identifierTokenAt ((t :: rest).take (n + 1)) (i + 1) =
        identifierTokenAt (rest.take n) i := by
  have ht := isSqlIdentifierToken_of_tokenIn h hw
  rw [List.take_succ_cons]
  exact ⟨identifierTokenAt_cons_zero ht _, fun i => identifierTokenAt_cons_succ ht _ i⟩

/-- The leading-word rules on `SHOW word …`. -/
theorem leadingRule_take_show (ht : tokenIn t ["SHOW"] = true) (hu : tokenIn u names = true)
    (hw : ∀ name ∈ names, isSqlIdentifierToken (ascii name) = true) :
    leadingRule ((t :: u :: rest).take policyTokenLimit) =
      showRule u (identifierTokenAt (rest.take 30) 0) := by
  obtain ⟨h0, hs⟩ := identifierTokenAt_take ht (by decide) (u :: rest) 31
  obtain ⟨h1, hs'⟩ := identifierTokenAt_take hu hw rest 30
  have hshow : tokenEquals t "SHOW" = true := by simpa [tokenIn] using ht
  rw [policyTokenLimit, leadingRule_of_show (by rw [h0]; exact hshow), hs 0, hs 1, h1, hs' 0]

/-- The leading-word rules on `START word …` and `STOP word …`. -/
theorem leadingRule_take_startStop {first : List String} (ht : tokenIn t first = true)
    (hfirst : first ⊆ ["START", "STOP"]) (hu : tokenIn u names = true)
    (hw : ∀ name ∈ names, isSqlIdentifierToken (ascii name) = true) :
    leadingRule ((t :: u :: rest).take policyTokenLimit) = tokenIn u ["SLAVE", "REPLICA"] := by
  have ht' : tokenIn t ["START", "STOP"] = true := by
    obtain ⟨name, hmem, hname⟩ := List.any_eq_true.mp ht
    exact List.any_eq_true.mpr ⟨name, hfirst hmem, hname⟩
  obtain ⟨h0, hs⟩ := identifierTokenAt_take ht' (by decide) (u :: rest) 31
  obtain ⟨h1, -⟩ := identifierTokenAt_take hu hw rest 30
  rw [policyTokenLimit, leadingRule_of_startStop (by rw [h0]; exact ht'), hs 0, h1]

/-- `showRule` on two keywords is `showRule` on their names. -/
theorem showRule_keywords {names' : List String} {b : Bool} (ht : tokenIn t names = true)
    (hu : tokenIn u names' = true)
    (h : ∀ name ∈ names, ∀ name' ∈ names', showRule (ascii name) (ascii name') = b) :
    showRule t u = b := by
  obtain ⟨name, hmem, hname⟩ := List.any_eq_true.mp ht
  obtain ⟨name', hmem', hname'⟩ := List.any_eq_true.mp hu
  rw [showRule_congr (tokenEquals_iff.mp hname) (tokenEquals_iff.mp hname')]
  exact h name hmem name' hmem'

theorem leadingRule_take_show_keywords {names' : List String} {b : Bool}
    (ht : tokenIn t ["SHOW"] = true) (hu : tokenIn u names = true) (hv : tokenIn v names' = true)
    (hw : ∀ name ∈ names, isSqlIdentifierToken (ascii name) = true)
    (hw' : ∀ name ∈ names', isSqlIdentifierToken (ascii name) = true)
    (h : ∀ name ∈ names, ∀ name' ∈ names', showRule (ascii name) (ascii name') = b) :
    leadingRule ((t :: u :: v :: rest).take policyTokenLimit) = b := by
  rw [leadingRule_take_show ht hu hw, List.take_succ_cons,
    identifierTokenAt_cons_zero (isSqlIdentifierToken_of_tokenIn hv hw')]
  exact showRule_keywords hu hv h

/-- Nothing behind `SHOW RELAYLOG` matters. -/
theorem showRule_relaylog (ht : tokenIn t ["RELAYLOG"] = true) (third : Text) :
    showRule t third = false := by
  have hk : fold t = fold (ascii "RELAYLOG") := by simpa [tokenIn, tokenEquals_iff] using ht
  rw [showRule_congr hk rfl]
  rw [Bool.eq_false_iff]
  simp +decide [showRule, tokenIn]

/-! ### The forms that are rejected -/

/-- A connection name short enough for `STATUS` behind it to be among the first 32 tokens. -/
def shortConnectionName : Language Text := {ts | ts ∈ optionalConnectionName ∧ ts.length ≤ 29}

/-- The statements of the family whose leading words the gate knows. -/
def rejectedForms : Language Text :=
  startSlave + stopSlave + keyword ["SHOW"] *
    (showLogs ["BINARY"] + showBinlogEvents + showMasterStatus +
      showSlaveStatus shortConnectionName)

/-- The word behind a connection name is the next identifier token if it is in the window. -/
theorem identifierTokenAt_take_name {name : List Text} (tail : List Text)
    (hname : ∀ t ∈ name, isSqlIdentifierToken t = false) (hu : isSqlIdentifierToken u = true) :
    identifierTokenAt ((name ++ u :: tail).take 30) 0 = if name.length ≤ 29 then u else [] := by
  rw [List.take_append]
  split_ifs with hlen
  · have h30 : 30 - name.length = (29 - name.length) + 1 := by omega
    rw [List.take_of_length_le (by omega), identifierTokenAt_append hname, h30,
      List.take_succ_cons, identifierTokenAt_cons_zero hu]
  · have h30 : 30 - name.length = 0 := by omega
    rw [h30, List.take_zero,
      identifierTokenAt_append fun t ht => hname t (List.mem_of_mem_take ht)]
    rfl

theorem isSqlIdentifierToken_of_mem_optionalConnectionName (h : ts ∈ optionalConnectionName) :
    ∀ t ∈ ts, isSqlIdentifierToken t = false := by
  rcases mem_opt.mp h with rfl | h
  · intro t ht; cases ht
  · exact isSqlIdentifierToken_of_mem_textStringSys h

theorem mem_showSlaveStatus {name : Language Text} :
    ts ∈ showSlaveStatus name ↔ ∃ t, tokenIn t ["SLAVE", "REPLICA"] = true ∧ ∃ n ∈ name,
      ∃ u, tokenIn u ["STATUS"] = true ∧ ∃ tail ∈ optionalForChannel,
        ts = t :: (n ++ u :: tail) := by
  unfold showSlaveStatus
  rw [mem_keyword_mul]
  constructor
  · rintro ⟨t, rest, rfl, ht, hrest⟩
    obtain ⟨n, hn, b, hb, rfl⟩ := Language.mem_mul.mp hrest
    obtain ⟨u, tail, rfl, hu, htail⟩ := mem_keyword_mul.mp hb
    exact ⟨t, ht, n, hn, u, hu, tail, htail, rfl⟩
  · rintro ⟨t, ht, n, hn, u, hu, tail, htail, rfl⟩
    exact ⟨t, _, rfl, ht, Language.mem_mul.mpr
      ⟨n, hn, _, mem_keyword_mul.mpr ⟨u, tail, rfl, hu, htail⟩, rfl⟩⟩

/-- The gate's leading words on `SHOW SLAVE [name] STATUS`. -/
theorem leadingRule_take_showSlaveStatus {name tail : List Text} (ht : tokenIn t ["SHOW"] = true)
    (hu : tokenIn u ["SLAVE", "REPLICA"] = true) (hv : tokenIn v ["STATUS"] = true)
    (hname : name ∈ optionalConnectionName) :
    leadingRule ((t :: u :: (name ++ v :: tail)).take policyTokenLimit) =
      decide (name.length ≤ 29) := by
  rw [leadingRule_take_show ht hu (by decide), identifierTokenAt_take_name tail
    (isSqlIdentifierToken_of_mem_optionalConnectionName hname)
    (isSqlIdentifierToken_of_tokenIn hv (by decide))]
  by_cases hlen : name.length ≤ 29
  · rw [if_pos hlen, decide_eq_true hlen]
    exact showRule_keywords hu hv (by decide)
  · have hnone : tokenIn [] [""] = true := by decide
    rw [if_neg hlen, decide_eq_false hlen]
    exact showRule_keywords hu hnone (by decide)

/-- A form of the list is rejected by its leading words. -/
theorem leadingRule_of_mem_rejectedForms (h : ts ∈ rejectedForms) :
    leadingRule (ts.take policyTokenLimit) = true := by
  rcases h with (h | h) | h
  iterate 2
    · obtain ⟨t, rest, rfl, ht, hrest⟩ := mem_keyword_mul.mp h
      obtain ⟨u, rest, rfl, hu, -⟩ := mem_keyword_mul.mp hrest
      rw [leadingRule_take_startStop ht (by simp) hu (by decide)]
      exact hu
  · obtain ⟨t, rest, rfl, ht, hrest⟩ := mem_keyword_mul.mp h
    rcases hrest with ((hr | hr) | hr) | hr
    · obtain ⟨u, _, rfl, hu, v, rfl, hv⟩ := mem_keyword_mul.mp hr
      exact leadingRule_take_show_keywords ht hu hv (by decide) (by decide) (by decide)
    · obtain ⟨u, _, rfl, hu, hr⟩ := mem_keyword_mul.mp hr
      obtain ⟨v, rest, rfl, hv, -⟩ := mem_keyword_mul.mp hr
      exact leadingRule_take_show_keywords ht hu hv (by decide) (by decide) (by decide)
    · obtain ⟨u, _, rfl, hu, v, rfl, hv⟩ := mem_keyword_mul.mp hr
      exact leadingRule_take_show_keywords ht hu hv (by decide) (by decide) (by decide)
    · obtain ⟨u, hu, name, ⟨hname, hlen⟩, v, hv, tail, -, rfl⟩ := mem_showSlaveStatus.mp hr
      rw [leadingRule_take_showSlaveStatus ht hu hv hname, decide_eq_true hlen]

/-- A statement of the family that the leading words reject has one of the listed forms. -/
theorem mem_rejectedForms_of_leadingRule (hts : ts ∈ replicationFamily)
    (h : leadingRule (ts.take policyTokenLimit) = true) : ts ∈ rejectedForms := by
  rcases hts with ((hs | hs) | hs) | hs
  · exact .inl (.inl hs)
  · exact .inl (.inr hs)
  · -- START ALL SLAVES, STOP ALL SLAVES: the second word is ALL.
    obtain ⟨t, _, rfl, ht, hr⟩ := mem_keyword_mul.mp hs
    obtain ⟨u, rest, rfl, hu, -⟩ := mem_keyword_mul.mp hr
    rw [leadingRule_take_startStop ht (List.Subset.refl _) hu (by decide),
      tokenIn_eq_false hu (by decide)] at h
    cases h
  · obtain ⟨t, _, rfl, ht, hr⟩ := mem_keyword_mul.mp hs
    refine .inr (mem_keyword_mul.mpr ⟨t, _, rfl, ht, ?_⟩)
    rcases hr with (((((((hr | hr) | hr) | hr) | hr) | hr) | hr) | hr)
    · -- LOGS: of the two keywords only BINARY is looked for.
      obtain ⟨u, _, rfl, hu, v, rfl, hv⟩ := mem_keyword_mul.mp hr
      simp only [tokenIn_cons, tokenIn_nil, Bool.or_false, Bool.or_eq_true] at hu
      rcases hu with hu | hu
      · have hu' : tokenIn u ["MASTER"] = true := by simpa [tokenIn] using hu
        rw [leadingRule_take_show_keywords ht hu' hv (by decide) (by decide) (b := false)
          (by decide)] at h
        cases h
      · refine .inl (.inl (.inl (mem_keyword_mul.mpr ⟨u, _, rfl, ?_, v, rfl, hv⟩)))
        simpa [tokenIn] using hu
    · obtain ⟨u, _, rfl, hu, v, rfl, hv⟩ := mem_keyword_mul.mp hr
      rw [leadingRule_take_show_keywords ht hu hv (by decide) (by decide) (b := false)
        (by decide)] at h
      cases h
    · exact .inl (.inl (.inr hr))
    · obtain ⟨u, rest, rfl, hu, -⟩ := mem_keyword_mul.mp hr
      rw [leadingRule_take_show ht hu (by decide), showRule_relaylog hu] at h
      cases h
    · obtain ⟨u, _, rfl, hu, v, rfl, hv⟩ := mem_keyword_mul.mp hr
      rw [leadingRule_take_show_keywords ht hu hv (by decide) (by decide) (b := false)
        (by decide)] at h
      cases h
    · exact .inl (.inr hr)
    · obtain ⟨u, _, rfl, hu, hr⟩ := mem_keyword_mul.mp hr
      obtain ⟨v, rest, rfl, hv, -⟩ := mem_keyword_mul.mp hr
      rw [leadingRule_take_show_keywords ht hu hv (by decide) (by decide) (b := false)
        (by decide)] at h
      cases h
    · obtain ⟨u, hu, name, hname, v, hv, tail, htail, rfl⟩ := mem_showSlaveStatus.mp hr
      rw [leadingRule_take_showSlaveStatus ht hu hv hname, decide_eq_true_eq] at h
      exact .inr (mem_showSlaveStatus.mpr
        ⟨u, hu, name, ⟨hname, h⟩, v, hv, tail, htail, rfl⟩)

theorem head_of_mem_replicationFamily (h : ts ∈ replicationFamily) :
    ∃ t rest, ts = t :: rest ∧ tokenIn t familyWords = true := by
  have key : ∀ (names : List String) (l : Language Text), names ⊆ familyWords →
      ts ∈ keyword names * l → ∃ t rest, ts = t :: rest ∧ tokenIn t familyWords = true := by
    intro names l hsub hmem
    obtain ⟨t, rest, rfl, ht, -⟩ := mem_keyword_mul.mp hmem
    obtain ⟨name, hname, hEq⟩ := List.any_eq_true.mp ht
    exact ⟨t, rest, rfl, List.any_eq_true.mpr ⟨name, hsub hname, hEq⟩⟩
  rcases h with ((h | h) | h) | h
  · exact key _ _ (by decide) h
  · exact key _ _ (by decide) h
  · exact key _ _ (by decide) h
  · exact key _ _ (by decide) h

/-- **Coverage.** A replication statement is rejected exactly when it has one of the forms whose
    leading words the gate knows, or when its operands happen to hit a rule about neighbouring
    tokens.  `START ALL SLAVES`, `STOP ALL SLAVES`, `SHOW MASTER LOGS`, `SHOW SLAVE HOSTS`,
    `SHOW RELAYLOG EVENTS`, `SHOW BINLOG STATUS` and `SHOW ALL SLAVES STATUS` get through. -/
theorem rejects_replicationFamily_iff (currentSchema sql : Text)
    (h : sqlTokens sql ∈ replicationFamily) :
    rejects currentSchema sql = true ↔
      sqlTokens sql ∈ rejectedForms ∨
        operandsHit currentSchema ((sqlTokens sql).take policyTokenLimit) = true := by
  obtain ⟨t, rest, hts, ht⟩ := head_of_mem_replicationFamily h
  have hparen : ∀ u ∈ (sqlTokens sql).take policyTokenLimit, u ≠ parenToken := fun u hu =>
    allTokens_replicationFamily _ h u (List.mem_of_mem_take hu)
  have h0 : identifierTokenAt ((sqlTokens sql).take policyTokenLimit) 0 = t := by
    rw [hts]; exact (identifierTokenAt_take ht (by decide) rest 31).1
  rw [rejects_eq, rejectsTokens_of_familyWords currentSchema hparen (by rw [h0]; exact ht),
    Bool.or_eq_true]
  constructor
  · rintro (hl | ho)
    · exact .inl (mem_rejectedForms_of_leadingRule h hl)
    · exact .inr ho
  · rintro (hr | ho)
    · exact .inl (leadingRule_of_mem_rejectedForms hr)
    · exact .inr ho

/-- Two words of `SHOW`, for the statements without operands. -/
theorem show_mem_replicationFamily {sql : Text} (hsql : sqlTokens sql = [t, u, v])
    (ht : tokenIn t ["SHOW"] = true) (hu : tokenIn u ["MASTER", "BINARY"] = true)
    (hv : tokenIn v ["LOGS"] = true) : sqlTokens sql ∈ replicationFamily := by
  rw [hsql]
  refine .inr (mem_keyword_mul.mpr ⟨t, [u, v], rfl, ht, ?_⟩)
  iterate 7 refine .inl ?_
  exact mem_keyword_mul.mpr ⟨u, [v], rfl, hu, v, rfl, hv⟩

theorem rejects_showBinaryLogs :
    rejects [] (ascii "SHOW BINARY LOGS") = true ↔
      sqlTokens (ascii "SHOW BINARY LOGS") ∈ rejectedForms ∨
        operandsHit [] ((sqlTokens (ascii "SHOW BINARY LOGS")).take policyTokenLimit) = true :=
  rejects_replicationFamily_iff _ _
    (show_mem_replicationFamily (t := ascii "SHOW") (u := ascii "BINARY") (v := ascii "LOGS")
      (by decide) (by decide) (by decide) (by decide))

theorem not_rejects_startAllSlaves :
    sqlTokens (ascii "START ALL SLAVES") ∈ replicationFamily ∧
      rejects [] (ascii "START ALL SLAVES") = false := by
  refine ⟨?_, by decide⟩
  have htokens : sqlTokens (ascii "START ALL SLAVES") = ["START", "ALL", "SLAVES"].map ascii := by
    decide
  rw [htokens]
  refine .inl (.inr (mem_keyword_mul.mpr ⟨_, _, rfl, by decide, ?_⟩))
  refine mem_keyword_mul.mpr ⟨_, _, rfl, by decide, mem_keyword_mul.mpr ⟨_, _, rfl, by decide, ?_⟩⟩
  exact Language.mem_mul.mpr ⟨[], .inl (.inl rfl), [], Language.nil_mem_kstar _, rfl⟩

end MyLite.Policy

import MyLite.Policy.Window

namespace MyLite.Policy

open MyLite.Lib MyLite.Sql MyLite.MariaDB List

/-!
# What the first 32 tokens decide

`collect_sql_policy_tokens` stops after 32 tokens.  Here the decision on the collected tokens is
compared with the decision of the same rules on all tokens of the text.

* `Group` — the groups of the gate in their order, with the diagnostic of each.
* `Group.persists_fires` — a longer text never takes a hit away.
* `Group.seen_iff` — a group fires on the collected tokens exactly when it has a hit all of whose
  tokens are among them.
* `rejectUnsupportedSqlPolicy_eq_iff` — when the decision is the one of the complete text.
-/

/-! ### Assignments persist -/

theorem firstSetAssignmentTokenIndex_eq {u tokens : SqlPolicyTokens} (h : u <+: tokens)
    (hlen : 2 < u.length) :
    firstSetAssignmentTokenIndex u = firstSetAssignmentTokenIndex tokens := by
  obtain ⟨rest, rfl⟩ := h
  have hvalue : ∀ i, i < u.length → SqlPolicyTokens.value (u ++ rest) i = u.value i := by
    intro i hi
    rw [SqlPolicyTokens.value, SqlPolicyTokens.value, getD_eq_getElem?_getD,
      getD_eq_getElem?_getD, List.getElem?_append_left hi]
  have hlen' : 2 < (u ++ rest).length := by
    rw [length_append]
    omega
  rw [firstSetAssignmentTokenIndex, firstSetAssignmentTokenIndex, hvalue 1 (by omega),
    hvalue 2 hlen, decide_eq_true hlen, decide_eq_true hlen']

/-- More tokens behind an assignment leave it an assignment. -/
theorem persists_anyAssigned (isName : Text → Bool) {isValue : List Text → Bool}
    (hvalue : Persists isValue) : Persists (anyAssigned isName isValue) := by
  intro u tokens hu hfires
  obtain ⟨a, n, b, hsplit, hne, hname, hqual, hb⟩ := anyAssigned_iff.mp hfires
  have hlen : 2 < u.length := by
    have hpos := length_pos_of_ne_nil hne
    rw [hsplit, length_append, length_cons, length_cons]
    omega
  rw [firstSetAssignmentTokenIndex_eq hu hlen] at hqual
  obtain ⟨rest, hrest⟩ := hu
  refine anyAssigned_iff.mpr ⟨a, n, b ++ rest, ?_, hne, hname, hqual, hvalue ⟨rest, rfl⟩ hb⟩
  rw [← hrest, hsplit, append_assoc]
  rfl

theorem persists_valueMentionsOracle (depth : ℕ) : Persists (valueMentionsOracle depth) := by
  rintro u _ ⟨rest, rfl⟩ h
  induction u generalizing depth with
  | nil => cases h
  | cons token u ih =>
    rw [cons_append]
    unfold valueMentionsOracle at h ⊢
    split_ifs at h ⊢ with hopen hclose hcomma
    · exact ih _ h
    · exact ih _ h
    · rw [Bool.or_eq_true] at h ⊢
      exact h.imp_right (ih _)

theorem persists_setAssigns (isName : Text → Bool) : Persists (setAssigns isName) := by
  rw [funext (setAssigns_eq_anyAssigned isName)]
  exact .and (persists_word 0 (by decide)) (persists_anyAssigned isName (.const true))

/-! ### The groups -/

/-- The groups of `reject_unsupported_sql_policy`. -/
inductive Group
  | oracleSqlMode
  | procedureAnalyse
  | vectorRuntime
  | xmlFunctions
  | dynamicColumns
  | serverSurface
deriving DecidableEq, Repr

namespace Group

/-- The order in which the gate asks them. -/
def all : List Group :=
  [oracleSqlMode, procedureAnalyse, vectorRuntime, xmlFunctions, dynamicColumns, serverSurface]

def fires (currentSchema : Text) (tokens : SqlPolicyTokens) : Group → Bool
  | oracleSqlMode => isUnsupportedOracleSqlModeStatement tokens
  | procedureAnalyse => isUnsupportedProcedureAnalyseStatement tokens
  | vectorRuntime => isUnsupportedVectorRuntimeStatement tokens
  | xmlFunctions => isUnsupportedXmlSqlFunctionCall tokens
  | dynamicColumns => isUnsupportedDynamicColumnFunctionCall tokens
  | serverSurface => isUnsupportedServerSurfaceSql tokens currentSchema

def message : Group → String
  | oracleSqlMode => "Oracle SQL mode is not supported by MyLite"
  | procedureAnalyse => "PROCEDURE ANALYSE is not supported by MyLite"
  | vectorRuntime => "vector SQL runtime is not supported by MyLite"
  | xmlFunctions => "XML SQL functions are not supported by MyLite"
  | dynamicColumns => "dynamic columns are not supported by MyLite"
  | serverSurface => "server-owned SQL surface is not supported by MyLite"

/-- A diagnostic tells which group it is from. -/
theorem message_injective : Function.Injective message := by
  intro g g' h
  cases g <;> cases g' <;> first | rfl | exact absurd h (by decide)

end Group

variable (currentSchema : Text) (tokens : SqlPolicyTokens)

/-- The group that decides: the first one that fires. -/
def decidingGroup : Option Group :=
  Group.all.find? (Group.fires currentSchema tokens)

theorem policyError_eq :
    policyError currentSchema tokens = (decidingGroup currentSchema tokens).map Group.message := by
  unfold policyError decidingGroup Group.all
  split_ifs <;> simp [*, Group.fires, Group.message]

/-! ### Hits persist -/

theorem local_hasFunctionCall (names : List String) : Local 3 (hasFunctionCall names) :=
  .of_adjacent hasFunctionCall_iff (by decide)

theorem local_vectorRuntime : Local 3 isUnsupportedVectorRuntimeStatement := by
  refine .or (local_hasFunctionCall _) ?_
  intro tokens
  constructor
  · intro h
    rcases isUnsupportedVectorIndexStatement_iff.mp h with
      ⟨a, b, hab, hvector, hkey⟩ | ⟨a, b, c, habc, hbefore, hvector, hparen⟩
    · exact ⟨[a, b], Nat.le_succ 2, hab, isUnsupportedVectorIndexStatement_iff.mpr
        (.inl ⟨a, b, infix_rfl, hvector, hkey⟩)⟩
    · exact ⟨[a, b, c], le_rfl, habc, isUnsupportedVectorIndexStatement_iff.mpr
        (.inr ⟨a, b, c, infix_rfl, hbefore, hvector, hparen⟩)⟩
  · rintro ⟨w, -, hw, h⟩
    rw [isUnsupportedVectorIndexStatement_iff] at h ⊢
    exact h.imp (fun h => h.mono hw) (fun h => h.mono hw)

theorem local_mentionsInformationSchemaTable (tables : List String) :
    Local 3 fun tokens => mentionsInformationSchemaTable tokens currentSchema tables := by
  have hqualified : ∀ name, Local 3 fun tokens => hasInformationSchemaTable tokens name :=
    fun name => .of_adjacent3 hasInformationSchemaTable_iff le_rfl
  have hunqualified : ∀ name, Local 3 fun tokens =>
      hasCurrentSchemaTableReference tokens name currentSchema := by
    intro name
    unfold hasCurrentSchemaTableReference
    exact .const_and _ (.of_adjacent hasUnqualifiedTableReference_iff (by decide))
  unfold mentionsInformationSchemaTable
  exact .or (.any hqualified tables) (.any hunqualified tables)

theorem local_serverSurfaceNearby : Local 3 (serverSurfaceNearby currentSchema) :=
  .or (.or (local_hasFunctionCall _) (local_hasFunctionCall _))
    (local_mentionsInformationSchemaTable _ _)

theorem persists_procedureAnalyse : Persists isUnsupportedProcedureAnalyseStatement := by
  intro u tokens hu h
  rw [isUnsupportedProcedureAnalyseStatement_iff] at h ⊢
  exact ⟨persists_word 0 (by decide) hu h.1, h.2.mono hu.isInfix⟩

theorem persists_selectFile : Persists isUnsupportedSelectFileStatement := by
  intro u tokens hu h
  rw [isUnsupportedSelectFileStatement_iff] at h ⊢
  exact ⟨persists_wordIn 0 (by decide) hu h.1, h.2.mono hu.isInfix⟩

theorem persists_hasWord : Persists fun tokens => !(identifierTokenAt tokens 0).isEmpty := by
  intro u tokens hu h
  change (!(identifierTokenAt u 0).isEmpty) = true at h
  show (!(identifierTokenAt tokens 0).isEmpty) = true
  rcases identifierTokenAt_cases hu 0 with heq | hnil
  · rwa [← heq]
  · rw [hnil 0 le_rfl] at h
    cases h

/-- The server-surface group, by the kinds of its rules. -/
theorem isUnsupportedServerSurfaceSql_eq_or :
    isUnsupportedServerSurfaceSql tokens currentSchema =
      (leadingRule tokens || !(identifierTokenAt tokens 0).isEmpty &&
        (serverSurfaceNearby currentSchema tokens || isUnsupportedSelectFileStatement tokens) ||
        setAssigns isBlockedVariableToken tokens) := by
  cases he : (identifierTokenAt tokens 0).isEmpty
  · rw [isUnsupportedServerSurfaceSql_eq he, Bool.not_false, Bool.true_and, serverSurfaceNearby,
      Bool.or_right_comm (serverSurfaceFunctionCall tokens)]
  · rw [isUnsupportedServerSurfaceSql, he, leadingRule_of_isEmpty he, setAssigns_of_isEmpty he]
    rfl

/-- **Persistence.** A group that fires on a beginning of the tokens fires on all of them. -/
theorem Group.persists_fires (g : Group) : Persists fun tokens => g.fires currentSchema tokens := by
  cases g with
  | oracleSqlMode =>
    exact .and (persists_word 0 (by decide))
      (persists_anyAssigned (tokenEquals · "SQL_MODE") (persists_valueMentionsOracle 0))
  | procedureAnalyse => exact persists_procedureAnalyse
  | vectorRuntime => exact local_vectorRuntime.persists
  | xmlFunctions | dynamicColumns => exact (local_hasFunctionCall _).persists
  | serverSurface =>
    show Persists fun tokens => isUnsupportedServerSurfaceSql tokens currentSchema
    rw [funext (isUnsupportedServerSurfaceSql_eq_or currentSchema)]
    exact .or (.or persists_leadingRule (.and persists_hasWord
      (.or (local_serverSurfaceNearby currentSchema).persists persists_selectFile)))
      (persists_setAssigns _)

/-! ### Hits among the collected tokens -/

/-- The first word of the text is among the collected tokens and is one of `names`. -/
def StartsWith (names : List String) (tokens : List Text) : Prop :=
  ∃ a word b, tokens = a ++ word :: b ∧ a.length < policyTokenLimit ∧
    (∀ t ∈ a, isSqlIdentifierToken t = false) ∧ tokenIn word names = true

/-- An assignment to a name with `isName`, up to its `=` among the collected tokens, of a value
    whose collected tokens meet `isValue`. -/
def AssignsEarly (isName : Text → Bool) (isValue : List Text → Bool) (tokens : List Text) : Prop :=
  ∃ a n b, tokens = a ++ n :: equalToken :: b ∧ a.length + 2 ≤ policyTokenLimit ∧ a ≠ [] ∧
    isName n = true ∧ Qualifies (firstSetAssignmentTokenIndex tokens) a ∧
    isValue (b.take (policyTokenLimit - (a.length + 2))) = true

theorem assignsEarly_iff {isName : Text → Bool} {isValue : List Text → Bool}
    {tokens : List Text} :
    anyAssigned isName isValue (tokens.take policyTokenLimit) = true ↔
      AssignsEarly isName isValue tokens := anyAssigned_take_iff

/-- Up to three neighbours among the collected tokens that make the rule fire. -/
def Nearby (rule : SqlPolicyTokens → Bool) (tokens : List Text) : Prop :=
  ∃ w, w.length ≤ 3 ∧ w <:+: tokens.take policyTokenLimit ∧ rule w = true

/-- The group has a hit all of whose tokens are among the collected ones. -/
def Group.Seen (tokens : List Text) : Group → Prop
  | oracleSqlMode => StartsWith ["SET"] tokens ∧
      AssignsEarly (tokenEquals · "SQL_MODE") (valueMentionsOracle 0) tokens
  | procedureAnalyse => StartsWith ["SELECT"] tokens ∧
      Adjacent3 (tokenEquals · "PROCEDURE") (tokenEquals · "ANALYSE") (tokenEquals · "(")
        (tokens.take policyTokenLimit)
  | vectorRuntime => Nearby isUnsupportedVectorRuntimeStatement tokens
  | xmlFunctions => Nearby isUnsupportedXmlSqlFunctionCall tokens
  | dynamicColumns => Nearby isUnsupportedDynamicColumnFunctionCall tokens
  | serverSurface =>
    -- The words of a leading-word rule, a nearby hit of a text with a word in it, a file
    -- statement, or an assignment.
    leadingRule (tokens.take policyTokenLimit) = true ∨
      (∃ t ∈ tokens.take policyTokenLimit, isSqlIdentifierToken t = true) ∧
        Nearby (serverSurfaceNearby currentSchema) tokens ∨
      StartsWith ["SELECT", "WITH"] tokens ∧
        Adjacent (tokenEquals · "INTO") (tokenIn · ["OUTFILE", "DUMPFILE"])
          (tokens.take policyTokenLimit) ∨
      StartsWith ["SET"] tokens ∧ AssignsEarly isBlockedVariableToken (fun _ => true) tokens

theorem startsWith_iff {names : List String} {tokens : List Text}
    (hwords : ∀ name ∈ names, isSqlIdentifierToken (ascii name) = true) :
    StartsWith names tokens ↔
      tokenIn (identifierTokenAt (tokens.take policyTokenLimit) 0) names = true := by
  constructor
  · rintro ⟨a, word, b, rfl, hlen, ha, hword⟩
    obtain ⟨m, hm⟩ : ∃ m, policyTokenLimit - a.length = m + 1 :=
      ⟨policyTokenLimit - a.length - 1, by omega⟩
    rw [take_append, take_of_length_le hlen.le, hm, take_succ_cons,
      identifierTokenAt_append ha,
      identifierTokenAt_cons_zero (isSqlIdentifierToken_of_tokenIn hword hwords)]
    exact hword
  · intro h
    unfold identifierTokenAt at h
    cases hids : identifierTokens (tokens.take policyTokenLimit) with
    | nil =>
      rw [hids] at h
      exact absurd (isSqlIdentifierToken_of_tokenIn h hwords) (by decide)
    | cons word rest =>
      rw [hids] at h
      obtain ⟨a, b, hsplit, ha, -, -⟩ := filter_eq_cons_iff.mp hids
      have hlen := congrArg List.length hsplit
      rw [length_take, length_append, length_cons] at hlen
      refine ⟨a, word, b ++ tokens.drop policyTokenLimit, ?_, by omega, ?_, h⟩
      · calc tokens = tokens.take policyTokenLimit ++ tokens.drop policyTokenLimit :=
              (take_append_drop _ _).symm
          _ = _ := by rw [hsplit, append_assoc, cons_append]
      · intro t ht
        exact Bool.eq_false_iff.mpr (ha t ht)

theorem startsWith_singleton_iff {name : String} {tokens : List Text}
    (hword : isSqlIdentifierToken (ascii name) = true) :
    StartsWith [name] tokens ↔
      tokenEquals (identifierTokenAt (tokens.take policyTokenLimit) 0) name = true := by
  rw [startsWith_iff (by simpa using hword), tokenIn_cons, tokenIn_nil, Bool.or_false]

theorem nearby_iff {rule : SqlPolicyTokens → Bool} (hlocal : Local 3 rule) {tokens : List Text} :
    Nearby rule tokens ↔ rule (tokens.take policyTokenLimit) = true :=
  (hlocal _).symm

/-- **Hits.** A group fires on the collected tokens exactly when all tokens of one of its hits are
    collected. -/
theorem Group.seen_iff {currentSchema : Text} {tokens : List Text} {g : Group} :
    g.Seen currentSchema tokens ↔
      g.fires currentSchema (tokens.take policyTokenLimit) = true := by
  cases g with
  | oracleSqlMode =>
    rw [Seen, fires, isUnsupportedOracleSqlModeStatement_eq_anyAssigned, Bool.and_eq_true,
      startsWith_singleton_iff (by decide), assignsEarly_iff]
  | procedureAnalyse =>
    rw [Seen, fires, isUnsupportedProcedureAnalyseStatement_iff,
      startsWith_singleton_iff (by decide)]
  | vectorRuntime => exact nearby_iff local_vectorRuntime
  | xmlFunctions | dynamicColumns => exact nearby_iff (local_hasFunctionCall _)
  | serverSurface =>
    rw [Seen, fires, isUnsupportedServerSurfaceSql_eq_or, nearby_iff (local_serverSurfaceNearby _),
      setAssigns_eq_anyAssigned, startsWith_singleton_iff (by decide),
      startsWith_iff (by decide)]
    simp only [Bool.or_eq_true, Bool.and_eq_true, hasWord_iff, assignsEarly_iff,
      isUnsupportedSelectFileStatement_iff]
    constructor
    · rintro (hlead | ⟨hword, hnear⟩ | ⟨hfirst, hfile⟩ | ⟨hset, hassigns⟩)
      · exact .inl (.inl hlead)
      · exact .inl (.inr ⟨hword, .inl hnear⟩)
      · refine .inl (.inr ⟨hasWord_iff.mp ?_, .inr ⟨hfirst, hfile⟩⟩)
        cases hnil : identifierTokenAt (tokens.take policyTokenLimit) 0 with
        | nil => exact absurd (hnil ▸ hfirst) (by decide)
        | cons => rfl
      · exact .inr ⟨hset, hassigns⟩
    · rintro ((hlead | ⟨hword, hnear | hfile⟩) | hassigns)
      · exact .inl hlead
      · exact .inr (.inl ⟨hword, hnear⟩)
      · exact .inr (.inr (.inl hfile))
      · exact .inr (.inr (.inr hassigns))

/-! ### The decision -/

/-- What a stronger test finds first is what the weaker one finds first, exactly if it passes the
    stronger one as well. -/
theorem find?_eq_find?_iff {α : Type*} {p q : α → Bool} (hpq : ∀ a, p a = true → q a = true)
    (l : List α) : l.find? p = l.find? q ↔ ∀ a, l.find? q = some a → p a = true := by
  constructor
  · intro h a ha
    exact List.find?_some (h.trans ha)
  · intro h
    induction l with
    | nil => rfl
    | cons b l ih =>
      cases hq : q b with
      | true =>
        have hp := h b (by rw [List.find?_cons, hq])
        rw [List.find?_cons, List.find?_cons, hp, hq]
      | false =>
        have hp : p b = false := by
          rw [Bool.eq_false_iff]
          intro hp
          exact Bool.false_ne_true (hq.symm.trans (hpq b hp))
        rw [List.find?_cons, List.find?_cons, hp, hq]
        refine ih fun a ha => h a ?_
        rw [List.find?_cons, hq]
        exact ha

/-- **Length.** The decision on the collected tokens is the decision on the complete text exactly
    when the group that decides the complete text, if there is one, has a hit all of whose tokens
    are collected. -/
theorem rejectUnsupportedSqlPolicy_eq_iff (currentSchema sql : Text) :
    rejectUnsupportedSqlPolicy currentSchema sql = policyError currentSchema (sqlTokens sql) ↔
      ∀ g, decidingGroup currentSchema (sqlTokens sql) = some g →
        g.Seen currentSchema (sqlTokens sql) := by
  have hmono : ∀ g : Group,
      g.fires currentSchema ((sqlTokens sql).take policyTokenLimit) = true →
        g.fires currentSchema (sqlTokens sql) = true :=
    fun g h => g.persists_fires currentSchema (List.take_prefix _ _) h
  rw [rejectUnsupportedSqlPolicy, collectSqlPolicyTokens_eq_take, policyError_eq, policyError_eq,
    (Option.map_injective Group.message_injective).eq_iff, decidingGroup, decidingGroup,
    find?_eq_find?_iff hmono]
  simp only [Group.seen_iff]

/-- A call behind the 32 tokens is not seen: one more select item hides it. -/
theorem policyError_sleep_behind_limit :
    rejectUnsupportedSqlPolicy [] (ascii "SELECT SLEEP(1)") =
        some "server-owned SQL surface is not supported by MyLite" ∧
      rejectUnsupportedSqlPolicy [] (ascii "SELECT 1,1,1,1,1,1,1,1,1,1,1,1,1,1,1,SLEEP(1)") = none ∧
      policyError [] (sqlTokens (ascii "SELECT 1,1,1,1,1,1,1,1,1,1,1,1,1,1,1,SLEEP(1)")) =
        some "server-owned SQL surface is not supported by MyLite" := by
  decide

end MyLite.Policy

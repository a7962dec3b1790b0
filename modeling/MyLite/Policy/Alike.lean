import MyLite.Policy.Groups
import Mathlib.Data.List.Forall2

namespace MyLite.Policy

open MyLite.Sql

/-!
# Tokens the rules cannot tell apart

Apart from the search for `ORACLE` in a value, the rules ask three things about a token: whether it
begins like a word, and which keyword it equals, with and without its backticks.  Lists of tokens
with the same answers get the same decision and the same diagnostic.

* `Alike` — the same three answers.
* `policyError_congr` — alike lists are treated alike.
* `policyError_congr_of_not_set`, `policyError_congr_of_fold` — with the search for `ORACLE`: where
  there is no `SET`, or where the tokens differ in letter case only.
-/

theorem any_congr_of_mem {α : Type*} {p q : α → Bool} {l : List α} (h : ∀ a ∈ l, p a = q a) :
    l.any p = l.any q := by
  rw [Bool.eq_iff_iff, List.any_eq_true, List.any_eq_true]
  exact exists_congr fun a => and_congr_right fun ha => by rw [h a ha]

/-- A text that a token is compared with: none of them begins with a quote. -/
def isKeyword (keyword : String) : Bool := !(ascii keyword).head?.any isQuoteByte

/-- Two tokens with the same answers. -/
structure Alike (t u : Text) : Prop where
  word : isSqlIdentifierToken t = isSqlIdentifierToken u
  equals : ∀ {keyword}, isKeyword keyword = true → tokenEquals t keyword = tokenEquals u keyword
  name : ∀ {keyword}, isKeyword keyword = true →
    identifierTokenEquals t keyword = identifierTokenEquals u keyword

namespace Alike

@[refl] theorem refl (t : Text) : Alike t t := ⟨rfl, fun _ => rfl, fun _ => rfl⟩

theorem of_fold {t u : Text} (h : fold t = fold u) : Alike t u where
  word := isSqlIdentifierToken_congr h
  equals _ := tokenEquals_congr h _
  name _ := identifierTokenEquals_congr h _

variable {t u : Text} (h : Alike t u)

include h

theorem tokenIn {names : List String} (hnames : names.all isKeyword = true) :
    tokenIn t names = tokenIn u names := by
  rw [List.all_eq_true] at hnames
  exact any_congr_of_mem fun keyword hk => h.equals (hnames keyword hk)

theorem anyName {names : List String} (hnames : names.all isKeyword = true) :
    names.any (identifierTokenEquals t) = names.any (identifierTokenEquals u) := by
  rw [List.all_eq_true] at hnames
  exact any_congr_of_mem fun keyword hk => h.name (hnames keyword hk)

theorem isBlockedVariableToken : isBlockedVariableToken t = isBlockedVariableToken u := by
  simp (disch := decide +kernel) only [Policy.isBlockedVariableToken, isProfilingVariableToken,
    isQueryLogVariableToken, isOptimizerTraceVariableToken, isPersistentStatisticsVariableToken,
    isServerVariableToken, h.name, h.tokenIn, h.equals]

end Alike

theorem isEmpty_eq_tokenEquals (t : Text) : t.isEmpty = tokenEquals t "" := by
  cases t with
  | nil | cons b t => rfl

/-- Two lists of tokens that are alike one by one. -/
abbrev AllAlike : List Text → List Text → Prop := List.Forall₂ Alike

namespace AllAlike

variable {tokens tokens' : SqlPolicyTokens} (h : AllAlike tokens tokens')

include h

theorem value (i : ℕ) : Alike (tokens.value i) (tokens'.value i) := by
  unfold SqlPolicyTokens.value
  induction h generalizing i with
  | nil => exact .refl _
  | cons hhead _ ih =>
    cases i with
    | zero => exact hhead
    | succ i => exact ih i

theorem identifierTokens : AllAlike (identifierTokens tokens) (identifierTokens tokens') := by
  unfold Policy.identifierTokens
  induction h with
  | nil => exact .nil
  | @cons t u ts us hhead _ ih =>
    rw [List.filter_cons, List.filter_cons, hhead.word]
    split_ifs
    · exact .cons hhead ih
    · exact ih

theorem identifierTokenAt (i : ℕ) :
    Alike (identifierTokenAt tokens i) (identifierTokenAt tokens' i) :=
  value (identifierTokens h) i

theorem any_tokenEquals {keyword : String} (hk : isKeyword keyword = true) :
    tokens.any (tokenEquals · keyword) = tokens'.any (tokenEquals · keyword) := by
  induction h with
  | nil => rfl
  | cons hhead _ ih => rw [List.any_cons, List.any_cons, hhead.equals hk, ih]

theorem anyFrom {hit hit' : ℕ → Bool} (hhit : ∀ i, hit i = hit' i) (start : ℕ) :
    tokens.anyFrom start hit = tokens'.anyFrom start hit' := by
  unfold SqlPolicyTokens.anyFrom
  rw [h.length_eq]
  exact congrArg _ (funext fun i => by rw [hhit i])

/-! ### Assignments -/

theorem assignmentDepth (statementForm : Bool) (depth : ℕ) :
    assignmentDepth statementForm depth tokens = assignmentDepth statementForm depth tokens' := by
  induction h generalizing depth with
  | nil => rfl
  | cons hhead _ ih => simp (disch := decide) only [Policy.assignmentDepth, hhead.equals, ih]

theorem firstSetAssignmentTokenIndex :
    firstSetAssignmentTokenIndex tokens = firstSetAssignmentTokenIndex tokens' := by
  simp (disch := decide) only [Policy.firstSetAssignmentTokenIndex, h.length_eq, (value h _).equals]

theorem isSystemVariableAssignmentStart (i : ℕ) :
    isSystemVariableAssignmentStart tokens i = isSystemVariableAssignmentStart tokens' i := by
  have hfirst := firstSetAssignmentTokenIndex h
  have hdepth : ∀ first n, Policy.assignmentDepth (first == 2) 0 ((tokens.drop first).take n)
      = Policy.assignmentDepth (first == 2) 0 ((tokens'.drop first).take n) :=
    fun first n => assignmentDepth (List.forall₂_take n (List.forall₂_drop first h)) _ _
  simp (disch := decide) only [Policy.isSystemVariableAssignmentStart, hfirst, hdepth,
    (value h _).equals]

theorem isSystemVariableQualifiedToken (i : ℕ) :
    isSystemVariableQualifiedToken tokens i = isSystemVariableQualifiedToken tokens' i := by
  simp (disch := decide) only [Policy.isSystemVariableQualifiedToken, h.length_eq,
    (value h _).equals, (value h _).tokenIn, isSystemVariableAssignmentStart h]

theorem setAssigns {isName : Text → Bool} (hname : ∀ {t u}, Alike t u → isName t = isName u) :
    setAssigns isName tokens = setAssigns isName tokens' := by
  unfold Policy.setAssigns
  rw [(identifierTokenAt h 0).equals (by decide)]
  refine congrArg _ (anyFrom h (fun i => ?_) 1)
  rw [hname (value h i), isSystemVariableQualifiedToken h]

/-! ### Rules -/

theorem hasFunctionCall {names : List String} (hnames : names.all isKeyword = true) :
    hasFunctionCall names tokens = hasFunctionCall names tokens' := by
  refine anyFrom h (fun i => ?_) 0
  rw [h.length_eq, (value h i).anyName hnames, (value h (i + 1)).equals (by decide)]

theorem mentionsInformationSchemaTable (currentSchema : Text) {tables : List String}
    (htables : tables.all isKeyword = true) :
    mentionsInformationSchemaTable tokens currentSchema tables
      = mentionsInformationSchemaTable tokens' currentSchema tables := by
  rw [List.all_eq_true] at htables
  have hqualified : ∀ table ∈ tables, hasInformationSchemaTable tokens table
      = hasInformationSchemaTable tokens' table := by
    intro table htable
    refine anyFrom h (fun i => ?_) 0
    rw [h.length_eq, (value h i).name (by decide), (value h (i + 1)).equals (by decide),
      (value h (i + 2)).name (htables table htable)]
  have hunqualified : ∀ table ∈ tables,
      hasCurrentSchemaTableReference tokens table currentSchema
        = hasCurrentSchemaTableReference tokens' table currentSchema := by
    intro table htable
    refine congrArg _ (anyFrom h (fun i => ?_) 1)
    rw [(value h i).name (htables table htable), tableReferenceKeyword,
      (value h (i - 1)).tokenIn (by decide), tableReferenceKeyword]
  exact congrArg₂ _ (any_congr_of_mem hqualified) (any_congr_of_mem hunqualified)

theorem isUnsupportedVectorRuntimeStatement :
    isUnsupportedVectorRuntimeStatement tokens = isUnsupportedVectorRuntimeStatement tokens' := by
  unfold Policy.isUnsupportedVectorRuntimeStatement
  refine congrArg₂ _ (hasFunctionCall h (by decide)) (anyFrom h (fun i => ?_) 0)
  simp (disch := decide) only [h.length_eq, (value h _).name, (value h _).equals,
    (value h _).tokenIn]

theorem isUnsupportedProcedureAnalyseStatement :
    isUnsupportedProcedureAnalyseStatement tokens
      = isUnsupportedProcedureAnalyseStatement tokens' := by
  unfold Policy.isUnsupportedProcedureAnalyseStatement
  rw [(identifierTokenAt h 0).equals (by decide)]
  refine congrArg _ (anyFrom h (fun i => ?_) 1)
  simp (disch := decide) only [h.length_eq, (value h _).equals]

theorem isUnsupportedSelectFileStatement :
    isUnsupportedSelectFileStatement tokens = isUnsupportedSelectFileStatement tokens' := by
  unfold Policy.isUnsupportedSelectFileStatement
  rw [(identifierTokenAt h 0).tokenIn (by decide)]
  refine congrArg _ (anyFrom h (fun i => ?_) 0)
  simp (disch := decide) only [h.length_eq, (value h _).equals, (value h _).tokenIn]

omit h in
/-- The leading-word rules look at nothing but the identifier tokens. -/
theorem leadingRule
    (h : AllAlike (Policy.identifierTokens tokens) (Policy.identifierTokens tokens')) :
    leadingRule tokens = leadingRule tokens' := by
  have hat : ∀ k, Alike (Policy.identifierTokenAt tokens k) (Policy.identifierTokenAt tokens' k) :=
    value h
  have hhas : ∀ {keyword}, isKeyword keyword = true → ∀ start,
      hasIdentifierToken tokens keyword start = hasIdentifierToken tokens' keyword start :=
    fun hk start => any_tokenEquals (List.forall₂_drop start h) hk
  simp (disch := decide +kernel) [Policy.leadingRule, isUnsupportedAccountOrEventStatement,
    isUnsupportedUdfStatement, isUnsupportedBinlogStatement, flushTargetIndex, (hat _).equals,
    (hat _).tokenIn, (hat _).name, (hat _).anyName, hhas]

theorem isUnsupportedServerSurfaceSql (currentSchema : Text) :
    isUnsupportedServerSurfaceSql tokens currentSchema
      = isUnsupportedServerSurfaceSql tokens' currentSchema := by
  have hempty : (Policy.identifierTokenAt tokens 0).isEmpty
      = (Policy.identifierTokenAt tokens' 0).isEmpty := by
    rw [isEmpty_eq_tokenEquals, isEmpty_eq_tokenEquals, (identifierTokenAt h 0).equals rfl]
  cases he : (Policy.identifierTokenAt tokens 0).isEmpty with
  | true =>
    rw [Policy.isUnsupportedServerSurfaceSql, Policy.isUnsupportedServerSurfaceSql, ← hempty, he]
    rfl
  | false =>
    have hcalls : serverSurfaceFunctionCall tokens = serverSurfaceFunctionCall tokens' :=
      congrArg₂ _ (hasFunctionCall h (by decide)) (hasFunctionCall h (by decide +kernel))
    rw [isUnsupportedServerSurfaceSql_eq he, isUnsupportedServerSurfaceSql_eq (hempty ▸ he),
      leadingRule (identifierTokens h), hcalls, isUnsupportedSelectFileStatement h,
      mentionsInformationSchemaTable h currentSchema (by decide),
      setAssigns h Alike.isBlockedVariableToken]

end AllAlike

/-! ### The decision -/

/-- **Congruence.** Lists that are alike get the same diagnostic, if the search for `ORACLE` ends
    the same way on both. -/
theorem policyError_congr {tokens tokens' : SqlPolicyTokens} (h : AllAlike tokens tokens')
    (horacle : isUnsupportedOracleSqlModeStatement tokens
      = isUnsupportedOracleSqlModeStatement tokens')
    (currentSchema : Text) :
    policyError currentSchema tokens = policyError currentSchema tokens' := by
  have hxml : isUnsupportedXmlSqlFunctionCall tokens = isUnsupportedXmlSqlFunctionCall tokens' :=
    h.hasFunctionCall (by decide)
  have hdynamic : isUnsupportedDynamicColumnFunctionCall tokens
      = isUnsupportedDynamicColumnFunctionCall tokens' := h.hasFunctionCall (by decide +kernel)
  unfold policyError
  rw [horacle, h.isUnsupportedProcedureAnalyseStatement, h.isUnsupportedVectorRuntimeStatement,
    hxml,
    hdynamic, h.isUnsupportedServerSurfaceSql]

/-- Without a `SET` nothing is searched for `ORACLE`. -/
theorem policyError_congr_of_not_set {tokens tokens' : SqlPolicyTokens}
    (h : AllAlike tokens tokens')
    (hset : tokenEquals (identifierTokenAt tokens 0) "SET" = false) (currentSchema : Text) :
    policyError currentSchema tokens = policyError currentSchema tokens' := by
  have hset' : tokenEquals (identifierTokenAt tokens' 0) "SET" = false := by
    rw [← (h.identifierTokenAt 0).equals (by decide)]
    exact hset
  refine policyError_congr h ?_ currentSchema
  rw [isUnsupportedOracleSqlModeStatement, isUnsupportedOracleSqlModeStatement, hset, hset']
  rfl

theorem tokenContainsSqlModeName_congr {t u : Text} (h : fold t = fold u) (modeName : String) :
    tokenContainsSqlModeName t modeName = tokenContainsSqlModeName u modeName := by
  have hlen : t.length = u.length := by
    rw [← length_fold t, ← length_fold u, h]
  have hpart : ∀ start n, fold ((t.drop start).take n) = fold ((u.drop start).take n) := by
    intro start n
    unfold fold at h ⊢
    rw [List.map_take, List.map_drop, List.map_take, List.map_drop, h]
  have hbyte : ∀ i, isSqlIdentifierChar (t.getD i 0) = isSqlIdentifierChar (u.getD i 0) := by
    intro i
    have hupper : upperByte (t.getD i 0) = upperByte (u.getD i 0) := by
      have hmap : ∀ s : Text, upperByte (s.getD i 0) = (fold s).getD i 0 := by
        intro s
        simp only [fold, List.getD_eq_getElem?_getD, List.getElem?_map]
        cases s[i]? with
        | none | some c => rfl
      rw [hmap t, hmap u, h]
    rw [← isSqlIdentifierChar_upperByte, hupper, isSqlIdentifierChar_upperByte]
  simp only [tokenContainsSqlModeName, hlen, hpart, hbyte]

theorem valueMentionsOracle_congr {value value' : List Text}
    (h : List.Forall₂ (fun t u => fold t = fold u) value value') (depth : ℕ) :
    valueMentionsOracle depth value = valueMentionsOracle depth value' := by
  induction h generalizing depth with
  | nil => rfl
  | cons hhead _ ih =>
    simp only [valueMentionsOracle, tokenEquals_congr hhead, tokenContainsSqlModeName_congr hhead,
      ih]

/-- Letter case never matters. -/
theorem policyError_congr_of_fold {tokens tokens' : SqlPolicyTokens}
    (h : List.Forall₂ (fun t u => fold t = fold u) tokens tokens') (currentSchema : Text) :
    policyError currentSchema tokens = policyError currentSchema tokens' := by
  have halike : AllAlike tokens tokens' := h.imp fun _ _ => Alike.of_fold
  refine policyError_congr halike ?_ currentSchema
  unfold isUnsupportedOracleSqlModeStatement sqlModeAssignmentMentionsOracle
  rw [(halike.identifierTokenAt 0).equals (by decide)]
  refine congrArg _ (halike.anyFrom (fun i => ?_) 1)
  rw [(halike.value i).equals (by decide), halike.isSystemVariableQualifiedToken,
    valueMentionsOracle_congr (List.forall₂_drop (i + 2) h)]

end MyLite.Policy

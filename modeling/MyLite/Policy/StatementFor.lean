import MyLite.Policy.Replication
import MyLite.Policy.SetPrecision

namespace MyLite.Policy

open MyLite.Lib MyLite.Sql MyLite.MariaDB

/-!
# Statements behind `SET STATEMENT … FOR`

The word that begins the text decides which rules are asked, and `SET STATEMENT` puts its own in
front.  So of the statement behind `FOR` only what is recognised by neighbouring tokens is still
seen, and only as far as the window reaches.

* `collides_for` — the word `FOR` parts the patterns of the options from those of the statement.
* `rejects_statementFor_iff` — which rejected statements stay rejected behind `FOR`.
-/

/-! ### Options -/

/-- `set_stmt_option`, for a system variable that is not blocked: `variable = value`, or
    `instance.variable = value`. -/
def SetItem.AssignsUnblocked : SetItem → Prop
  | .bare name _ _ => isBlockedName name.value = false
  | .other tokens _ _ =>
    ∃ inst ∈ identCli, ∃ (name : IdentName) (equal : Equal) (value : List Text),
      tokens = inst ++ dotToken :: name.token :: (equal.tokens ++ value) ∧
        isBlockedName name.value = false
  | _ => False

/-- Neither a sign nor a scope word's name and a sign stand at the front of `instance.variable`. -/
theorem startsAssigned_component {inst : List Text} (hinst : inst ∈ identCli) (rest : List Text)
    (k : ℕ) : startsAssigned ((inst ++ dotToken :: rest).take k) = false := by
  obtain ⟨hne, hname⟩ := hinst
  have hequal : isNameToken equalToken = false := by decide
  have hsign : ∀ u ∈ inst, u ≠ equalToken := by
    rintro u hu rfl
    exact Bool.false_ne_true (hequal.symm.trans (hname _ hu))
  match inst, hne, hsign with
  | [t], _, _ =>
    -- The dot stands where the blocked name would have to be.
    exact startsAssigned_eq_false (.inr (by decide))
      (.inr (.inl (not_isBlockedVariableToken_symbol (by decide) (by decide)))) k
  | [t, u], _, hsign =>
    refine startsAssigned_eq_false (.inr (hsign u (by simp))) (.inr (.inr ?_)) k
    exact fun heq => absurd (Option.some.inj heq) (by decide)
  | t :: u :: w :: inst, _, hsign =>
    refine startsAssigned_eq_false (.inr (hsign u (by simp))) (.inr (.inr ?_)) k
    exact fun heq => hsign w (by simp) (Option.some.inj heq)

theorem not_visiblyAssigns_of_assignsUnblocked {d : SetStatement}
    (h : ∀ item ∈ d.items, SetItem.AssignsUnblocked item) : ¬VisiblyAssigns d := by
  rintro ⟨before, item, ⟨⟨after, hitems⟩, -⟩, hstart⟩
  have hmem : item ∈ d.items := by
    rw [hitems]
    exact List.mem_append_right before List.mem_cons_self
  refine absurd hstart (Bool.eq_false_iff.mp ?_)
  match item, h item hmem with
  | .bare name equal value, hfree =>
    exact startsAssigned_allowed (show SetItem.Allowed (.bare name equal value) from hfree) _
  | .other tokens _ _, ⟨inst, hinst, name, equal, value, htokens, _⟩ =>
    rw [SetItem.tokens, htokens]
    exact startsAssigned_component hinst _ _

/-! ### The word `FOR` -/

/-- The tokens of `SET STATEMENT` and its options, in front of `FOR`. -/
def optionTokens (d : SetStatement) : List Text :=
  d.lead ++ joinItems d.first.tokens (d.rest.map SetItem.tokens)

/-- No pattern has the word `FOR` in it. -/
theorem collides_for {forWord : Text} (hfor : tokenEquals forWord "FOR" = true)
    (currentSchema : Text) (front back : List Text) :
    Collides currentSchema (front ++ forWord :: back) ↔
      Collides currentSchema front ∨ Collides currentSchema back := by
  have hfold := tokenEquals_iff.mp hfor
  have hname : ∀ keyword, identifierTokenEquals forWord keyword
      = identifierTokenEquals (ascii "FOR") keyword := identifierTokenEquals_congr hfold
  have hword : ∀ keyword, tokenEquals forWord keyword = tokenEquals (ascii "FOR") keyword :=
    tokenEquals_congr hfold
  have hfunction : isBlockedFunction forWord = false := by
    unfold isBlockedFunction
    rw [funext hname]
    decide
  have htable : isBlockedTable forWord = false := by
    unfold isBlockedTable
    rw [funext hname]
    decide
  have hreference : tableReferenceKeyword forWord = false := by
    rw [tableReferenceKeyword, tokenIn_congr hfold]
    decide
  have hparen : tokenEquals forWord "(" = false := (hword _).trans (by decide)
  have hvector : identifierTokenEquals forWord "VECTOR" = false := (hname _).trans (by decide)
  have split2 : ∀ p q : Text → Bool, p forWord = false → q forWord = false →
      (Adjacent p q (front ++ forWord :: back) ↔ Adjacent p q front ∨ Adjacent p q back) :=
    fun p q hp hq => adjacent_append_cons hp hq
  have split3 : ∀ p q r : Text → Bool, p forWord = false → q forWord = false → r forWord = false →
      (Adjacent3 p q r (front ++ forWord :: back) ↔ Adjacent3 p q r front ∨ Adjacent3 p q r back) :=
    fun p q r hp hq hr => adjacent3_append_cons hp hq hr
  have hcall := split2 isBlockedFunction (tokenEquals · "(") hfunction hparen
  have hkey := split2 (identifierTokenEquals · "VECTOR")
    (fun token => identifierTokenEquals token "KEY" || identifierTokenEquals token "INDEX") hvector
    (by rw [hname, hname]; decide)
  have hcolumns := split3 (tokenIn · ["(", ","]) (identifierTokenEquals · "VECTOR")
    (tokenEquals · "(") ((tokenIn_congr hfold _).trans (by decide)) hvector hparen
  have hqualified := split3 (identifierTokenEquals · "INFORMATION_SCHEMA") (tokenEquals · ".")
    isBlockedTable ((hname _).trans (by decide)) ((hword _).trans (by decide)) htable
  have hcurrent := split2 tableReferenceKeyword isBlockedTable hreference htable
  constructor
  · rintro (h | h | h | h | ⟨hs, h⟩)
    · exact (hcall.mp h).imp .call .call
    · exact (hkey.mp h).imp .vectorKey .vectorKey
    · exact (hcolumns.mp h).imp .vectorColumns .vectorColumns
    · exact (hqualified.mp h).imp .qualifiedTable .qualifiedTable
    · exact (hcurrent.mp h).imp (.currentTable hs) (.currentTable hs)
  · rintro ((h | h | h | h | ⟨hs, h⟩) | (h | h | h | h | ⟨hs, h⟩))
    · exact .call (hcall.mpr (.inl h))
    · exact .vectorKey (hkey.mpr (.inl h))
    · exact .vectorColumns (hcolumns.mpr (.inl h))
    · exact .qualifiedTable (hqualified.mpr (.inl h))
    · exact .currentTable hs (hcurrent.mpr (.inl h))
    · exact .call (hcall.mpr (.inr h))
    · exact .vectorKey (hkey.mpr (.inr h))
    · exact .vectorColumns (hcolumns.mpr (.inr h))
    · exact .qualifiedTable (hqualified.mpr (.inr h))
    · exact .currentTable hs (hcurrent.mpr (.inr h))

theorem not_collides_nil (currentSchema : Text) : ¬Collides currentSchema [] := by
  rintro (h | h | h | h | ⟨-, h⟩)
  · exact not_adjacent_nil h
  · exact not_adjacent_nil h
  · exact not_adjacent3_nil h
  · exact not_adjacent3_nil h
  · exact not_adjacent_nil h

/-- The same for the tokens that are collected. -/
theorem collides_take_for {forWord : Text} (hfor : tokenEquals forWord "FOR" = true)
    (currentSchema : Text) (front back : List Text) (k : ℕ) :
    Collides currentSchema ((front ++ forWord :: back).take k) ↔
      Collides currentSchema (front.take k) ∨
        Collides currentSchema (back.take (k - (front.length + 1))) := by
  rw [List.take_append]
  rcases Nat.lt_or_ge front.length k with hk | hk
  · obtain ⟨m, hm⟩ : ∃ m, k - front.length = m + 1 := ⟨k - (front.length + 1), by omega⟩
    have hm' : k - (front.length + 1) = m := by omega
    rw [hm, hm', List.take_succ_cons, collides_for hfor]
  · have hzero : k - front.length = 0 := by omega
    have hzero' : k - (front.length + 1) = 0 := by omega
    rw [hzero, hzero', List.take_zero, List.take_zero, List.append_nil]
    exact (or_iff_left (not_collides_nil currentSchema)).symm

/-! ### The gate -/

/-- What the gate sees of `SET STATEMENT options FOR body`. -/
inductive ShowsBehindFor (currentSchema : Text) (d : SetStatement) (body : List Text) : Prop
  /-- A pattern of neighbouring tokens in the statement, as far as the options leave room. -/
  | statement (h : Collides currentSchema
      (body.take (policyTokenLimit - ((optionTokens d).length + 1))))
  /-- Such a pattern in the options. -/
  | option (h : Collides currentSchema ((optionTokens d).take policyTokenLimit))
  /-- `@@name =` or `@@scope.name =` with a blocked name, in a value or in the statement. -/
  | reads (h : ReadsSystemVariable d.tokens)
  /-- `ORACLE` behind an assignment of `sql_mode`. -/
  | oracle (h : OracleSeen d)

/-- `SET STATEMENT max_statement_time = 1 FOR` and a statement. -/
def limitTimeFor (body : List Text) : SetStatement where
  set := ascii "SET"
  set_eq := tokenEquals_set
  form := .statement (ascii "STATEMENT") (ascii "FOR") tokenEquals_statement tokenEquals_for body
  first := .bare (.plain (ascii "max_statement_time") (by decide)) .eq ⟨[ascii "1"], isSegment_one⟩
  rest := []
  first_ok := by
    show (some (ascii "max_statement_time") : Option Text) ≠ some equalToken
    decide

theorem not_isBlockedName_maxStatementTime :
    isBlockedName (ascii "max_statement_time") = false := by
  decide

theorem assignsUnblocked_limitTimeFor (body : List Text) :
    ∀ item ∈ (limitTimeFor body).items, SetItem.AssignsUnblocked item := by
  intro item hitem
  obtain rfl := List.mem_singleton.mp hitem
  exact not_isBlockedName_maxStatementTime

end MyLite.Policy

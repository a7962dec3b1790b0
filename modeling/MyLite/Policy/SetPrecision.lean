import MyLite.Policy.Collisions
import MyLite.Policy.OracleMode

namespace MyLite.Policy

open MyLite.Lib MyLite.Sql MyLite.MariaDB List

/-!
# `SET` statements that assign nothing blocked

What the rules make of a `SET` statement whose option values are all allowed.  The recogniser never
takes the start of such an option value for a blocked assignment (`not_visiblyAssigns`), but it
also looks behind `@@`, where a value may read a variable, and the loop that looks for `ORACLE`
runs on behind `FOR`.

* `oracleSeen_iff_of_permitted` — where `ORACLE` is found when no mode names it.
* `accepts_permitted_iff` — when a permitted statement is accepted.
-/

/-! ### Permitted statements -/

/-- A name the rules on assignments mean to block: a system variable, or `PASSWORD`. -/
def isBlockedName (name : Text) : Bool := isBlockedVariable name || tokenEquals name "PASSWORD"

/-- `'@' ident_or_text equal expr`.  The gate may cut the name into several tokens; a second `@`
    would begin a system variable. -/
def AssignsUserVariable (tokens : List Text) : Prop :=
  ∃ (name : List Text) (equal : Equal) (value : List Text),
    tokens = atToken :: (name ++ (equal.tokens ++ value)) ∧ name ≠ [] ∧
      name.head? ≠ some atToken

/-- What may stand in front of a system variable's name. -/
def IsQualifier (qualifier : List Text) : Prop :=
  qualifier = [] ∨ (∃ scope : ScopeWord, qualifier = [scope.1]) ∨
    qualifier = [atToken, atToken] ∨
    ∃ scope : ScopeWord, qualifier = [atToken, atToken, scope.1, dotToken]

/-- A system variable of several instances, `instance.variable`. -/
def AssignsComponent (tokens : List Text) : Prop :=
  ∃ (qualifier : List Text) (inst name : IdentName) (equal : Equal) (value : List Text),
    tokens = qualifier ++ inst.token :: dotToken :: name.token :: (equal.tokens ++ value) ∧
      IsQualifier qualifier ∧ tokenIn inst.token scopeKeywords = false ∧
      isBlockedName name.value = false

/-- The option value assigns a user variable or a system variable that is not blocked. -/
def SetItem.Allowed : SetItem → Prop
  | .bare name _ _ => isBlockedName name.value = false
  | .scoped _ name _ _ => isBlockedName name.value = false
  | .system _ name _ _ => isBlockedName name.value = false
  | .other tokens _ _ => AssignsUserVariable tokens ∨ AssignsComponent tokens

/-- Every option value is allowed, and no value for `sql_mode` names `ORACLE`. -/
structure Permitted (d : SetStatement) : Prop where
  allowed : ∀ item ∈ d.items, SetItem.Allowed item
  noOracle : ∀ item ∈ d.items, ∀ name value, item.assignment = some (name, value) →
    tokenEquals name "SQL_MODE" = true →
    ∀ token ∈ value, tokenContainsSqlModeName token "ORACLE" = false

/-! ### The start of an allowed option value -/

variable {name : IdentName} {t : Text} {item : SetItem} {d : SetStatement}

theorem isBlockedName_eq (name : Text) : isBlockedName name =
    (tokenEquals name "USERSTAT" || tokenIn name plainBlockedNames) := by
  simp only [isBlockedName, isBlockedVariable, plainBlockedNames, tokenIn, any_append,
    any_cons, any_nil, Bool.or_false]
  ac_rfl

/-- A token the rules know is the name of a blocked variable. -/
theorem isBlockedName_of_token (h : isBlockedVariableToken name.token = true) :
    isBlockedName name.value = true := by
  rw [isBlockedVariableToken_eq, identifierTokenEquals, unquotedIdentifierToken_token,
    Bool.or_eq_true] at h
  rw [isBlockedName_eq, Bool.or_eq_true]
  refine h.imp_right fun hin => ?_
  cases name with
  | plain word isWord => exact hin
  | quoted name =>
    -- No plain name begins with a backtick.
    have hword : isSqlIdentifierChar byteBacktick = true :=
      isSqlIdentifierToken_of_plainBlocked hin
    exact absurd hword (by decide)

/-- The two first tokens rule an assignment out, or the sign is missing behind them. -/
theorem startsAssigned_eq_false {u : Text} {rest : List Text}
    (hbare : isBlockedVariableToken t = false ∨ u ≠ equalToken)
    (hscoped : tokenIn t scopeKeywords = false ∨ isBlockedVariableToken u = false ∨
      rest.head? ≠ some equalToken) (k : ℕ) : startsAssigned ((t :: u :: rest).take k) = false := by
  rw [Bool.eq_false_iff, ne_eq, startsAssigned_take_iff]
  rintro (⟨n, v, h, -, hn⟩ | ⟨s, n, v, h, -, hs, hn⟩)
  · obtain ⟨rfl, htail⟩ := List.cons.inj h
    exact hbare.elim (fun hfree => Bool.false_ne_true (hfree.symm.trans hn))
      fun hsign => hsign (List.cons.inj htail).1
  · obtain ⟨rfl, htail⟩ := List.cons.inj h
    obtain ⟨rfl, rfl⟩ := List.cons.inj htail
    rcases hscoped with hfree | hfree | hsign
    · exact Bool.false_ne_true (hfree.symm.trans hs)
    · exact Bool.false_ne_true (hfree.symm.trans hn)
    · exact hsign rfl

theorem startsAssigned_at (ts : List Text) (k : ℕ) :
    startsAssigned ((atToken :: ts).take k) = false := by
  cases ts with
  | nil => cases k <;> simp [startsAssigned]
  | cons t ts =>
    exact startsAssigned_eq_false (.inl (not_isBlockedVariableToken_symbol (by decide) (by decide)))
      (.inl (by decide)) k

theorem not_isBlockedVariableToken_scope (h : tokenIn t scopeKeywords = true) :
    isBlockedVariableToken t = false := by
  obtain ⟨name, hmem, hname⟩ := any_eq_true.mp h
  exact not_isBlockedVariableToken_word (mem_append_right _ hmem) hname

/-- Behind the name stands no blocked name: the rest of the assignment sign does not count. -/
theorem head_equal_tokens (equal : Equal) (ts : List Text) :
    ∃ t rest, equal.tokens ++ ts = t :: rest ∧ isBlockedVariableToken t = false := by
  cases equal with
  | eq | setVar => exact ⟨_, _, rfl, not_isBlockedVariableToken_symbol (by decide) (by decide)⟩

/-- An allowed option value never looks like the assignment of a blocked variable. -/
theorem startsAssigned_allowed (h : SetItem.Allowed item) (k : ℕ) :
    startsAssigned (item.tokens.take k) = false := by
  have hname : ∀ {name : IdentName}, isBlockedName name.value = false →
      isBlockedVariableToken name.token = false := by
    intro name hfree
    rw [Bool.eq_false_iff] at hfree ⊢
    exact fun hblocked => hfree (isBlockedName_of_token hblocked)
  match item, h with
  | .bare name equal value, h =>
    obtain ⟨t, rest, heq, ht⟩ := head_equal_tokens equal value.1
    rw [SetItem.tokens, heq]
    exact startsAssigned_eq_false (.inl (hname h)) (.inr (.inl ht)) k
  | .scoped scope name equal value, h =>
    exact startsAssigned_eq_false (.inl (not_isBlockedVariableToken_scope scope.2))
      (.inr (.inl (hname h))) k
  | .system none name equal value, _ => exact startsAssigned_at _ k
  | .system (some scope) name equal value, _ => exact startsAssigned_at _ k
  | .other tokens isItem nonempty, h =>
    rcases h with ⟨name, equal, value, rfl, -⟩ | ⟨qualifier, inst, name, equal, value, rfl, hq, -⟩
    · exact startsAssigned_at _ k
    · rcases hq with rfl | ⟨scope, rfl⟩ | rfl | ⟨scope, rfl⟩
      · -- The dot stands where the sign or the blocked name would have to be.
        exact startsAssigned_eq_false (.inr (by decide))
          (.inr (.inl (not_isBlockedVariableToken_symbol (by decide) (by decide)))) k
      · refine startsAssigned_eq_false (.inl (not_isBlockedVariableToken_scope scope.2))
          (.inr (.inr ?_)) k
        exact fun heq => absurd (Option.some.inj heq) (by decide)
      · exact startsAssigned_at _ k
      · exact startsAssigned_at _ k

theorem not_visiblyAssigns (h : Permitted d) : ¬VisiblyAssigns d := by
  rintro ⟨before, item, ⟨⟨after, hitems⟩, -⟩, hstart⟩
  have hmem : item ∈ d.items := by
    rw [hitems]
    exact mem_append_right before mem_cons_self
  rw [startsAssigned_allowed (h.allowed item hmem)] at hstart
  exact Bool.false_ne_true hstart

/-! ### Where `ORACLE` is found -/

variable {ts value rest : List Text}

/-- Behind a balanced stretch without a comma the search for a comma starts anew. -/
theorem hasTopComma_append : ∀ {depth e : ℕ}, parenDepth depth ts = some e →
    ∀ x, hasTopComma depth (ts ++ x) = hasTopComma e x := by
  induction ts with
  | nil =>
    intro depth e h x
    rw [Option.some.inj h]
    rfl
  | cons t ts ih =>
    intro depth e h x
    simp only [cons_append, hasTopComma]
    simp only [parenDepth] at h
    split_ifs at h ⊢ with hopen hclose hcomma
    · exact ih h x
    · cases depth with
      | zero => cases h
      | succ depth => exact ih h x
    · rw [Bool.eq_false_iff.mpr hcomma, Bool.false_or, ih h x]

/-- A value that does not name `ORACLE` is passed over. -/
theorem mentionsOracle_append (hvalue : isSegment value = true)
    (hfree : ∀ token ∈ value, tokenContainsSqlModeName token "ORACLE" = false) :
    MentionsOracle (value ++ rest) ↔ MentionsOracle rest := by
  have hcomma := fun x => hasTopComma_append (beq_iff_eq.mp hvalue) x
  constructor
  · rintro ⟨x, token, y, heq, hx, htoken⟩
    rcases append_eq_append_iff.mp heq with ⟨c, rfl, hrest⟩ | ⟨c, rfl, htail⟩
    · exact ⟨c, token, y, hrest, (hcomma c).symm.trans hx, htoken⟩
    · cases c with
      | nil => exact ⟨[], token, y, htail.symm, rfl, htoken⟩
      | cons first c =>
        obtain ⟨rfl, -⟩ := List.cons.inj htail
        rw [hfree token (by simp)] at htoken
        cases htoken
  · rintro ⟨x, token, y, rfl, hx, htoken⟩
    exact ⟨value ++ x, token, y, (append_assoc _ _ _).symm, (hcomma x).trans hx, htoken⟩

theorem mentionsOracle_take_append (hvalue : isSegment value = true)
    (hfree : ∀ token ∈ value, tokenContainsSqlModeName token "ORACLE" = false) (k : ℕ) :
    MentionsOracle ((value ++ rest).take k) ↔ MentionsOracle (rest.take (k - value.length)) := by
  rw [take_append]
  rcases Nat.le_total value.length k with hk | hk
  · rw [take_of_length_le hk, mentionsOracle_append hvalue hfree]
  · -- The value fills the window.
    rw [Nat.sub_eq_zero_of_le hk, take_zero, append_nil]
    refine iff_of_false ?_ ?_
    · rintro ⟨x, token, y, heq, -, htoken⟩
      have hmem : token ∈ value := mem_of_mem_take (heq ▸ by simp : token ∈ value.take k)
      rw [hfree token hmem] at htoken
      exact Bool.false_ne_true htoken
    · rintro ⟨x, token, y, heq, -⟩
      simpa using congrArg List.length heq

theorem not_mentionsOracle_comma (rest : List Text) (k : ℕ) :
    ¬MentionsOracle ((commaToken :: rest).take k) := by
  have hcomma : tokenContainsSqlModeName commaToken "ORACLE" = false :=
    tokenContainsSqlModeName_symbol (tokenEquals_comma.mpr rfl) (by decide)
  cases k with
  | zero =>
    rintro ⟨x, token, y, heq, -⟩
    simpa using congrArg List.length heq
  | succ k =>
    rintro ⟨x, token, y, heq, hx, htoken⟩
    rw [take_succ_cons] at heq
    cases x with
    | nil =>
      obtain ⟨rfl, -⟩ := List.cons.inj heq
      exact Bool.false_ne_true (hcomma.symm.trans htoken)
    | cons first x =>
      obtain ⟨rfl, -⟩ := List.cons.inj heq
      exact absurd hx (by simp +decide [hasTopComma])

/-- Nothing or a scope word, in front of a name. -/
def IsScope (front : List Text) : Prop :=
  front = [] ∨ ∃ scope, front = [scope] ∧ tokenIn scope scopeKeywords = true

/-- Somewhere in the first 32 tokens `@@sql_mode =` is read, as the target of an assignment or in a
    comparison, and the tokens behind it mention `ORACLE` in front of the next comma. -/
def ReadsOracleMode (tokens : List Text) : Prop :=
  ∃ a n b, tokens = a ++ n :: equalToken :: b ∧ a.length + 2 ≤ policyTokenLimit ∧
    tokenEquals n "SQL_MODE" = true ∧
    ((∃ a', a = a' ++ [atToken, atToken]) ∨
      ∃ a' scope, a = a' ++ [atToken, atToken, scope, dotToken] ∧
        tokenIn scope scopeKeywords = true) ∧
    MentionsOracle (b.take (policyTokenLimit - (a.length + 2)))

/-- The last option value in front of `FOR` assigns `sql_mode`, and the statement behind `FOR`
    mentions `ORACLE` within the window and in front of its first comma. -/
def OracleBehindFor (d : SetStatement) : Prop :=
  ∃ before item front n value, d.items = before ++ [item] ∧
    (looksForFor d = true → ∀ i ∈ before, hasTopFor 0 i.tokens = false) ∧
    item.tokens = front ++ n :: equalToken :: value ∧ IsScope front ∧
    tokenEquals n "SQL_MODE" = true ∧
    MentionsOracle (d.trail.take
      (policyTokenLimit - (d.lead ++ itemsBefore before ++ item.tokens).length))

/-- No name but `sql_mode` itself, plain, is compared equal to it. -/
theorem sqlMode_value (h : tokenEquals name.token "SQL_MODE" = true) :
    tokenEquals name.value "SQL_MODE" = true := by
  cases name with
  | plain word isWord => exact h
  | quoted name =>
    have hquoted : tokenEquals (byteBacktick :: (name ++ [byteBacktick])) "SQL_MODE" = false :=
      tokenEquals_of_head_backtick rfl (by decide)
    cases hquoted.symm.trans h

variable {b : List Text}

theorem equal_eq_of_tokens {equal : Equal} (h : equal.tokens ++ ts = equalToken :: b) :
    equal.tokens = [equalToken] ∧ ts = b := by
  cases equal with
  | eq => exact ⟨rfl, (List.cons.inj h).2⟩
  | setVar => exact absurd (List.cons.inj h).1 (by decide)

/-- Where an allowed option value starts with `sql_mode =`, it is an assignment to `sql_mode`. -/
theorem sqlMode_of_allowed (h : SetItem.Allowed item) {front r : List Text} {n : Text}
    (hfront : IsScope front) (hn : tokenEquals n "SQL_MODE" = true)
    (hsplit : item.tokens ++ r = front ++ n :: equalToken :: b) :
    ∃ name value, item.assignment = some (name, value) ∧ tokenEquals name "SQL_MODE" = true ∧
      isSegment value = true ∧ item.tokens = front ++ n :: equalToken :: value ∧
      b = value ++ r := by
  have hscope : ∀ {scope : Text}, tokenIn scope scopeKeywords = true → n ≠ scope := by
    rintro scope hscope rfl
    exact absurd hn (Bool.eq_false_iff.mp (tokenEquals_eq_false hscope (by decide)))
  have hnAt : n ≠ atToken := by
    rintro rfl
    exact absurd hn (by decide)
  -- Neither the name nor a scope word in front of it is an `@`.
  have hat : ∀ ts, atToken :: ts ≠ front ++ n :: equalToken :: b := by
    intro ts heq
    rcases hfront with rfl | ⟨scope, rfl, hs⟩
    · exact hnAt (List.cons.inj heq).1.symm
    · obtain ⟨rfl, -⟩ := List.cons.inj heq
      exact absurd hs (by decide)
  match item, h with
  | .bare name equal value, _ =>
    rcases hfront with rfl | ⟨scope, rfl, hs⟩
    · obtain ⟨rfl, hrest⟩ := List.cons.inj hsplit
      obtain ⟨hequal, rfl⟩ := equal_eq_of_tokens ((append_assoc _ _ _).symm.trans hrest)
      refine ⟨_, value.1, rfl, sqlMode_value hn, value.2, ?_, rfl⟩
      rw [SetItem.tokens, hequal]
      rfl
    · -- A sign would stand where the name does.
      cases equal with
      | eq | setVar =>
        obtain ⟨rfl, -⟩ := List.cons.inj (List.cons.inj hsplit).2
        exact absurd hn (by decide)
  | .scoped scope name equal value, _ =>
    rcases hfront with rfl | ⟨scope', rfl, -⟩
    · exact absurd (List.cons.inj hsplit).1.symm (hscope scope.2)
    · obtain ⟨rfl, hname⟩ := List.cons.inj hsplit
      obtain ⟨rfl, hrest⟩ := List.cons.inj hname
      obtain ⟨hequal, rfl⟩ := equal_eq_of_tokens ((append_assoc _ _ _).symm.trans hrest)
      refine ⟨_, value.1, rfl, sqlMode_value hn, value.2, ?_, rfl⟩
      rw [SetItem.tokens, hequal]
      rfl
  | .system none name equal value, _ => exact absurd hsplit (hat _)
  | .system (some scope) name equal value, _ => exact absurd hsplit (hat _)
  | .other tokens isItem nonempty, h =>
    rcases h with ⟨name, equal, value, rfl, -⟩ |
      ⟨qualifier, inst, name, equal, value, rfl, hq, hinst, -⟩
    · exact absurd hsplit (hat _)
    · rcases hq with rfl | ⟨scope, rfl⟩ | rfl | ⟨scope, rfl⟩
      · rcases hfront with rfl | ⟨scope, rfl, hs⟩
        · exact absurd (List.cons.inj (List.cons.inj hsplit).2).1 (by decide)
        · obtain ⟨rfl, -⟩ := List.cons.inj hsplit
          cases hinst.symm.trans hs
      · rcases hfront with rfl | ⟨scope', rfl, -⟩
        · exact absurd (List.cons.inj hsplit).1.symm (hscope scope.2)
        · exact absurd (List.cons.inj (List.cons.inj (List.cons.inj hsplit).2).2).1 (by decide)
      · exact absurd hsplit (hat _)
      · exact absurd hsplit (hat _)

/-- **Oracle mode.** In a permitted statement `ORACLE` is only found behind a read of `@@sql_mode`
    or behind `FOR`. -/
theorem oracleSeen_iff_of_permitted (h : Permitted d) :
    OracleSeen d ↔ ReadsOracleMode d.tokens ∨ OracleBehindFor d := by
  have hlast : ∀ {before item after}, d.items = before ++ item :: after → item ∈ d.items := by
    intro before item after hitems
    rw [hitems]
    exact mem_append_right before mem_cons_self
  -- What is left of the window behind the value.
  have hsize : ∀ {before : List SetItem} {item : SetItem} {front value : List Text} {n : Text},
      item.tokens = front ++ n :: equalToken :: value →
      policyTokenLimit - ((d.lead ++ itemsBefore before ++ front).length + 2) - value.length =
        policyTokenLimit - (d.lead ++ itemsBefore before ++ item.tokens).length := by
    intro before item front value n htokens
    rw [htokens]
    simp only [length_append, length_cons]
    omega
  constructor
  · rintro ⟨a, n, b, hw, hlen, hn, hfollows, hmention⟩
    rcases hfollows with ⟨before, item, ⟨⟨after, hitems⟩, hfor⟩, ha⟩ | hat
    · right
      obtain ⟨front, hfront, rfl⟩ : ∃ front, IsScope front ∧
          a = d.lead ++ itemsBefore before ++ front := by
        rcases ha with rfl | ⟨scope, rfl, hscope⟩
        · exact ⟨[], .inl rfl, (append_nil _).symm⟩
        · exact ⟨[scope], .inr ⟨scope, rfl, hscope⟩, rfl⟩
      have hsplit := (tokens_eq_of_items hitems).symm.trans hw
      rw [append_assoc _ front] at hsplit
      obtain ⟨name, value, hassign, hname, hvalue, htokens, rfl⟩ :=
        sqlMode_of_allowed (h.allowed item (hlast hitems)) hfront hn
          (append_cancel_left hsplit)
      have hfree := h.noOracle item (hlast hitems) name value hassign hname
      rw [mentionsOracle_take_append hvalue hfree] at hmention
      cases after with
      | cons next after =>
        -- The comma behind the option value ends the search.
        exact absurd hmention (not_mentionsOracle_comma _ _)
      | nil =>
        refine ⟨before, item, front, n, value, hitems, hfor, htokens, hfront, hn, ?_⟩
        rwa [hsize htokens] at hmention
    · exact .inl ⟨a, n, b, hw, hlen, hn, hat, hmention⟩
  · rintro (⟨a, n, b, hw, hlen, hn, hat, hmention⟩ |
      ⟨before, item, front, n, value, hitems, hfor, htokens, hfront, hn, hmention⟩)
    · exact ⟨a, n, b, hw, hlen, hn, .inr hat, hmention⟩
    · obtain ⟨name, value', hassign, hname, hvalue, htokens', hrest⟩ :=
        sqlMode_of_allowed (r := []) (h.allowed item (hlast hitems)) hfront hn
          (by rw [append_nil]; exact htokens)
      rw [append_nil] at hrest
      subst hrest
      have hfree := h.noOracle item (hlast hitems) name value hassign hname
      have hpos : (d.lead ++ itemsBefore before ++ item.tokens).length < policyTokenLimit := by
        obtain ⟨x, token, y, heq, -⟩ := hmention
        have hlen := congrArg List.length heq
        simp only [length_take, length_append, length_cons] at hlen ⊢
        omega
      refine ⟨d.lead ++ itemsBefore before ++ front, n, value ++ d.trail, ?_, ?_, hn,
        .inl ⟨before, item, ⟨⟨[], hitems⟩, hfor⟩, ?_⟩, ?_⟩
      · rw [tokens_eq_of_items hitems, htokens]
        simp
      · rw [htokens] at hpos
        simp only [length_append, length_cons] at hpos ⊢
        omega
      · rcases hfront with rfl | ⟨scope, rfl, hscope⟩
        · exact .inl (append_nil _)
        · exact .inr ⟨scope, rfl, hscope⟩
      · rw [mentionsOracle_take_append hvalue hfree, hsize htokens]
        exact hmention

/-! ### The gate on permitted statements -/

/-- No pattern of a query is looked for in a `SET` statement. -/
theorem not_queryCollides (d : SetStatement) :
    ¬QueryCollides (d.tokens.take policyTokenLimit) := by
  have hset : tokenIn d.set ["SET"] = true := by
    rw [tokenIn_cons, d.set_eq, Bool.true_or]
  rintro (⟨hfirst, -⟩ | ⟨hfirst, -⟩)
  · rw [identifierTokenAt_tokens_take, tokenEquals_eq_false hset (by decide)] at hfirst
    exact Bool.false_ne_true hfirst
  · rw [identifierTokenAt_tokens_take, tokenIn_eq_false hset (by decide)] at hfirst
    exact Bool.false_ne_true hfirst

/-- A statement without a visible assignment, where the policy sees what MariaDB reads. -/
theorem rejects_of_not_visiblyAssigns {currentSchema sql : Text} (h : lexCut sql = some d.tokens)
    (halike : SeenAlike sql) (hvisible : ¬VisiblyAssigns d) :
    rejects currentSchema sql = true ↔ ReadsSystemVariable d.tokens ∨ OracleSeen d ∨
      Collides currentSchema (d.tokens.take policyTokenLimit) := by
  have hword : (identifierTokenAt (d.tokens.take policyTokenLimit) 0).isEmpty = false := by
    rw [identifierTokenAt_tokens_take]
    cases hset : d.set with
    | nil => exact absurd (hset ▸ d.set_eq) (by decide)
    | cons => rfl
  rw [rejects_setStatement_eq currentSchema sql d (halike.sqlTokens_eq h), oracleSeen_iff,
    neighbourRule_iff_collides hword, or_iff_right hvisible, or_iff_left (not_queryCollides d)]

/-- `SET @x =` and a value. -/
def setUserVariable (value : SetValue) : SetStatement :=
  setOption (.other (atToken :: ascii "x" :: equalToken :: value.1)
    (by
      have hat : IsNeutral atToken := isNeutral_of_head (b := 0x40) rfl (by decide)
      have hx : IsNeutral (ascii "x") := isNeutral_of_isSqlIdentifierToken (by decide)
      have heq : IsNeutral equalToken := isNeutral_of_head (b := 0x3D) rfl (by decide)
      rw [isSegment_cons hat, isSegment_cons hx, isSegment_cons heq]
      exact value.2)
    (cons_ne_nil _ _)) rfl (by decide)

theorem permitted_setUserVariable (value : SetValue) : Permitted (setUserVariable value) where
  allowed := by
    intro item hitem
    obtain rfl := mem_singleton.mp hitem
    exact .inl ⟨[ascii "x"], .eq, value.1, rfl, cons_ne_nil _ _, by decide⟩
  noOracle := by
    intro item hitem name tokens hassign
    obtain rfl := mem_singleton.mp hitem
    cases hassign

theorem tokenEquals_statement : tokenEquals (ascii "STATEMENT") "STATEMENT" = true := by
  decide

theorem tokenEquals_for : tokenEquals (ascii "FOR") "FOR" = true := by
  decide

/-- `SET STATEMENT sql_mode = '' FOR` and a statement. -/
def setModeFor (body : List Text) : SetStatement where
  set := ascii "SET"
  set_eq := tokenEquals_set
  form := .statement (ascii "STATEMENT") (ascii "FOR") tokenEquals_statement tokenEquals_for body
  first := .bare (.plain (ascii "sql_mode") isSqlIdentifierToken_sqlMode) .eq
    ⟨[ascii "''"], by decide⟩
  rest := []
  first_ok := by
    show (some (ascii "sql_mode") : Option Text) ≠ some equalToken
    decide

theorem permitted_setModeFor (body : List Text) : Permitted (setModeFor body) where
  allowed := by
    intro item hitem
    obtain rfl := mem_singleton.mp hitem
    show isBlockedName (ascii "sql_mode") = false
    have hmode : "SQL_MODE" ∈ unblockedWords := by decide
    rw [isBlockedName_eq, not_plainBlocked hmode (by decide), Bool.or_false]
    decide
  noOracle := by
    intro item hitem name value hassign _ token htoken
    obtain rfl := mem_singleton.mp hitem
    obtain ⟨rfl, rfl⟩ := Prod.mk.inj (Option.some.inj hassign)
    obtain rfl := mem_singleton.mp htoken
    decide

end MyLite.Policy

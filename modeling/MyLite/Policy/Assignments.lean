import MyLite.MariaDB.SetGrammar

namespace MyLite.Policy

open MyLite.Sql MyLite.MariaDB List SqlPolicyTokens

/-!
# The recogniser of assignments

`is_system_variable_qualified_token` works on raw tokens: it wants the variable's name as one
token, directly followed by `=`, at the start of an option value (which it finds by counting
parentheses up to a comma), behind a scope word there, or behind `@@` anywhere.

* `qualified_iff` — the recogniser as a statement about the tokens in front of the name.
* `anyAssigned_iff` — the rules on assignments as a split of the statement's tokens.
* `anyAssigned_take_iff` — the same for the tokens that are collected.
-/

/-! ### Symbols -/

variable {t : Text}

theorem tokenEquals_comma : tokenEquals t "," = true ↔ t = commaToken :=
  tokenEquals_symbol (by decide) (by decide)

theorem tokenEquals_equal : tokenEquals t "=" = true ↔ t = equalToken :=
  tokenEquals_symbol (by decide) (by decide)

theorem tokenEquals_at : tokenEquals t "@" = true ↔ t = atToken :=
  tokenEquals_symbol (by decide) (by decide)

theorem tokenEquals_dot : tokenEquals t "." = true ↔ t = dotToken :=
  tokenEquals_symbol (by decide) (by decide)

/-- A name in backticks is compared without them. -/
theorem unquotedIdentifierToken_token (name : IdentName) :
    unquotedIdentifierToken name.token = name.value := by
  cases name with
  | plain word isWord =>
    refine unquotedIdentifierToken_of_head ?_
    intro hhead
    change word.head? = some byteBacktick at hhead
    rw [isSqlIdentifierToken, hhead] at isWord
    exact absurd isWord (by decide)
  | quoted name => exact unquotedIdentifierToken_quoted name

/-! ### The recogniser, by the tokens in front of a name -/

variable {a b : List Text}

theorem value_append_length (a b : List Text) (n : Text) :
    value (a ++ n :: b) a.length = n := by
  simp [value, getD_eq_getElem?_getD]

/-- Reading a slot behind the first tokens. -/
theorem value_append_add (a b : List Text) (i : ℕ) :
    value (a ++ b) (a.length + i) = value b i := by
  rw [value, value, getD_eq_getElem?_getD,
    getD_eq_getElem?_getD, List.getElem?_append_right (Nat.le_add_right _ _),
    Nat.add_sub_cancel_left]

theorem value_append_pred (ha : a ≠ []) :
    some (value (a ++ b) (a.length - 1)) = a.getLast? := by
  rcases eq_nil_or_concat a with rfl | ⟨a, t, rfl⟩
  · exact absurd rfl ha
  · have hlen : (a.concat t).length - 1 = a.length := by simp
    rw [hlen, concat_eq_append, append_assoc, singleton_append,
      value_append_length, List.getLast?_concat]

private theorem take_drop_append (a b : List Text) (k : ℕ) :
    ((a ++ b).drop k).take (a.length - k) = a.drop k := by
  rcases Nat.le_total k a.length with h | h
  · rw [drop_append_of_le_length h]
    exact take_left' (by simp)
  · rw [Nat.sub_eq_zero_of_le h, take_zero, drop_eq_nil_of_le h]

/-- The tokens `a` end where the recogniser lets an option value start, if `first` is the position
    of the first one. -/
def StartsAfter (first : ℕ) (a : List Text) : Prop :=
  a.length = first ∨ assignmentDepth (first == 2) 0 (a.drop first) = some 0 ∧
    a.getLast? = some commaToken

variable {w : List Text}

theorem ne_nil_of_startsAfter (h : StartsAfter (firstSetAssignmentTokenIndex w) a) : a ≠ [] := by
  rintro rfl
  rcases h with h | ⟨-, h⟩
  · unfold firstSetAssignmentTokenIndex at h
    split_ifs at h
  · cases h

theorem isSystemVariableAssignmentStart_iff (a b : List Text) :
    isSystemVariableAssignmentStart (a ++ b) a.length = true ↔
      StartsAfter (firstSetAssignmentTokenIndex (a ++ b)) a := by
  unfold isSystemVariableAssignmentStart StartsAfter
  simp only [Bool.or_eq_true, beq_iff_eq, take_drop_append]
  refine or_congr_right ?_
  cases hd : assignmentDepth (firstSetAssignmentTokenIndex (a ++ b) == 2) 0
      (a.drop (firstSetAssignmentTokenIndex (a ++ b))) with
  | none => simp
  | some depth =>
    rcases eq_nil_or_concat a with rfl | ⟨a', t, ha⟩
    · simp
    · have hne : a ≠ [] := by simp [ha]
      have hlast := value_append_pred (b := b) hne
      have hpos : 0 < a.length := length_pos_of_ne_nil hne
      simp only [hpos, decide_true, Bool.true_and, Bool.and_eq_true, beq_iff_eq,
        tokenEquals_comma, ← hlast, Option.some.injEq]

/-- The four ways a name is recognised, by what stands in front of it. -/
def Qualifies (first : ℕ) (a : List Text) : Prop :=
  StartsAfter first a ∨
    (∃ a' scope, a = a' ++ [scope] ∧ tokenIn scope scopeKeywords = true ∧ StartsAfter first a') ∨
    (∃ a', a = a' ++ [atToken, atToken]) ∨
    ∃ a' scope, a = a' ++ [atToken, atToken, scope, dotToken] ∧
      tokenIn scope scopeKeywords = true

variable {k : ℕ}

/-- The slots in front of a position, counted backwards. -/
theorem value_append_sub (hk : k < a.length) :
    value (a ++ b) (a.length - (k + 1)) = a.reverse.getD k [] := by
  have hlt : a.length - (k + 1) < a.length := by omega
  rw [value, getD_eq_getElem?_getD, getD_eq_getElem?_getD,
    List.getElem?_append_left hlt, List.getElem?_reverse hk]
  congr 2
  omega

variable {s : Text}

/-- The tokens in front of a position end with `@@`. -/
private theorem endsWith_at :
    (decide (2 ≤ (a ++ [s]).length) && tokenEquals s "@" &&
        tokenEquals (value (a ++ [s] ++ b) ((a ++ [s]).length - 2)) "@") = true ↔
      ∃ a', a ++ [s] = a' ++ [atToken, atToken] := by
  rcases eq_nil_or_concat a with rfl | ⟨a, t, rfl⟩
  · refine iff_of_false (by simp) ?_
    rintro ⟨a', h⟩
    simpa using congrArg List.length h
  · rw [concat_eq_append, value_append_sub (k := 1) (by simp), append_assoc]
    have hlen : 2 ≤ (a ++ ([t] ++ [s])).length := by simp
    simp only [hlen, decide_true, Bool.true_and, Bool.and_eq_true, tokenEquals_at]
    have hget : (a ++ ([t] ++ [s])).reverse.getD 1 [] = t := by simp
    rw [hget]
    constructor
    · rintro ⟨rfl, rfl⟩; exact ⟨a, rfl⟩
    · rintro ⟨a', h⟩
      obtain ⟨-, hts⟩ := append_inj' h rfl
      simp only [cons_append, nil_append, List.cons.injEq, and_true] at hts
      exact hts.symm

/-- The tokens in front of a position end with `@@`, a scope word and a dot. -/
private theorem endsWith_scope :
    (decide (4 ≤ (a ++ [s]).length) && tokenEquals s "." &&
        tokenIn (value (a ++ [s] ++ b) ((a ++ [s]).length - 2)) scopeKeywords &&
        tokenEquals (value (a ++ [s] ++ b) ((a ++ [s]).length - 3)) "@" &&
        tokenEquals (value (a ++ [s] ++ b) ((a ++ [s]).length - 4)) "@") = true ↔
      ∃ a' scope, a ++ [s] = a' ++ [atToken, atToken, scope, dotToken] ∧
        tokenIn scope scopeKeywords = true := by
  by_cases hlen : 4 ≤ (a ++ [s]).length
  · obtain ⟨a, t₃, rfl⟩ := (eq_nil_or_concat a).resolve_left (by rintro rfl; simp at hlen)
    obtain ⟨a, t₂, rfl⟩ := (eq_nil_or_concat a).resolve_left (by rintro rfl; simp at hlen)
    obtain ⟨a, t₁, rfl⟩ := (eq_nil_or_concat a).resolve_left (by rintro rfl; simp at hlen)
    have hrev : (((a.concat t₁).concat t₂).concat t₃ ++ [s]).reverse =
        s :: t₃ :: t₂ :: t₁ :: a.reverse := by simp
    rw [decide_eq_true hlen, value_append_sub (k := 1) (by simp),
      value_append_sub (k := 2) (by simp), value_append_sub (k := 3) (by simp), hrev]
    simp only [Bool.true_and, Bool.and_eq_true, tokenEquals_at, tokenEquals_dot,
      getD_cons_succ, getD_cons_zero, concat_eq_append, append_assoc,
      cons_append, nil_append]
    constructor
    · rintro ⟨⟨⟨rfl, hs⟩, rfl⟩, rfl⟩
      exact ⟨a, t₃, rfl, hs⟩
    · rintro ⟨a', scope, h, hs⟩
      obtain ⟨-, hts⟩ := append_inj' h rfl
      simp only [List.cons.injEq, and_true] at hts
      obtain ⟨rfl, rfl, rfl, rfl⟩ := hts
      exact ⟨⟨⟨rfl, hs⟩, rfl⟩, rfl⟩
  · rw [decide_eq_false hlen]
    refine iff_of_false (by simp) ?_
    rintro ⟨a', scope, h, -⟩
    rw [h] at hlen
    simp at hlen

variable {n : Text}

/-- **Recogniser.** A token is taken for an assigned name exactly when `=` follows directly and the
    tokens in front of it qualify. -/
theorem qualified_iff (ha : a ≠ []) :
    isSystemVariableQualifiedToken (a ++ n :: b) a.length = true ↔
      b.head? = some equalToken ∧ Qualifies (firstSetAssignmentTokenIndex (a ++ n :: b)) a := by
  have heq : (decide (a.length + 1 < (a ++ n :: b).length) &&
      tokenEquals (value (a ++ n :: b) (a.length + 1)) "=") = true ↔
        b.head? = some equalToken := by
    rw [value_append_add, Bool.and_eq_true, tokenEquals_equal]
    cases b <;> simp [value, equalToken]
  unfold isSystemVariableQualifiedToken
  rw [Bool.and_eq_true, heq, Bool.or_eq_true, isSystemVariableAssignmentStart_iff]
  refine and_congr_right fun _ => or_congr_right ?_
  -- The token directly in front decides which of the other three cases can apply.
  obtain ⟨a, s, rfl⟩ := (eq_nil_or_concat a).resolve_left ha
  rw [concat_eq_append]
  have hprev : value (a ++ [s] ++ n :: b) ((a ++ [s]).length - 1) = s := by
    rw [value_append_sub (by simp)]; simp
  have hstart : isSystemVariableAssignmentStart (a ++ [s] ++ n :: b) ((a ++ [s]).length - 1) =
      true ↔ StartsAfter (firstSetAssignmentTokenIndex (a ++ [s] ++ n :: b)) a := by
    have hlen : (a ++ [s]).length - 1 = a.length := by simp
    rw [hlen, append_assoc, singleton_append, isSystemVariableAssignmentStart_iff]
  rw [hprev]
  split_ifs with hscope
  · rw [hstart]
    constructor
    · intro h; exact .inl ⟨a, s, rfl, hscope, h⟩
    · rintro (⟨a', t, hat, -, h⟩ | ⟨a', hat⟩ | ⟨a', t, hat, -⟩)
      · obtain ⟨rfl, -⟩ := append_inj' hat rfl
        exact h
      · obtain rfl : s = atToken := by simpa using congrArg List.getLast? hat
        exact absurd hscope (by decide)
      · obtain rfl : s = dotToken := by simpa using congrArg List.getLast? hat
        exact absurd hscope (by decide)
  · rw [Bool.or_eq_true, endsWith_at, endsWith_scope]
    constructor
    · intro h; exact .inr h
    · rintro (⟨a', t, hat, ht, -⟩ | h)
      · obtain ⟨-, hst⟩ := append_inj' hat rfl
        rw [singleton_inj.mp hst] at hscope
        exact absurd ht hscope
      · exact h

/-! ### Rules on assignments -/

/-- A name with `isName` is assigned a value with `isValue`. -/
def anyAssigned (isName : Text → Bool) (isValue : List Text → Bool) (tokens : SqlPolicyTokens) :
    Bool :=
  tokens.anyFrom 1 fun index => isName (tokens.value index) &&
    isSystemVariableQualifiedToken tokens index && isValue (tokens.drop (index + 2))

theorem setAssigns_eq_anyAssigned (isName : Text → Bool) (tokens : SqlPolicyTokens) :
    setAssigns isName tokens = (tokenEquals (identifierTokenAt tokens 0) "SET" &&
      anyAssigned isName (fun _ => true) tokens) := by
  simp only [setAssigns, anyAssigned, Bool.and_true]

theorem isUnsupportedOracleSqlModeStatement_eq_anyAssigned (tokens : SqlPolicyTokens) :
    isUnsupportedOracleSqlModeStatement tokens =
      (tokenEquals (identifierTokenAt tokens 0) "SET" &&
        anyAssigned (tokenEquals · "SQL_MODE") (valueMentionsOracle 0) tokens) := rfl

variable {isName : Text → Bool} {isValue : List Text → Bool}

/-- **Assignments.** The rule fires exactly where the tokens split at an assignment that the
    recogniser lets begin. -/
theorem anyAssigned_iff :
    anyAssigned isName isValue w = true ↔
      ∃ a n b, w = a ++ n :: equalToken :: b ∧ a ≠ [] ∧ isName n = true ∧
        Qualifies (firstSetAssignmentTokenIndex w) a ∧ isValue b = true := by
  rw [anyAssigned, anyFrom_eq_true]
  constructor
  · rintro ⟨i, hi, hlt, hhit⟩
    obtain ⟨hhit, hvalue⟩ := (Bool.and_eq_true _ _).mp hhit
    obtain ⟨hname, hq⟩ := (Bool.and_eq_true _ _).mp hhit
    obtain ⟨a, n, b, rfl, rfl⟩ : ∃ a n b, w = a ++ n :: b ∧ a.length = i :=
      ⟨_, _, _, (take_append_drop i _).symm.trans (by rw [drop_eq_getElem_cons hlt]),
        by rw [length_take]; omega⟩
    have hne : a ≠ [] := ne_nil_of_length_pos hi
    rw [value_append_length] at hname
    obtain ⟨hhead, hqual⟩ := (qualified_iff hne).mp hq
    obtain ⟨b, rfl⟩ : ∃ b', b = equalToken :: b' := by
      cases b with
      | nil => cases hhead
      | cons e b => exact ⟨b, by rw [Option.some.inj hhead]⟩
    refine ⟨a, n, b, rfl, hne, hname, hqual, ?_⟩
    rwa [drop_append, drop_eq_nil_of_le (by omega), Nat.add_sub_cancel_left] at hvalue
  · rintro ⟨a, n, b, rfl, hne, hname, hqual, hvalue⟩
    refine ⟨a.length, length_pos_of_ne_nil hne, by simp, ?_⟩
    have hdrop : (a ++ n :: equalToken :: b).drop (a.length + 2) = b := by
      rw [drop_append, drop_eq_nil_of_le (by omega), Nat.add_sub_cancel_left]
      rfl
    rw [value_append_length, hname, hdrop, hvalue, (qualified_iff hne).mpr ⟨rfl, hqual⟩]
    rfl

/-! ### The first 32 tokens -/

theorem firstSetAssignmentTokenIndex_take (w : List Text) :
    firstSetAssignmentTokenIndex (w.take policyTokenLimit) = firstSetAssignmentTokenIndex w := by
  have hvalue : ∀ i, i < 32 → value (w.take policyTokenLimit) i =
      value w i := by
    intro i hi
    simp [value, getD_eq_getElem?_getD, policyTokenLimit, hi]
  have hlen : decide (2 < (w.take policyTokenLimit).length) = decide (2 < w.length) := by
    rw [length_take, policyTokenLimit]
    congr 1
    exact propext (by omega)
  rw [firstSetAssignmentTokenIndex, firstSetAssignmentTokenIndex, hvalue 1 (by omega),
    hvalue 2 (by omega), hlen]

/-- A split of the first tokens is a split of all of them. -/
theorem take_eq_append_iff :
    w.take k = a ++ n :: equalToken :: b ↔
      a.length + 2 ≤ k ∧ ∃ b', w = a ++ n :: equalToken :: b' ∧
        b'.take (k - (a.length + 2)) = b := by
  constructor
  · intro h
    have hle := congrArg List.length h
    rw [length_take, length_append, length_cons, length_cons] at hle
    refine ⟨by omega, b ++ w.drop k, ?_, ?_⟩
    · calc w = w.take k ++ w.drop k := (take_append_drop _ _).symm
        _ = _ := by rw [h]; simp
    · rcases Nat.le_total k w.length with hk | hk
      · exact take_left' (by omega)
      · rw [drop_eq_nil_of_le hk, append_nil, take_of_length_le (by omega)]
  · rintro ⟨hle, b', rfl, rfl⟩
    obtain ⟨m, hm⟩ : ∃ m, k - a.length = m + 2 := ⟨k - (a.length + 2), by omega⟩
    have hm' : k - (a.length + 2) = m := by omega
    rw [take_append, take_of_length_le (by omega), hm, hm', take_succ_cons,
      take_succ_cons]

theorem anyAssigned_take_iff :
    anyAssigned isName isValue (w.take policyTokenLimit) = true ↔
      ∃ a n b, w = a ++ n :: equalToken :: b ∧ a.length + 2 ≤ policyTokenLimit ∧ a ≠ [] ∧
        isName n = true ∧ Qualifies (firstSetAssignmentTokenIndex w) a ∧
        isValue (b.take (policyTokenLimit - (a.length + 2))) = true := by
  rw [anyAssigned_iff, firstSetAssignmentTokenIndex_take]
  constructor
  · rintro ⟨a, n, b, hsplit, hne, hname, hqual, hvalue⟩
    obtain ⟨hle, b', hw, rfl⟩ := take_eq_append_iff.mp hsplit
    exact ⟨a, n, b', hw, hle, hne, hname, hqual, hvalue⟩
  · rintro ⟨a, n, b, hw, hle, hne, hname, hqual, hvalue⟩
    exact ⟨a, n, _, take_eq_append_iff.mpr ⟨hle, b, hw, rfl⟩, hne, hname, hqual, hvalue⟩

/-- An assignment rule on the collected tokens, by a split of the statement's tokens. -/
theorem setAssigns_take_iff {p : Text → Bool}
    (hset : tokenEquals (identifierTokenAt (w.take policyTokenLimit) 0) "SET" = true) :
    setAssigns p (w.take policyTokenLimit) = true ↔
      ∃ a n b, w = a ++ n :: equalToken :: b ∧ a.length + 2 ≤ policyTokenLimit ∧ a ≠ [] ∧
        p n = true ∧ Qualifies (firstSetAssignmentTokenIndex w) a := by
  rw [setAssigns_eq_anyAssigned, hset, Bool.true_and, anyAssigned_take_iff]
  simp only [and_true]

end MyLite.Policy

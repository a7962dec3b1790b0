import MyLite.MariaDB.LexTokens
import MyLite.Policy.Assignments

namespace MyLite.Policy

open MyLite.Sql MyLite.MariaDB List

/-!
# What the `SET` gate sees of an assignment

The recogniser of `MyLite.Policy.Assignments` on the derivations of `MyLite.MariaDB.SetGrammar`.

* `startsAfter_iff` — the places it takes for the start of an option value are the starts.
* `rejects_setStatement_iff` — which statements are rejected.
-/

/-! ### Counting parentheses -/

variable {a b : List Text}

theorem parenDepth_append (a b : List Text) :
    ∀ depth, parenDepth depth (a ++ b) = (parenDepth depth a).bind (parenDepth · b) := by
  induction a with
  | nil => intro depth; rfl
  | cons t a ih =>
    intro depth
    simp only [cons_append, parenDepth]
    split_ifs
    · exact ih _
    · cases depth with
      | zero => rfl
      | succ depth => exact ih _
    · rfl
    · exact ih _

variable (sf : Bool)

variable {ts : List Text} {forWord : Text}

theorem assignmentDepth_append (a b : List Text) :
    ∀ depth, assignmentDepth sf depth (a ++ b) =
      (assignmentDepth sf depth a).bind (assignmentDepth sf · b) := by
  induction a with
  | nil => intro depth; rfl
  | cons t a ih =>
    intro depth
    simp only [cons_append, assignmentDepth]
    split_ifs
    · exact ih _
    · exact ih _
    · rfl
    · exact ih _

/-- On matched parentheses the recogniser's counter is exact, unless it stops at a `FOR`. -/
theorem assignmentDepth_eq :
    ∀ {depth e : ℕ}, parenDepth depth ts = some e →
      assignmentDepth sf depth ts = if sf && hasTopFor depth ts then none else some e := by
  induction ts with
  | nil =>
    intro depth e h
    rw [parenDepth] at h
    simp [assignmentDepth, hasTopFor, h]
  | cons t ts ih =>
    intro depth e h
    simp only [parenDepth, assignmentDepth, hasTopFor] at h ⊢
    split_ifs at h with h₁ h₂ h₃
    · simp only [h₁, if_true]; exact ih h
    · cases depth with
      | zero => cases h
      | succ depth => simp only [h₁, h₂, if_true]; exact ih h
    · simp only [h₁, h₂]
      have hstop : (depth == 0 && sf && tokenEquals t "FOR") =
          (sf && (depth == 0 && tokenEquals t "FOR")) := by
        rw [Bool.and_comm (depth == 0), Bool.and_assoc]
      rw [hstop]
      cases sf with
      | false => simpa using ih h
      | true =>
        cases depth == 0 && tokenEquals t "FOR" with
        | false => simpa using ih h
        | true => rfl

/-- A comma inside a balanced stretch is inside parentheses. -/
theorem assignmentDepth_of_comma {e : ℕ} (h : parenDepth 0 (a ++ commaToken :: b) = some e) :
    assignmentDepth sf 0 a ≠ some 0 := by
  rw [parenDepth_append] at h
  obtain ⟨k, hk, hb⟩ := Option.bind_eq_some_iff.mp h
  rw [assignmentDepth_eq sf hk]
  intro hzero
  obtain rfl : k = 0 := by
    split_ifs at hzero
    exact Option.some.inj hzero
  have hcomma : parenDepth 0 (commaToken :: b) = none := by
    simp +decide [parenDepth]
  rw [hcomma] at hb
  cases hb

theorem assignmentDepth_comma (depth : ℕ) (ts : List Text) :
    assignmentDepth sf depth (commaToken :: ts) = assignmentDepth sf depth ts := by
  have h₁ : tokenEquals commaToken "(" = false := by decide
  have h₂ : tokenEquals commaToken ")" = false := by decide
  have h₃ : tokenEquals commaToken "FOR" = false := by decide
  simp [assignmentDepth, h₁, h₂, h₃]

theorem assignmentDepth_for (h : tokenEquals forWord "FOR" = true) (ts : List Text) :
    assignmentDepth true 0 (forWord :: ts) = none := by
  have hk := tokenEquals_subst h
  have h₁ : tokenEquals (ascii "FOR") "(" = false := by decide
  have h₂ : tokenEquals (ascii "FOR") ")" = false := by decide
  have h₃ : tokenEquals (ascii "FOR") "FOR" = true := by decide
  simp [assignmentDepth, hk, h₁, h₂, h₃]

/-! ### Starts of option values -/

/-- The tokens `a` in front of a position are taken for the end of an option value: the counter is
    at zero behind them and a comma stands last. -/
def EndsItem (a : List Text) : Prop :=
  assignmentDepth sf 0 a = some 0 ∧ a.getLast? = some commaToken

/-- What may follow the option values: nothing, or a `FOR` if the recogniser looks for one. -/
def TrailOk (trail : List Text) : Prop :=
  trail = [] ∨ sf = true ∧ ∃ forWord body, trail = forWord :: body ∧
    tokenEquals forWord "FOR" = true

variable {first : List Text}

/-- No comma inside an option value is taken for its end. -/
theorem not_endsItem_inside (h : isSegment first = true) (hab : first = a ++ b) :
    ¬EndsItem sf a := by
  rintro ⟨hdepth, hlast⟩
  obtain ⟨a', rfl⟩ := List.getLast?_eq_some_iff.mp hlast
  have hseg : parenDepth 0 (a' ++ commaToken :: b) = some 0 := by
    rw [isSegment, beq_iff_eq, hab] at h
    simpa using h
  refine assignmentDepth_of_comma sf hseg ?_
  rw [assignmentDepth_append] at hdepth
  obtain ⟨k, hk, hc⟩ := Option.bind_eq_some_iff.mp hdepth
  rw [assignmentDepth_comma] at hc
  rw [hk]; exact hc

/-- Behind a whole option value and its comma the recogniser starts afresh. -/
theorem endsItem_append_comma (h : isSegment first = true) (a : List Text) :
    EndsItem sf (first ++ commaToken :: a) ↔
      (sf = true → hasTopFor 0 first = false) ∧ (a = [] ∨ EndsItem sf a) := by
  have hdepth : assignmentDepth sf 0 (first ++ commaToken :: a) =
      if sf && hasTopFor 0 first then none else assignmentDepth sf 0 a := by
    rw [assignmentDepth_append, assignmentDepth_eq sf (beq_iff_eq.mp h)]
    split_ifs
    · rfl
    · exact assignmentDepth_comma sf 0 a
  have hstop : (sf = true → hasTopFor 0 first = false) ↔ (sf && hasTopFor 0 first) = false := by
    cases sf <;> simp
  unfold EndsItem
  rw [hdepth, hstop]
  cases hsf : sf && hasTopFor 0 first with
  | true => simp
  | false =>
    rcases eq_nil_or_concat a with rfl | ⟨a', t, rfl⟩
    · simp [assignmentDepth]
    · have hlast : (first ++ commaToken :: (a' ++ [t])).getLast? = (a' ++ [t]).getLast? := by
        rw [← cons_append, ← append_assoc, List.getLast?_concat, List.getLast?_concat]
      simp [hlast]

theorem joinItems_cons (first x : List Text) (rest : List (List Text)) :
    joinItems first (x :: rest) = first ++ commaToken :: joinItems x rest := by
  simp [joinItems]

/-- **Starts.** The positions the recogniser takes for the start of a later option value are
    exactly the starts of the later option values in front of which it met no `FOR`. -/
theorem endsItem_iff {trail : List Text} (htrail : TrailOk sf trail) :
    ∀ (rest : List (List Text)) (first a b : List Text), isSegment first = true →
      (∀ ts ∈ rest, isSegment ts = true) → joinItems first rest ++ trail = a ++ b →
      (EndsItem sf a ↔ ∃ before x after, rest = before ++ x :: after ∧
        a = joinItems first before ++ [commaToken] ∧
        (sf = true → ∀ ts ∈ first :: before, hasTopFor 0 ts = false)) := by
  intro rest
  induction rest with
  | nil =>
    intro first a b hfirst _ hab
    refine iff_of_false ?_ (by simp)
    have hab' : first ++ trail = a ++ b := by simpa [joinItems] using hab
    rcases append_eq_append_iff.mp hab' with ⟨c, rfl, hc⟩ | ⟨c, hc, -⟩
    · -- The position is behind the last option value: there is a `FOR` in front of it.
      cases c with
      | nil => exact not_endsItem_inside sf (b := []) hfirst (by simp)
      | cons t c =>
        rcases htrail with rfl | ⟨rfl, forWord, body, rfl, hfor⟩
        · cases hc
        · obtain ⟨rfl, -⟩ := List.cons.inj hc
          rintro ⟨hdepth, -⟩
          rw [assignmentDepth_append, assignmentDepth_eq true (beq_iff_eq.mp hfirst)] at hdepth
          split_ifs at hdepth
          · cases hdepth
          · rw [Option.bind_some, assignmentDepth_for hfor] at hdepth
            cases hdepth
    · exact not_endsItem_inside sf hfirst hc
  | cons x rest ih =>
    intro first a b hfirst hrest hab
    rw [joinItems_cons, append_assoc, cons_append] at hab
    rcases append_eq_append_iff.mp hab with ⟨c, rfl, hc⟩ | ⟨c, hc, -⟩
    · cases c with
      | nil =>
        refine iff_of_false (not_endsItem_inside sf (b := []) hfirst (by simp)) ?_
        rintro ⟨before, _, _, -, hlen, -⟩
        have := congrArg List.length hlen
        simp [joinItems] at this
      | cons t c =>
        obtain ⟨rfl, hxc⟩ := List.cons.inj hc
        have ihx := ih x c b (hrest x (by simp)) (fun ts hts => hrest ts (by simp [hts])) hxc
        rw [endsItem_append_comma sf hfirst, ihx]
        constructor
        · rintro ⟨hfor, rfl | ⟨before, y, after, rfl, rfl, hfors⟩⟩
          · refine ⟨[], x, rest, rfl, by simp [joinItems], fun h ts hts => ?_⟩
            rw [mem_singleton.mp hts]; exact hfor h
          · refine ⟨x :: before, y, after, rfl, by simp [joinItems_cons], fun h ts hts => ?_⟩
            rcases mem_cons.mp hts with rfl | hts
            · exact hfor h
            · exact hfors h ts hts
        · rintro ⟨before, y, after, hsplit, ha, hfors⟩
          refine ⟨fun h => hfors h first (by simp), ?_⟩
          cases before with
          | nil => left; simpa [joinItems] using ha
          | cons z before =>
            obtain ⟨rfl, rfl⟩ := List.cons.inj hsplit
            refine .inr ⟨before, y, after, rfl, ?_, fun h ts hts => hfors h ts (by simp [hts])⟩
            rw [joinItems_cons, append_assoc, cons_append] at ha
            exact (List.cons.inj (append_cancel_left ha)).2
    · refine iff_of_false (not_endsItem_inside sf hfirst hc) ?_
      rintro ⟨before, _, _, -, rfl, -⟩
      have := congrArg List.length hc
      simp [joinItems] at this

/-! ### Names and item starts of a derivation -/

/-- The beginning of a name or a scope word: a word or something in backticks, and not the word
    `STATEMENT`. -/
def IsNameStart (t : Text) : Prop :=
  (isSqlIdentifierToken t = true ∨ t.head? = some byteBacktick) ∧
    tokenEquals t "STATEMENT" = false

variable {t : Text}

theorem isNameStart_of_tokenIn {names : List String} (h : tokenIn t names = true)
    (hw : ∀ name ∈ names, isSqlIdentifierToken (ascii name) = true)
    (hs : ∀ name ∈ names, tokenEquals (ascii name) "STATEMENT" = false) : IsNameStart t :=
  ⟨.inl (isSqlIdentifierToken_of_tokenIn h hw), tokenEquals_eq_false h hs⟩

theorem tokenEquals_of_head_backtick (h : t.head? = some byteBacktick) {keyword : String}
    (hk : (fold (ascii keyword)).head? ≠ some byteBacktick) : tokenEquals t keyword = false := by
  rw [Bool.eq_false_iff, ne_eq, tokenEquals_iff]
  intro hf
  refine hk ?_
  rw [← hf]
  cases t with
  | nil => cases h
  | cons b t =>
    obtain rfl : b = byteBacktick := Option.some.inj h
    rfl

/-- The names of the assignment rules that are compared without removing backticks: all but
    `USERSTAT`. -/
def plainBlockedNames : List String :=
  profilingVariables ++ queryLogVariables ++ optimizerTraceVariables ++
    persistentStatisticsVariables ++ ["PASSWORD"] ++ serverVariables

theorem isBlockedVariableToken_eq (t : Text) : isBlockedVariableToken t =
    (identifierTokenEquals t "USERSTAT" || tokenIn t plainBlockedNames) := by
  simp only [isBlockedVariableToken, isProfilingVariableToken, isQueryLogVariableToken,
    isOptimizerTraceVariableToken, isPersistentStatisticsVariableToken, isServerVariableToken,
    plainBlockedNames, tokenIn, any_append, any_cons, any_nil, Bool.or_false,
    Bool.or_assoc]

/-- The words the grammar puts around a name, and the variable of the mode rule. -/
def unblockedWords : List String := ["STATEMENT", "FOR", "SQL_MODE"] ++ scopeKeywords

/-- The blocked names are words, and none of them is one of the grammar's. -/
theorem plainBlockedNames_words : ∀ name ∈ plainBlockedNames,
    isSqlIdentifierToken (ascii name) = true ∧
      ∀ word ∈ unblockedWords, tokenEquals (ascii name) word = false := by
  -- One evaluation for all the words: reading the names is what takes the time.
  decide

theorem isSqlIdentifierToken_of_plainBlocked (h : tokenIn t plainBlockedNames = true) :
    isSqlIdentifierToken t = true :=
  isSqlIdentifierToken_of_tokenIn h fun name hmem => (plainBlockedNames_words name hmem).1

variable {word : String}

theorem not_plainBlocked (hword : word ∈ unblockedWords) (h : tokenEquals t word = true) :
    tokenIn t plainBlockedNames = false := by
  rw [Bool.eq_false_iff]
  intro hin
  have hne : tokenEquals t word = false :=
    tokenEquals_eq_false hin fun name hmem => (plainBlockedNames_words name hmem).2 word hword
  exact Bool.false_ne_true (hne.symm.trans h)

theorem not_isBlockedVariableToken_word (hword : word ∈ unblockedWords)
    (h : tokenEquals t word = true) : isBlockedVariableToken t = false := by
  have huserstat : ∀ word ∈ unblockedWords,
      identifierTokenEquals (ascii word) "USERSTAT" = false := by decide
  rw [isBlockedVariableToken_eq, not_plainBlocked hword h, Bool.or_false,
    identifierTokenEquals_congr (tokenEquals_iff.mp h)]
  exact huserstat word hword

/-- A statement that assigns the mode and no other variable. -/
theorem rejects_of_mode {sql : Text} {tokens : SqlPolicyTokens}
    (htokens : (sqlTokens sql).take policyTokenLimit = tokens)
    (hmode : ∀ i < tokens.length, isSystemVariableQualifiedToken tokens i = true →
      tokenEquals (tokens.value i) "SQL_MODE" = true) (currentSchema : Text) :
    rejects currentSchema sql = (leadingRule tokens || neighbourRule currentSchema tokens ||
      isUnsupportedOracleSqlModeStatement tokens) := by
  refine rejects_of_unassigned htokens ?_ currentSchema
  intro i hi hassigned
  exact not_isBlockedVariableToken_word (by decide) (hmode i hi hassigned)

/-- A token in backticks is only ever taken for `USERSTAT`. -/
theorem isNameStart_of_isBlockedVariableToken (h : isBlockedVariableToken t = true) :
    IsNameStart t := by
  rw [isBlockedVariableToken_eq, Bool.or_eq_true] at h
  rcases h with h | h
  · unfold identifierTokenEquals unquotedIdentifierToken at h
    split_ifs at h with hq
    · simp only [Bool.and_eq_true, beq_iff_eq] at hq
      exact ⟨.inr hq.1.2, tokenEquals_of_head_backtick hq.1.2 (by decide)⟩
    · have h' : tokenIn t ["USERSTAT"] = true := by simpa [tokenIn] using h
      exact isNameStart_of_tokenIn h' (by decide) (by decide)
  · exact ⟨.inl (isSqlIdentifierToken_of_plainBlocked h),
      tokenEquals_eq_false h fun name hmem =>
        (plainBlockedNames_words name hmem).2 _ mem_cons_self⟩

/-- A symbol is no name. -/
theorem not_isBlockedVariableToken_symbol (h : isSqlIdentifierToken t = false)
    (hquote : t.head? ≠ some byteBacktick) : isBlockedVariableToken t = false := by
  rw [Bool.eq_false_iff]
  intro hblocked
  rcases (isNameStart_of_isBlockedVariableToken hblocked).1 with hword | hhead
  · exact Bool.false_ne_true (h.symm.trans hword)
  · exact hquote hhead

theorem isNameStart_of_scope (h : tokenIn t scopeKeywords = true) : IsNameStart t :=
  isNameStart_of_tokenIn h (by decide) (by decide)

/-! ### Option values are balanced -/

/-- A token the counter passes over. -/
def IsNeutral (t : Text) : Prop :=
  tokenEquals t "(" = false ∧ tokenEquals t ")" = false ∧ tokenEquals t "," = false

theorem isNeutral_of_head {b : UInt8} (h : t.head? = some b) (hb : b ≠ 0x28 ∧ b ≠ 0x29 ∧ b ≠ 0x2C) :
    IsNeutral t := by
  have key : ∀ {keyword : String} {c : UInt8}, ascii keyword = [c] →
      ¬(0x41 ≤ upperByte c ∧ upperByte c ≤ 0x5A) → b ≠ c → tokenEquals t keyword = false := by
    intro keyword c hk hc hbc
    rw [Bool.eq_false_iff, ne_eq, tokenEquals_symbol hk hc]
    rintro rfl
    exact hbc (Option.some.inj h).symm
  exact ⟨key (c := 0x28) (by decide) (by decide) hb.1,
    key (c := 0x29) (by decide) (by decide) hb.2.1,
    key (c := 0x2C) (by decide) (by decide) hb.2.2⟩

theorem isNeutral_of_isSqlIdentifierToken (h : isSqlIdentifierToken t = true) : IsNeutral t := by
  cases t with
  | nil => cases h
  | cons b t =>
    have hb : isSqlIdentifierChar b = true := h
    refine isNeutral_of_head (b := b) rfl ⟨?_, ?_, ?_⟩
    all_goals rintro rfl; exact absurd hb (by decide)

theorem isSegment_cons (h : IsNeutral t) (ts : List Text) : isSegment (t :: ts) = isSegment ts := by
  obtain ⟨h₁, h₂, h₃⟩ := h
  simp [isSegment, parenDepth, h₁, h₂, h₃]

theorem isNeutral_identName (name : IdentName) : IsNeutral name.token := by
  cases name with
  | plain word isWord => exact isNeutral_of_isSqlIdentifierToken isWord
  | quoted name => exact isNeutral_of_head (b := byteBacktick) rfl (by decide)

theorem isNeutral_sysvarName (name : SysvarName) : IsNeutral name.token := by
  cases name with
  | ident name => exact isNeutral_identName name
  | text quote isQuote body =>
    refine isNeutral_of_head (b := quote) rfl ?_
    rcases isQuote with rfl | rfl <;> decide

theorem isSegment_equal (equal : Equal) (value : SetValue) :
    isSegment (equal.tokens ++ value.1) = true := by
  have heq : IsNeutral equalToken := isNeutral_of_head (b := 0x3D) rfl (by decide)
  have hcolon : IsNeutral [0x3A] := isNeutral_of_head (b := 0x3A) rfl (by decide)
  cases equal with
  | eq => exact (isSegment_cons heq _).trans value.2
  | setVar => exact (isSegment_cons hcolon _).trans ((isSegment_cons heq _).trans value.2)

theorem isSegment_itemTokens (item : SetItem) : isSegment item.tokens = true := by
  have hat : IsNeutral atToken := isNeutral_of_head (b := 0x40) rfl (by decide)
  have hdot : IsNeutral dotToken := isNeutral_of_head (b := 0x2E) rfl (by decide)
  have hscope : ∀ scope : ScopeWord, IsNeutral scope.1 := fun scope =>
    isNeutral_of_isSqlIdentifierToken (isSqlIdentifierToken_of_tokenIn scope.2 (by decide))
  unfold SetItem.tokens
  split
  · rw [isSegment_cons (isNeutral_identName _)]; exact isSegment_equal _ _
  · rw [isSegment_cons (hscope _), isSegment_cons (isNeutral_identName _)]
    exact isSegment_equal _ _
  · rw [isSegment_cons hat, isSegment_cons hat, isSegment_cons (isNeutral_sysvarName _)]
    exact isSegment_equal _ _
  · rw [isSegment_cons hat, isSegment_cons hat, isSegment_cons (hscope _), isSegment_cons hdot,
      isSegment_cons (isNeutral_sysvarName _)]
    exact isSegment_equal _ _
  · assumption

theorem itemTokens_ne_nil (item : SetItem) : item.tokens ≠ [] := by
  unfold SetItem.tokens
  split
  · simp
  · simp
  · simp
  · simp
  · assumption

/-! ### Item starts of a statement -/

/-- The tokens of some option values, each with the comma behind it. -/
def itemsBefore (before : List SetItem) : List Text :=
  before.flatMap fun item => item.tokens ++ [commaToken]

theorem joinItems_append_comma (first : SetItem) (before : List SetItem) :
    joinItems first.tokens (before.map SetItem.tokens) ++ [commaToken] =
      itemsBefore (first :: before) := by
  induction before generalizing first with
  | nil => simp [joinItems, itemsBefore]
  | cons x before ih =>
    rw [map_cons, joinItems_cons, append_assoc, cons_append, ih]
    simp [itemsBefore]

/-- An option value of the statement with what stands on its two sides: the recogniser met no
    `FOR` in the option values before it, if it looks for one. -/
def ItemAt (d : SetStatement) (sf : Bool) (before : List SetItem) (item : SetItem) : Prop :=
  (∃ after, d.items = before ++ item :: after) ∧
    (sf = true → ∀ i ∈ before, hasTopFor 0 i.tokens = false)

/-- The starts of later option values, for the tokens behind the statement's leading words. -/
theorem endsItem_items_iff (d : SetStatement) {sf : Bool} (htrail : TrailOk sf d.trail)
    (hab : joinItems d.first.tokens (d.rest.map SetItem.tokens) ++ d.trail = a ++ b) :
    EndsItem sf a ↔ ∃ before item, before ≠ [] ∧ ItemAt d sf before item ∧
      a = itemsBefore before := by
  rw [endsItem_iff sf htrail _ _ a b (isSegment_itemTokens d.first)
    (by simpa using fun i _ => isSegment_itemTokens i) hab]
  constructor
  · rintro ⟨before, x, after, hsplit, rfl, hfor⟩
    obtain ⟨before, after', hrest, rfl, hafter⟩ := map_eq_append_iff.mp hsplit
    obtain ⟨item, after, rfl, rfl, rfl⟩ := map_eq_cons_iff.mp hafter
    refine ⟨d.first :: before, item, by simp, ⟨⟨after, ?_⟩, fun h i hi => ?_⟩, ?_⟩
    · rw [SetStatement.items, hrest, cons_append]
    · rcases mem_cons.mp hi with rfl | hi
      · exact hfor h _ (by simp)
      · exact hfor h _ (mem_cons_of_mem _ (mem_map_of_mem hi))
    · rw [joinItems_append_comma]
  · rintro ⟨before, item, hne, ⟨⟨after, hitems⟩, hfor⟩, rfl⟩
    obtain ⟨x, before, rfl⟩ := exists_cons_of_ne_nil hne
    obtain ⟨rfl, hrest⟩ : d.first = x ∧ d.rest = before ++ item :: after := by
      simpa [SetStatement.items] using hitems
    refine ⟨before.map SetItem.tokens, item.tokens, after.map SetItem.tokens, ?_, ?_, ?_⟩
    · rw [hrest]; simp
    · rw [joinItems_append_comma]
    · intro h ts hts
      rcases mem_cons.mp hts with rfl | hts
      · exact hfor h _ (by simp)
      · obtain ⟨i, hi, rfl⟩ := mem_map.mp hts
        exact hfor h _ (by simp [hi])

/-- The recogniser looks for `FOR` in this statement. -/
def looksForFor (d : SetStatement) : Bool := firstSetAssignmentTokenIndex d.tokens == 2

theorem firstSetAssignmentTokenIndex_cases (w : List Text) :
    firstSetAssignmentTokenIndex w = 1 ∨ firstSetAssignmentTokenIndex w = 2 ∧
      ∃ t u v rest, w = t :: u :: v :: rest ∧ tokenEquals u "STATEMENT" = true := by
  unfold firstSetAssignmentTokenIndex
  split_ifs with h
  · right
    simp only [Bool.and_eq_true, decide_eq_true_eq] at h
    obtain ⟨⟨hlen, hst⟩, -⟩ := h
    match w, hlen, hst with
    | t :: u :: v :: rest, _, hst => exact ⟨rfl, t, u, v, rest, rfl, hst⟩
  · exact .inl rfl

variable {d : SetStatement}

theorem firstSetAssignmentTokenIndex_statement {word : Text}
    {hword : tokenEquals word "STATEMENT" = true} {hfor : tokenEquals forWord "FOR" = true}
    {body : List Text} (hform : d.form = .statement word forWord hword hfor body) :
    firstSetAssignmentTokenIndex d.tokens = 2 := by
  obtain ⟨x, xs, hx⟩ := exists_cons_of_ne_nil (itemTokens_ne_nil d.first)
  have hok : FirstItemOk d.form d.first.tokens := d.first_ok
  have hne : tokenEquals x "=" = false := by
    rw [hform, hx] at hok
    rw [Bool.eq_false_iff, ne_eq, tokenEquals_equal]
    rintro rfl
    exact hok rfl
  obtain ⟨rest, hw⟩ : ∃ rest, d.tokens = d.set :: word :: x :: rest := by
    simp only [SetStatement.tokens, SetStatement.lead, hform, joinItems, hx, cons_append,
      nil_append]
    exact ⟨_, rfl⟩
  simp [firstSetAssignmentTokenIndex, hw, SqlPolicyTokens.value, hword, hne]

theorem trailOk (d : SetStatement) : TrailOk (looksForFor d) d.trail := by
  cases hform : d.form with
  | options => exact .inl (by rw [SetStatement.trail, hform])
  | statement word forWord hword hfor body =>
    refine .inr ⟨?_, forWord, body, by rw [SetStatement.trail, hform], hfor⟩
    rw [looksForFor, firstSetAssignmentTokenIndex_statement hform]; rfl

/-- Behind the leading words: the first option value, or one behind a comma. -/
theorem endsItem_or_nil_iff (d : SetStatement)
    (hab : joinItems d.first.tokens (d.rest.map SetItem.tokens) ++ d.trail = a ++ b) :
    (a = [] ∨ EndsItem (looksForFor d) a) ↔
      ∃ before item, ItemAt d (looksForFor d) before item ∧ a = itemsBefore before := by
  rw [endsItem_items_iff d (trailOk d) hab]
  constructor
  · rintro (rfl | ⟨before, item, -, hitem, rfl⟩)
    · exact ⟨[], d.first, ⟨⟨d.rest, rfl⟩, fun _ i hi => absurd hi not_mem_nil⟩, rfl⟩
    · exact ⟨before, item, hitem, rfl⟩
  · rintro ⟨before, item, hitem, rfl⟩
    rcases eq_nil_or_concat before with rfl | ⟨before', x, rfl⟩
    · exact .inl rfl
    · exact .inr ⟨_, item, by simp, hitem, rfl⟩

/-- The case in which the recogniser counts from the right token on. -/
theorem startsAfter_append {first : ℕ} {lead : List Text} (hlen : lead.length = first)
    (a : List Text) : StartsAfter first (lead ++ a) ↔ a = [] ∨ EndsItem (first == 2) a := by
  subst hlen
  unfold StartsAfter EndsItem
  rw [drop_left]
  rcases eq_nil_or_concat a with rfl | ⟨a', t, rfl⟩
  · simp
  · simp [List.getLast?_append]

theorem assignmentDepth_statement (h : tokenEquals t "STATEMENT" = true) (sf : Bool) (depth : ℕ)
    (ts : List Text) : assignmentDepth sf depth (t :: ts) = assignmentDepth sf depth ts := by
  have hk := tokenEquals_subst h
  have h₁ : tokenEquals (ascii "STATEMENT") "(" = false := by decide
  have h₂ : tokenEquals (ascii "STATEMENT") ")" = false := by decide
  have h₃ : tokenEquals (ascii "STATEMENT") "FOR" = false := by decide
  simp [assignmentDepth, hk, h₁, h₂, h₃]

theorem not_isNameStart_commaToken : ¬IsNameStart commaToken := by
  rintro ⟨h | h, -⟩ <;> exact absurd h (by decide)

variable {c : List Text}

/-- Behind a first word `STATEMENT` that is a name, no name begins. -/
theorem not_isNameStart_second (hform : d.form = .options) {s : Text}
    (hs : tokenEquals s "STATEMENT" = true)
    (hj : joinItems d.first.tokens (d.rest.map SetItem.tokens) ++ d.trail = [s] ++ t :: c) :
    ¬IsNameStart t := by
  have htrail : d.trail = [] := by rw [SetStatement.trail, hform]
  have hok : FirstItemOk d.form d.first.tokens := d.first_ok
  rw [hform] at hok
  rw [htrail, append_nil, joinItems] at hj
  obtain ⟨x, xs, hx⟩ := exists_cons_of_ne_nil (itemTokens_ne_nil d.first)
  rw [hx, cons_append] at hj
  obtain ⟨rfl, htail⟩ := List.cons.inj hj
  cases xs with
  | nil =>
    cases hrest : d.rest with
    | nil => simp [hrest] at htail
    | cons i rest =>
      simp only [hrest, map_cons, flatMap_cons, nil_append, cons_append]
        at htail
      obtain ⟨rfl, -⟩ := List.cons.inj htail
      exact not_isNameStart_commaToken
  | cons y ys =>
    obtain ⟨rfl, -⟩ := List.cons.inj htail
    obtain ⟨hword, hquote⟩ := hok x y ys hx hs
    rintro ⟨h | h, -⟩
    · rw [hword] at h; exact Bool.false_ne_true h
    · exact hquote h

/-- The recogniser's start positions, relative to the leading words. -/
theorem startsAfter_lead (d : SetStatement) (ht : IsNameStart t) (hw : d.tokens = a ++ t :: c) :
    StartsAfter (firstSetAssignmentTokenIndex d.tokens) a ↔
      ∃ a', a = d.lead ++ a' ∧ (a' = [] ∨ EndsItem (looksForFor d) a') := by
  have hset : d.set ≠ commaToken := by
    rintro h
    have := d.set_eq
    rw [h] at this
    exact absurd this (by decide)
  cases hform : d.form with
  | options =>
    have hlead : d.lead = [d.set] := by rw [SetStatement.lead, hform]
    cases a with
    | nil =>
      refine iff_of_false ?_ (by simp [hlead])
      rcases firstSetAssignmentTokenIndex_cases d.tokens with h | ⟨h, -⟩ <;>
        simp [StartsAfter, h]
    | cons x a =>
      have hw' := hw
      rw [SetStatement.tokens, hlead, singleton_append, cons_append] at hw'
      obtain ⟨rfl, hj⟩ := List.cons.inj hw'
      have hrhs : (∃ a', d.set :: a = d.lead ++ a' ∧ (a' = [] ∨ EndsItem (looksForFor d) a')) ↔
          a = [] ∨ EndsItem (looksForFor d) a := by
        rw [hlead]
        simp
      rw [hrhs]
      rcases firstSetAssignmentTokenIndex_cases d.tokens with h | ⟨h, x, u, v, rest, hxuv, hu⟩
      · rw [h, looksForFor, h, ← singleton_append]
        exact startsAfter_append rfl a
      · -- The statement begins with a name `STATEMENT`: the recogniser skips that token.
        rw [hxuv] at hw
        obtain ⟨-, huv⟩ := List.cons.inj hw
        have hlook : looksForFor d = true := by rw [looksForFor, h]; rfl
        rw [h, hlook]
        match a with
        | [] =>
          obtain ⟨rfl, -⟩ := List.cons.inj huv
          exact absurd hu (by rw [ht.2]; exact Bool.false_ne_true)
        | [y] =>
          obtain ⟨rfl, hv⟩ := List.cons.inj huv
          obtain ⟨rfl, -⟩ := List.cons.inj hv
          exact absurd ht (not_isNameStart_second hform hu hj)
        | y :: z :: a =>
          obtain ⟨rfl, -⟩ := List.cons.inj huv
          simp [StartsAfter, EndsItem, assignmentDepth_statement hu]
  | statement word forWord hword hfor body =>
    have hlead : d.lead = [d.set, word] := by rw [SetStatement.lead, hform]
    have hidx := firstSetAssignmentTokenIndex_statement hform
    have hsf : looksForFor d = true := by rw [looksForFor, hidx]; rfl
    rw [hidx, hlead, hsf]
    match a with
    | [] => simp [StartsAfter]
    | [x] =>
      have hx : x = d.set := by
        rw [SetStatement.tokens, hlead] at hw
        exact (List.cons.inj hw).1.symm
      simp [StartsAfter, hx, hset]
    | x :: y :: a =>
      obtain ⟨rfl, rfl⟩ : x = d.set ∧ y = word := by
        rw [SetStatement.tokens, hlead] at hw
        obtain ⟨hx, hw⟩ := List.cons.inj hw
        exact ⟨hx.symm, (List.cons.inj hw).1.symm⟩
      have happ : StartsAfter 2 ([d.set, y] ++ a) ↔ a = [] ∨ EndsItem true a :=
        startsAfter_append rfl a
      simpa using happ

/-- **Starts of option values.** In front of a name, the positions the recogniser takes for the
    start of an option value are the starts of option values. -/
theorem startsAfter_iff (d : SetStatement) (ht : IsNameStart t) (hw : d.tokens = a ++ t :: c) :
    StartsAfter (firstSetAssignmentTokenIndex d.tokens) a ↔
      ∃ before item, ItemAt d (looksForFor d) before item ∧ a = d.lead ++ itemsBefore before := by
  rw [startsAfter_lead d ht hw]
  have hsplit : ∀ a', a = d.lead ++ a' →
      joinItems d.first.tokens (d.rest.map SetItem.tokens) ++ d.trail = a' ++ t :: c := by
    rintro a' rfl
    rw [SetStatement.tokens, append_assoc] at hw
    exact append_cancel_left hw
  constructor
  · rintro ⟨a', ha, h⟩
    obtain ⟨before, item, hitem, rfl⟩ := (endsItem_or_nil_iff d (hsplit a' ha)).mp h
    exact ⟨before, item, hitem, ha⟩
  · rintro ⟨before, item, hitem, ha⟩
    exact ⟨_, ha, (endsItem_or_nil_iff d (hsplit _ ha)).mpr ⟨before, item, hitem, rfl⟩⟩

/-! ### Visible assignments -/

variable {item : SetItem}

/-- The tokens begin with a blocked name and `=`, with or without a scope word in front. -/
def startsAssigned : List Text → Bool
  | n :: e :: rest =>
    isBlockedVariableToken n && e == equalToken ||
      tokenIn n scopeKeywords && isBlockedVariableToken e && rest.head? == some equalToken
  | _ => false

/-- Some option value begins, within the first 32 tokens, with the blocked name as one token the
    rules know and a plain `=`, and no `FOR` hides it. -/
def VisiblyAssigns (d : SetStatement) : Prop :=
  ∃ before item, ItemAt d (looksForFor d) before item ∧
    startsAssigned (item.tokens.take
      (policyTokenLimit - (d.lead ++ itemsBefore before).length)) = true

/-- Somewhere in the first 32 tokens `@@name =` or `@@scope.name =` is read, with a blocked name:
    as the target of an assignment, or in a comparison. -/
def ReadsSystemVariable (tokens : List Text) : Prop :=
  ∃ a n b, tokens = a ++ n :: equalToken :: b ∧ a.length + 2 ≤ policyTokenLimit ∧
    isBlockedVariableToken n = true ∧
    ((∃ a', a = a' ++ [atToken, atToken]) ∨
      ∃ a' scope, a = a' ++ [atToken, atToken, scope, dotToken] ∧
        tokenIn scope scopeKeywords = true)

variable {before : List SetItem}

/-- The tokens of a statement around one of its option values. -/
theorem tokens_eq_of_items {after : List SetItem} (h : d.items = before ++ item :: after) :
    d.tokens = d.lead ++ itemsBefore before ++ (item.tokens ++
      ((after.map SetItem.tokens).flatMap (fun ts => commaToken :: ts) ++ d.trail)) := by
  have hjoin : joinItems d.first.tokens (d.rest.map SetItem.tokens) =
      itemsBefore before ++ (item.tokens ++
        (after.map SetItem.tokens).flatMap fun ts => commaToken :: ts) := by
    cases before with
    | nil =>
      obtain ⟨rfl, hrest⟩ := List.cons.inj h
      rw [hrest]; rfl
    | cons x before =>
      obtain ⟨rfl, hrest⟩ := List.cons.inj h
      rw [hrest, ← joinItems_append_comma]
      simp [joinItems]
  rw [SetStatement.tokens, hjoin]
  simp

/-- What stands behind an option value: nothing, a comma or `FOR`. -/
theorem tokens_eq_of_itemAt {sf : Bool} (h : ItemAt d sf before item) :
    ∃ r, d.tokens = d.lead ++ itemsBefore before ++ (item.tokens ++ r) ∧
      ∀ t, r.head? = some t → t ≠ equalToken ∧ isBlockedVariableToken t = false := by
  obtain ⟨⟨after, hitems⟩, -⟩ := h
  refine ⟨_, tokens_eq_of_items hitems, ?_⟩
  intro t ht
  cases after with
  | cons i after =>
    obtain rfl : commaToken = t := by simpa using ht
    exact ⟨by decide, not_isBlockedVariableToken_symbol (by decide) (by decide)⟩
  | nil =>
    rcases trailOk d with htrail | ⟨-, forWord, body, htrail, hfor⟩
    · rw [htrail] at ht; cases ht
    · rw [htrail] at ht
      obtain rfl : forWord = t := by simpa using ht
      refine ⟨?_, not_isBlockedVariableToken_word (by decide) hfor⟩
      rintro rfl
      exact absurd hfor (by decide)

theorem startsAssigned_take_iff {k : ℕ} :
    startsAssigned (ts.take k) = true ↔
      (∃ n v, ts = n :: equalToken :: v ∧ 2 ≤ k ∧ isBlockedVariableToken n = true) ∨
      ∃ s n v, ts = s :: n :: equalToken :: v ∧ 3 ≤ k ∧ tokenIn s scopeKeywords = true ∧
        isBlockedVariableToken n = true := by
  match ts, k with
  | [], k | t :: ts, 0 | [t], k + 1 | t :: u :: ts, 1 => simp [startsAssigned]
  | t :: u :: ts, k + 2 =>
    have hhead : (ts.take k).head? = some equalToken ↔ 3 ≤ k + 2 ∧ ∃ v, ts = equalToken :: v := by
      cases k <;> cases ts <;> simp
    simp only [take_succ_cons, startsAssigned, Bool.or_eq_true, Bool.and_eq_true, beq_iff_eq,
      hhead]
    constructor
    · rintro (⟨hn, rfl⟩ | ⟨⟨hs, hn⟩, hk, v, rfl⟩)
      · exact .inl ⟨t, ts, rfl, by omega, hn⟩
      · exact .inr ⟨t, u, v, rfl, hk, hs, hn⟩
    · rintro (⟨n, v, heq, -, hn⟩ | ⟨s, n, v, heq, hk, hs, hn⟩)
      · simp only [List.cons.injEq] at heq
        obtain ⟨rfl, rfl, rfl⟩ := heq
        exact .inl ⟨hn, rfl⟩
      · simp only [List.cons.injEq] at heq
        obtain ⟨rfl, rfl, rfl⟩ := heq
        exact .inr ⟨⟨hs, hn⟩, hk, v, rfl⟩

theorem isNameStart_of_startsAssigned {k : ℕ} (h : startsAssigned (ts.take k) = true) :
    ∃ t c, ts = t :: c ∧ IsNameStart t := by
  rcases startsAssigned_take_iff.mp h with ⟨n, v, rfl, -, hn⟩ | ⟨s, n, v, rfl, -, hs, -⟩
  · exact ⟨n, _, rfl, isNameStart_of_isBlockedVariableToken hn⟩
  · exact ⟨s, _, rfl, isNameStart_of_scope hs⟩

/-- Neither the name nor the sign is the token behind an option value. -/
theorem startsAssigned_append {k : ℕ} {r : List Text} (hne : ts ≠ [])
    (hr : ∀ t, r.head? = some t → t ≠ equalToken ∧ isBlockedVariableToken t = false) :
    startsAssigned ((ts ++ r).take k) = startsAssigned (ts.take k) := by
  cases r with
  | nil => rw [append_nil]
  | cons x r =>
    obtain ⟨hsign, hname⟩ := hr x rfl
    match ts, k with
    | t :: ts, 0 | [t], 1 | t :: u :: ts, 1 | t :: u :: ts, 2 | t :: u :: v :: ts, k + 3 => rfl
    | [t], k + 2 => simp [startsAssigned, hsign, hname]
    | [t, u], k + 3 => simp [startsAssigned, hsign]

/-- An option value is visibly assigned exactly when a blocked name, with or without a scope word,
    starts it inside the window. -/
theorem visiblyAssigns_iff (d : SetStatement) :
    VisiblyAssigns d ↔ ∃ a b, d.tokens = a ++ b ∧
      startsAssigned (b.take (policyTokenLimit - a.length)) = true ∧
      StartsAfter (firstSetAssignmentTokenIndex d.tokens) a := by
  constructor
  · rintro ⟨before, item, hitem, hstart⟩
    obtain ⟨r, htok, hr⟩ := tokens_eq_of_itemAt hitem
    obtain ⟨t, c, hts, hname⟩ := isNameStart_of_startsAssigned hstart
    refine ⟨_, _, htok, by rwa [startsAssigned_append (itemTokens_ne_nil item) hr], ?_⟩
    rw [hts, cons_append] at htok
    exact (startsAfter_iff d hname htok).mpr ⟨before, item, hitem, rfl⟩
  · rintro ⟨a, b, hw, hstart, hafter⟩
    obtain ⟨t, c, rfl, hname⟩ := isNameStart_of_startsAssigned hstart
    obtain ⟨before, item, hitem, rfl⟩ := (startsAfter_iff d hname hw).mp hafter
    obtain ⟨r, htok, hr⟩ := tokens_eq_of_itemAt hitem
    rw [← append_cancel_left (htok.symm.trans hw),
      startsAssigned_append (itemTokens_ne_nil item) hr] at hstart
    exact ⟨before, item, hitem, hstart⟩

/-! ### The gate on `SET` statements -/

theorem identifierTokenAt_tokens_take (d : SetStatement) :
    identifierTokenAt (d.tokens.take policyTokenLimit) 0 = d.set := by
  have hword : isSqlIdentifierToken d.set = true := by
    rw [isSqlIdentifierToken_congr (tokenEquals_iff.mp d.set_eq)]; decide
  obtain ⟨rest, hrest⟩ : ∃ rest, d.tokens = d.set :: rest := by
    unfold SetStatement.tokens SetStatement.lead
    split <;> exact ⟨_, rfl⟩
  rw [hrest, policyTokenLimit, take_succ_cons, identifierTokenAt_cons_zero hword]

/-- The assignment rules on a derivation. -/
theorem setAssigns_tokens_iff (d : SetStatement) :
    setAssigns isBlockedVariableToken (d.tokens.take policyTokenLimit) = true ↔
      VisiblyAssigns d ∨ ReadsSystemVariable d.tokens := by
  have hset : tokenEquals (identifierTokenAt (d.tokens.take policyTokenLimit) 0) "SET" = true := by
    rw [identifierTokenAt_tokens_take]; exact d.set_eq
  rw [setAssigns_take_iff hset, visiblyAssigns_iff]
  simp only [startsAssigned_take_iff]
  constructor
  · rintro ⟨a, n, b, hw, hlen, -, hn, hq⟩
    rcases hq with hq | ⟨a, s, rfl, hs, hq⟩ | hq | hq
    · exact .inl ⟨a, _, hw, .inl ⟨n, b, rfl, by omega, hn⟩, hq⟩
    · rw [append_assoc, singleton_append] at hw
      rw [length_append, length_singleton] at hlen
      exact .inl ⟨a, _, hw, .inr ⟨s, n, b, rfl, by omega, hs, hn⟩, hq⟩
    · exact .inr ⟨a, n, b, hw, hlen, hn, .inl hq⟩
    · exact .inr ⟨a, n, b, hw, hlen, hn, .inr hq⟩
  · rintro (⟨a, _, hw, ⟨n, b, rfl, hlen, hn⟩ | ⟨s, n, b, rfl, hlen, hs, hn⟩, hq⟩ |
      ⟨a, n, b, hw, hlen, hn, hq⟩)
    · exact ⟨a, n, b, hw, by omega, ne_nil_of_startsAfter hq, hn, .inl hq⟩
    · refine ⟨a ++ [s], n, b, by simpa using hw, ?_, by simp, hn, .inr (.inl ⟨a, s, rfl, hs, hq⟩)⟩
      rw [length_append, length_singleton]; omega
    · refine ⟨a, n, b, hw, hlen, ?_, hn, .inr (.inr hq)⟩
      rintro rfl
      rcases hq with ⟨a', h⟩ | ⟨a', s, h, -⟩ <;> simpa using congrArg List.length h

/-- **`SET` gate.** The gate rejects a `SET` statement exactly when a blocked variable is assigned
    visibly, when `@@name =` is read somewhere in the window, or when a rule about something else
    fires: `sql_mode` set to `ORACLE`, or neighbouring tokens in a value. -/
theorem rejects_setStatement_eq (currentSchema sql : Text) (d : SetStatement)
    (h : sqlTokens sql = d.tokens) :
    rejects currentSchema sql = true ↔
      VisiblyAssigns d ∨ ReadsSystemVariable d.tokens ∨
        isUnsupportedOracleSqlModeStatement (d.tokens.take policyTokenLimit) = true ∨
        neighbourRule currentSchema (d.tokens.take policyTokenLimit) = true := by
  have hset : tokenIn d.set ["SET"] = true := by
    rw [tokenIn_cons, d.set_eq, Bool.true_or]
  have hlead : leadingRule (d.tokens.take policyTokenLimit) = false := by
    refine leadingRule_eq_false ?_
    rw [identifierTokenAt_tokens_take]
    exact tokenIn_eq_false hset (by decide)
  rw [rejects_eq, h, rejectsTokens_eq, hlead, Bool.false_or, setRule, Bool.or_eq_true,
    Bool.or_eq_true, setAssigns_tokens_iff]
  tauto

/-! ### Targets -/

/-- The system variables the policy means to keep from being assigned. -/
def isBlockedVariable (name : Text) : Bool :=
  tokenIn name (["USERSTAT"] ++ profilingVariables ++ queryLogVariables ++
    optimizerTraceVariables ++ persistentStatisticsVariables ++ serverVariables)

/-- Some option value of the statement assigns a blocked variable. -/
def TargetsBlocked (d : SetStatement) : Prop :=
  ∃ item ∈ d.items, ∃ name, item.target = some name ∧ isBlockedVariable name = true

theorem tokenEquals_set : tokenEquals (ascii "SET") "SET" = true := by
  decide

theorem isSegment_one : isSegment [ascii "1"] = true := by
  decide

/-- `SET` with one option value, which does not begin with `STATEMENT`. -/
def setOption (item : SetItem) {first : Text} {rest : List Text}
    (hitem : item.tokens = first :: rest) (hfirst : tokenEquals first "STATEMENT" = false) :
    SetStatement where
  set := ascii "SET"
  set_eq := tokenEquals_set
  form := .options
  first := item
  rest := []
  first_ok := by
    intro s t rest h hs
    obtain ⟨rfl, -⟩ := List.cons.inj (hitem.symm.trans h)
    cases hfirst.symm.trans hs

/-- `SET GLOBAL general_log` with the given assignment sign and the value `1`. -/
def setGeneralLog (equal : Equal) : SetStatement :=
  setOption (.scoped ⟨ascii "GLOBAL", by decide⟩ (.plain (ascii "general_log") (by decide)) equal
    ⟨[ascii "1"], isSegment_one⟩) rfl (by decide)

theorem targetsBlocked_setGeneralLog (equal : Equal) : TargetsBlocked (setGeneralLog equal) :=
  ⟨_, mem_cons_self, ascii "general_log", rfl, by decide⟩

end MyLite.Policy

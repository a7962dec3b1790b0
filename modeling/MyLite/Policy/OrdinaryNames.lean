import MyLite.MariaDB.ApplicationGrammar
import MyLite.Policy.Collisions

namespace MyLite.Policy

open MyLite.Lib MyLite.Sql MyLite.MariaDB List

/-!
# The names of an application

The gate on `CREATE TABLE`, `INSERT`, `SELECT` and `CREATE DEFINER = user VIEW` or `PROCEDURE`
with any names.  No leading-word rule but the one on events is left for such a statement, and the
rules on neighbouring tokens do not know a name from a function or a keyword.

* `Hit` — what makes the gate reject such a statement.
* `rejects_iff_hit` — the gate rejects a text of the statement exactly then.
* `accepts_of_ordinary` — names without a word of the rules in them are accepted.
-/

/-! ### Reading a text part by part -/

variable {slot : Slot} {keyword : String} {k : Keyword}

theorem sqlTokens_blanks {gap : Text} (h : gap.all isSqlSpace = true) (t : Text) :
    sqlTokens (gap ++ t) = sqlTokens t := by
  induction gap with
  | nil => rfl
  | cons b gap ih =>
    rw [all_cons, Bool.and_eq_true] at h
    rw [cons_append, sqlTokens_congr (skipSqlSpacingAndComments_space h.1 _), ih h.2]

/-- No word goes on at the head of the text. -/
def EndsWord (t : Text) : Prop := ∀ b ∈ t.head?, isSqlIdentifierChar b = false

/-- The tokenizer reads `bytes` as `tokens`, wherever no word goes on behind them. -/
def Reads (bytes : Text) (tokens : List Text) : Prop :=
  ∀ t, EndsWord t → sqlTokens (bytes ++ t) = tokens ++ sqlTokens t

variable {word : Text}

theorem reads_word (hne : word ≠ []) (hword : ∀ b ∈ word, isSqlIdentifierChar b = true) :
    Reads word [word] :=
  fun _ ht => sqlTokens_word hne hword ht

/-- A symbol is a token of its own, whatever follows. -/
theorem sqlTokens_symbol (s : Symbol) (t : Text) :
    sqlTokens (s.byte :: t) = [s.byte] :: sqlTokens t := by
  refine sqlTokens_cons (s := []) ?_ ?_
  · cases s <;> decide
  · cases s <;> rfl

variable {rest : List Slot}

/-- Every part but a symbol ends where a blank or a symbol follows. -/
theorem endsWord_slots (h : WellSpaced (slot :: rest)) (hpart : slot.part.isSymbol = false) :
    EndsWord (slot.gap ++ slotsText rest) := by
  cases hgap : slot.gap with
  | cons b gap =>
    have hblank := slot.isBlank
    rw [hgap, all_cons, Bool.and_eq_true] at hblank
    rintro c ⟨⟩
    exact not_isSqlIdentifierChar_of_isSqlSpace b hblank.1
  | nil =>
    cases rest with
    | nil => rintro c ⟨⟩
    | cons next rest =>
      have hnext := (h.1 hgap).resolve_left (by rw [hpart]; exact Bool.false_ne_true)
      have hspelled := next.spelled
      cases hsymbol : next.part with
      | symbol s =>
        rw [hsymbol] at hspelled
        have hhead : (slotsText (next :: rest)).head? = some s.byte := by
          rw [slotsText, flatMap_cons, show next.text = [s.byte] from hspelled]
          rfl
        intro c hc
        rw [nil_append, hhead] at hc
        cases hc
        cases s <;> decide
      | keyword | type | number | text | name =>
        rw [hsymbol] at hnext
        cases hnext

/-- **Reading.** A text is read part by part. -/
theorem sqlTokens_slots {tokens : List Text} (h : WellSpaced (slot :: rest))
    (hreads : Reads slot.text tokens) :
    sqlTokens (slotsText (slot :: rest)) = tokens ++ sqlTokens (slotsText rest) := by
  have htext : slotsText (slot :: rest) = slot.text ++ (slot.gap ++ slotsText rest) := by
    rw [slotsText, flatMap_cons, append_assoc]
    rfl
  rw [htext]
  cases hpart : slot.part with
  | symbol s =>
    have hspelled := slot.spelled
    rw [hpart] at hspelled
    have hbyte : slot.text = [s.byte] := hspelled
    have htokens : [[s.byte]] = tokens := by
      have hnil : sqlTokens [] = [] := by decide
      have hend := hreads [] (by rintro b ⟨⟩)
      rw [hbyte] at hend
      simpa [sqlTokens_symbol, hnil] using hend
    rw [hbyte, ← htokens, singleton_append, sqlTokens_symbol, sqlTokens_blanks slot.isBlank]
    rfl
  | keyword | type | number | text | name =>
    have hends : EndsWord (slot.gap ++ slotsText rest) :=
      endsWord_slots h (by rw [hpart]; rfl)
    rw [hreads _ hends, sqlTokens_blanks slot.isBlank]

variable {bytes : Text}

theorem reads_keyword (h : tokenEquals bytes keyword = true) (hne : ascii keyword ≠ [])
    (hk : (fold (ascii keyword)).all isSqlIdentifierChar = true) : Reads bytes [bytes] := by
  refine reads_word ?_ (isSqlIdentifierChar_of_tokenEquals h hk)
  rintro rfl
  rw [tokenEquals_nil hne] at h
  exact Bool.false_ne_true h

theorem isWord_keyword (k : Keyword) : ascii k.string ≠ [] ∧
    (fold (ascii k.string)).all isSqlIdentifierChar = true := by
  cases k <;> decide

theorem wellSpaced_tail (h : WellSpaced (slot :: rest)) : WellSpaced rest := by
  cases rest with
  | nil => trivial
  | cons next rest => exact h.2

/-- A text that begins with a keyword. -/
theorem sqlTokens_slots_keyword {slots : List Slot} {more : List (Lexeme DatabaseName)}
    (h : WellSpaced slots) (hparts : slots.map Slot.part = .keyword k :: more) :
    ∃ w rest, tokenEquals w k.string = true ∧ WellSpaced rest ∧ rest.map Slot.part = more ∧
      sqlTokens (slotsText slots) = w :: sqlTokens (slotsText rest) := by
  obtain ⟨slot, rest, rfl, hpart, hrest⟩ := map_eq_cons_iff.mp hparts
  have hspelled := slot.spelled
  rw [hpart] at hspelled
  exact ⟨slot.text, rest, hspelled, wellSpaced_tail h, hrest,
    sqlTokens_slots h (reads_keyword hspelled (isWord_keyword k).1 (isWord_keyword k).2)⟩

/-! ### The leading words of a statement -/

variable {s : ApplicationStatement DatabaseName}

variable {tokens : SqlPolicyTokens} {w : Text} (sp : Spelling s)

variable {more : List (Lexeme DatabaseName)} {w' : Text}

theorem opens_one (hs : s.parts = .keyword k :: more) :
    ∃ w rest, tokenEquals w k.string = true ∧ sqlTokens sp.text = w :: rest := by
  obtain ⟨w, rest, hw, -, -, htokens⟩ :=
    sqlTokens_slots_keyword sp.wellSpaced (sp.parts_eq.trans hs)
  exact ⟨w, _, hw, htokens⟩

theorem opens_two {k' : Keyword} (hs : s.parts = .keyword k :: .keyword k' :: more) :
    ∃ w w' rest, tokenEquals w k.string = true ∧ tokenEquals w' k'.string = true ∧
      sqlTokens sp.text = w :: w' :: rest := by
  obtain ⟨w, rest, hw, hspaced, hparts, htokens⟩ :=
    sqlTokens_slots_keyword sp.wellSpaced (sp.parts_eq.trans hs)
  obtain ⟨w', rest', hw', -, -, htokens'⟩ := sqlTokens_slots_keyword hspaced hparts
  exact ⟨w, w', _, hw, hw', htokens.trans (congrArg _ htokens')⟩

section

variable (h : tokenEquals (identifierTokenAt tokens 0) "CREATE" = true)

include h

/-- Behind `CREATE` only the rules on accounts, events and loadable functions are left. -/
theorem leadingRule_of_create :
    leadingRule tokens =
      (isUnsupportedAccountOrEventStatement tokens || isUnsupportedUdfStatement tokens) := by
  have hk := tokenEquals_subst h
  rw [Bool.eq_iff_iff]
  simp +decide [leadingRule, isUnsupportedBinlogStatement, hk, tokenIn_cons, tokenIn_nil]

theorem leadingRule_createTable (h' : tokenEquals (identifierTokenAt tokens 1) "TABLE" = true) :
    leadingRule tokens = false := by
  have hk := tokenEquals_subst h
  have hk' := tokenEquals_subst h'
  rw [leadingRule_of_create h]
  simp +decide [isUnsupportedAccountOrEventStatement, isUnsupportedUdfStatement, hk, hk',
    tokenIn_cons, tokenIn_nil]

theorem leadingRule_createDefiner (h' : tokenEquals (identifierTokenAt tokens 1) "DEFINER" = true) :
    leadingRule tokens = hasIdentifierToken tokens "EVENT" 2 := by
  have hk := tokenEquals_subst h
  have hk' := tokenEquals_subst h'
  rw [leadingRule_of_create h]
  simp +decide [isUnsupportedAccountOrEventStatement, isUnsupportedUdfStatement, hk, hk',
    tokenIn_cons, tokenIn_nil]

end

/-- Behind two words of a statement that are not `EVENT`, the word is looked for everywhere. -/
theorem hasIdentifierToken_event_iff {rest : List Text} (hw : tokenEquals w "CREATE" = true)
    (hw' : tokenEquals w' "DEFINER" = true) :
    hasIdentifierToken (w :: w' :: rest) "EVENT" 2 = true ↔
      ∃ t ∈ w :: w' :: rest, tokenEquals t "EVENT" = true := by
  have hid : ∀ {t : Text} {keyword : String}, tokenEquals t keyword = true →
      isSqlIdentifierToken (ascii keyword) = true → isSqlIdentifierToken t = true := by
    intro t keyword ht hk
    rw [isSqlIdentifierToken_congr (tokenEquals_iff.mp ht)]
    exact hk
  have hwords : identifierTokens (w :: w' :: rest) = w :: w' :: identifierTokens rest := by
    simp [identifierTokens, hid hw (by decide), hid hw' (by decide)]
  have hfirst : tokenEquals w "EVENT" = false :=
    (tokenEquals_subst hw _).trans (by decide)
  have hsecond : tokenEquals w' "EVENT" = false :=
    (tokenEquals_subst hw' _).trans (by decide)
  rw [hasIdentifierToken, hwords, drop_succ_cons, drop_succ_cons, drop_zero,
    any_eq_true]
  constructor
  · rintro ⟨t, ht, hevent⟩
    exact ⟨t, mem_cons_of_mem _ (mem_cons_of_mem _ (mem_filter.mp ht).1), hevent⟩
  · rintro ⟨t, ht, hevent⟩
    simp only [mem_cons] at ht
    rcases ht with rfl | rfl | ht
    · cases hfirst.symm.trans hevent
    · cases hsecond.symm.trans hevent
    · exact ⟨t, mem_filter.mpr ⟨ht, hid hevent (by decide)⟩, hevent⟩

/-! ### The decision -/

/-- What makes the gate reject a statement of an application, by its collected tokens: neighbours
    that a rule knows, or the word `EVENT` anywhere behind `DEFINER`. -/
inductive Hit (currentSchema : Text) (definer : Bool) (tokens : List Text) : Prop
  | neighbours (h : Collides currentSchema tokens)
  | query (h : QueryCollides tokens)
  | event (hdefiner : definer = true) (h : ∃ t ∈ tokens, tokenEquals t "EVENT" = true)

section

variable (hw : tokenEquals w keyword = true)

include hw

section

variable (hk : isSqlIdentifierToken (ascii keyword) = true)

include hk

/-- The first word of a text, if it begins with it. -/
theorem identifierTokenAt_take_word (rest : List Text) :
    identifierTokenAt ((w :: rest).take policyTokenLimit) 0 = w := by
  rw [policyTokenLimit, take_succ_cons]
  exact identifierTokenAt_cons_zero
    ((isSqlIdentifierToken_congr (tokenEquals_iff.mp hw)).trans hk) _

theorem identifierTokenAt_take_second {keyword' : String} (hw' : tokenEquals w' keyword' = true)
    (hk' : isSqlIdentifierToken (ascii keyword') = true) (rest : List Text) :
    identifierTokenAt ((w :: w' :: rest).take policyTokenLimit) 1 = w' := by
  rw [policyTokenLimit, take_succ_cons, take_succ_cons,
    identifierTokenAt_cons_succ ((isSqlIdentifierToken_congr (tokenEquals_iff.mp hw)).trans hk)]
  exact identifierTokenAt_cons_zero
    ((isSqlIdentifierToken_congr (tokenEquals_iff.mp hw')).trans hk') _

/-- The decision on a statement whose first word is not `SET`, if the leading-word rules know at
    most the word `EVENT` in it. -/
theorem rejectsTokens_iff_hit {rest : List Text} {definer : Bool}
    (hset : tokenEquals (ascii keyword) "SET" = false)
    (hlead : leadingRule ((w :: rest).take policyTokenLimit) = true ↔
      definer = true ∧ ∃ t ∈ (w :: rest).take policyTokenLimit, tokenEquals t "EVENT" = true)
    (currentSchema : Text) :
    rejectsTokens currentSchema ((w :: rest).take policyTokenLimit) = true ↔
      Hit currentSchema definer ((w :: rest).take policyTokenLimit) := by
  have hfirst := identifierTokenAt_take_word hw hk rest
  have hword : (identifierTokenAt ((w :: rest).take policyTokenLimit) 0).isEmpty = false := by
    rw [hfirst]
    cases w with
    | nil =>
      exact absurd ((isSqlIdentifierToken_congr (tokenEquals_iff.mp hw)).trans hk) (by decide)
    | cons => rfl
  have hset' : tokenEquals (identifierTokenAt ((w :: rest).take policyTokenLimit) 0) "SET" =
      false := by
    rw [hfirst, tokenEquals_subst hw]
    exact hset
  rw [rejectsTokens_eq, setRule_eq_false hset', Bool.or_false, Bool.or_eq_true, hlead,
    neighbourRule_iff_collides hword]
  constructor
  · rintro (⟨hdefiner, hevent⟩ | hneighbours | hquery)
    · exact .event hdefiner hevent
    · exact .neighbours hneighbours
    · exact .query hquery
  · rintro (hneighbours | hquery | ⟨hdefiner, hevent⟩)
    · exact .inr (.inl hneighbours)
    · exact .inr (.inr hquery)
    · exact .inl ⟨hdefiner, hevent⟩

/-- A statement that begins with `INSERT` or `SELECT`: no leading-word rule knows the word. -/
theorem rejectsTokens_rows {rest : List Text} (hset : tokenEquals (ascii keyword) "SET" = false)
    (hfree : tokenIn (ascii keyword) leadingWords = false) (currentSchema : Text) :
    rejectsTokens currentSchema ((w :: rest).take policyTokenLimit) = true ↔
      Hit currentSchema false ((w :: rest).take policyTokenLimit) := by
  refine rejectsTokens_iff_hit hw hk hset ?_ currentSchema
  rw [← tokenIn_congr (tokenEquals_iff.mp hw)] at hfree
  rw [leadingRule_eq_false (by rw [identifierTokenAt_take_word hw hk]; exact hfree)]
  simp

end

end

variable {sql : Text}

/-- **Decision.** The gate rejects a text of the statement exactly when the statement has a hit
    among the collected tokens. -/
theorem rejects_iff_hit (h : sqlTokens sql = sqlTokens sp.text) (currentSchema : Text) :
    rejects currentSchema sql = true ↔
      Hit currentSchema s.hasDefiner ((sqlTokens sql).take policyTokenLimit) := by
  rw [rejects_eq, h]
  -- `CREATE DEFINER`, for the two statements that have the clause.
  have hdefined : ∀ {more}, s.parts = .keyword .create :: .keyword .definer :: more →
      (rejectsTokens currentSchema ((sqlTokens sp.text).take policyTokenLimit) = true ↔
        Hit currentSchema true ((sqlTokens sp.text).take policyTokenLimit)) := by
    intro more hparts
    obtain ⟨w, w', rest, hw, hw', htokens⟩ := opens_two sp hparts
    have hfirst := identifierTokenAt_take_word hw (by decide) (w' :: rest)
    have hsecond := identifierTokenAt_take_second hw (by decide) hw' (by decide) rest
    rw [htokens]
    refine rejectsTokens_iff_hit hw (by decide) (by decide) ?_ currentSchema
    rw [leadingRule_createDefiner (by rw [hfirst]; exact hw) (by rw [hsecond]; exact hw'),
      policyTokenLimit, take_succ_cons, take_succ_cons,
      hasIdentifierToken_event_iff hw hw']
    exact (and_iff_right rfl).symm
  cases s with
  | createTable table columns =>
    obtain ⟨w, w', rest, hw, hw', htokens⟩ := opens_two sp rfl
    have hfirst := identifierTokenAt_take_word hw (by decide) (w' :: rest)
    have hsecond := identifierTokenAt_take_second hw (by decide) hw' (by decide) rest
    rw [htokens]
    refine rejectsTokens_iff_hit hw (by decide) (by decide) ?_ currentSchema
    rw [leadingRule_createTable (by rw [hfirst]; exact hw) (by rw [hsecond]; exact hw')]
    simp [ApplicationStatement.hasDefiner]
  | rows statement =>
    cases statement with
    | insert i | select q =>
      obtain ⟨w, rest, hw, htokens⟩ := opens_one sp rfl
      rw [htokens]
      exact rejectsTokens_rows hw (by decide) (by decide) (by decide) currentSchema
  | createView definer view columns query => exact hdefined rfl
  | createProcedure definer procedure params body => exact hdefined rfl

/-! ### Words of the rules -/

/-- The names the rules look for, plain or in backticks. -/
def ruleNames : List String :=
  blockedFunctions ++ (blockedInformationSchemaTables ++ ["VECTOR", "INFORMATION_SCHEMA"])

/-- The words they look for as such. -/
def ruleWords : List String := ["EVENT", "ANALYSE", "OUTFILE", "DUMPFILE"]

/-- The token is one of them. -/
def isRuleWord (token : Text) : Bool :=
  ruleNames.any (identifierTokenEquals token) || tokenIn token ruleWords

variable {t : Text}

theorem isRuleWord_congr {u : Text} (h : fold t = fold u) : isRuleWord t = isRuleWord u := by
  have hnames : identifierTokenEquals t = identifierTokenEquals u :=
    funext (identifierTokenEquals_congr h)
  rw [isRuleWord, isRuleWord, hnames, tokenIn_congr h]

/-- Every hit has a word of the rules in it. -/
theorem not_hit_of_forall {tokens : List Text} (h : ∀ t ∈ tokens, isRuleWord t = false)
    (currentSchema : Text) (definer : Bool) : ¬Hit currentSchema definer tokens := by
  have hname : ∀ {t name}, t ∈ tokens → name ∈ ruleNames → identifierTokenEquals t name ≠ true := by
    intro t name ht hmem hequals
    have hany : ruleNames.any (identifierTokenEquals t) = true :=
      any_eq_true.mpr ⟨name, hmem, hequals⟩
    have hfree := h t ht
    rw [isRuleWord, hany, Bool.true_or] at hfree
    exact Bool.false_ne_true hfree.symm
  have hword : ∀ {t name}, t ∈ tokens → name ∈ ruleWords → tokenEquals t name ≠ true := by
    intro t name ht hmem hequals
    have hin : tokenIn t ruleWords = true := any_eq_true.mpr ⟨name, hmem, hequals⟩
    have hfree := h t ht
    rw [isRuleWord, hin, Bool.or_true] at hfree
    exact Bool.false_ne_true hfree.symm
  have hfunction : ∀ {t}, t ∈ tokens → isBlockedFunction t ≠ true := by
    intro t ht hblocked
    obtain ⟨name, hmem, hequals⟩ := any_eq_true.mp hblocked
    exact hname ht (mem_append_left _ hmem) hequals
  have htable : ∀ {t}, t ∈ tokens → isBlockedTable t ≠ true := by
    intro t ht hblocked
    obtain ⟨name, hmem, hequals⟩ := any_eq_true.mp hblocked
    exact hname ht (mem_append_right _ (mem_append_left _ hmem)) hequals
  have hvector : "VECTOR" ∈ ruleNames :=
    mem_append_right _ (mem_append_right _ (by decide))
  have hschema : "INFORMATION_SCHEMA" ∈ ruleNames :=
    mem_append_right _ (mem_append_right _ (by decide))
  rintro ((⟨a, b, hab, ha, -⟩ | ⟨a, b, hab, ha, -⟩ | ⟨a, b, c, habc, -, hb, -⟩ |
      ⟨a, b, c, habc, ha, -⟩ | ⟨-, a, b, hab, -, hb⟩) |
    (⟨-, a, b, c, habc, -, hb, -⟩ | ⟨-, a, b, hab, -, hb⟩) | ⟨-, t, ht, hevent⟩)
  · exact hfunction (hab.subset (by simp)) ha
  · exact hname (hab.subset (by simp)) hvector ha
  · exact hname (habc.subset (by simp)) hvector hb
  · exact hname (habc.subset (by simp)) hschema ha
  · exact htable (hab.subset (by simp)) hb
  · exact hword (habc.subset (by simp)) (by decide) hb
  · obtain ⟨name, hmem, hequals⟩ := any_eq_true.mp hb
    have hrule : name ∈ ruleWords := mem_cons_of_mem _ (mem_cons_of_mem _ hmem)
    exact hword (hab.subset (by simp)) hrule hequals
  · exact hword ht (by decide) hevent

theorem isRuleWord_eq_false (hquote : t.head? ≠ some byteBacktick)
    (hne : ∀ name ∈ ruleNames ++ ruleWords, tokenEquals t name ≠ true) : isRuleWord t = false := by
  rw [isRuleWord, Bool.or_eq_false_iff, any_eq_false, tokenIn, any_eq_false]
  refine ⟨fun name hmem => ?_, fun name hmem => hne name (mem_append_right _ hmem)⟩
  rw [identifierTokenEquals, unquotedIdentifierToken_of_head hquote]
  exact hne name (mem_append_left _ hmem)

/-- Every word of the rules begins with a letter. -/
theorem isRuleWord_of_head {b : UInt8} (hhead : t.head? = some b)
    (hletter : ¬(0x41 ≤ upperByte b ∧ upperByte b ≤ 0x5A)) (hquote : b ≠ byteBacktick) :
    isRuleWord t = false := by
  have hletters : ∀ name ∈ ruleNames ++ ruleWords,
      (fold (ascii name)).head?.any (fun c => 0x41 ≤ c && c ≤ 0x5A) = true := by decide
  refine isRuleWord_eq_false ?_ fun name hmem hequals => ?_
  · rw [hhead, ne_eq, Option.some.injEq]
    exact hquote
  · have hfold : (fold t).head? = some (upperByte b) := by
      rw [fold, List.head?_map, hhead]
      rfl
    have hname := hletters name hmem
    rw [← tokenEquals_iff.mp hequals, hfold] at hname
    simp only [Option.any_some, Bool.and_eq_true, decide_eq_true_eq] at hname
    exact hletter hname

/-! ### Harmless parts -/

/-- The tokenizer finds the end of the bytes, and no token in them is a word of the rules. -/
def Harmless (bytes : Text) : Prop :=
  ∃ tokens, Reads bytes tokens ∧ ∀ t ∈ tokens, isRuleWord t = false

theorem harmless_of_token (h : Reads bytes [bytes]) (hfree : isRuleWord bytes = false) :
    Harmless bytes := by
  refine ⟨[bytes], h, fun t ht => ?_⟩
  rw [mem_singleton.mp ht]
  exact hfree

/-- All keywords and types of the grammar. -/
def grammarWords : List String :=
  ["CREATE", "TABLE", "INSERT", "INTO", "VALUES", "SELECT", "FROM", "AS", "JOIN", "DEFINER",
    "VIEW", "PROCEDURE", "BEGIN", "END", "IN", "OUT", "INOUT", "CURRENT_USER", "NULL",
    "UNSIGNED", "BIT", "TINYINT", "SMALLINT", "MEDIUMINT", "INT", "BIGINT", "DECIMAL", "FLOAT",
    "DOUBLE", "BOOLEAN", "CHAR", "VARCHAR", "BINARY", "VARBINARY", "TINYTEXT", "TEXT",
    "MEDIUMTEXT", "LONGTEXT", "TINYBLOB", "BLOB", "MEDIUMBLOB", "LONGBLOB", "ENUM", "SET",
    "JSON", "DATE", "TIME", "DATETIME", "TIMESTAMP", "YEAR", "INT1", "INT2", "INT3", "MIDDLEINT",
    "INT4", "INTEGER", "INT8", "DEC", "NUMERIC", "FIXED", "FLOAT4", "REAL", "FLOAT8", "BOOL",
    "CHARACTER", "NCHAR", "VARCHARACTER", "NVARCHAR", "LONG"]

theorem keyword_mem_grammarWords (k : Keyword) : k.string ∈ grammarWords := by
  cases k <;> decide

theorem typeWord_mem_grammarWords (w : TypeWord) : w.string ∈ grammarWords := by
  cases w <;> decide

/-- The grammar's own words are none of the rules'. -/
theorem isRuleWord_grammarWords {word : String} (h : word ∈ grammarWords) :
    isRuleWord (ascii word) = false := by
  -- One evaluation for all pairs of words.
  have hpairs : (grammarWords.map fun word => fold (ascii word)).all (fun word =>
      word.head? != some byteBacktick &&
        !((ruleNames ++ ruleWords).map fun name => fold (ascii name)).contains word) = true := by
    decide
  have hword := all_eq_true.mp hpairs _ (mem_map_of_mem h)
  simp only [Bool.and_eq_true, bne_iff_ne, ne_eq, Bool.not_eq_true', contains_eq_mem,
    decide_eq_false_iff_not] at hword
  rw [← isRuleWord_congr (fold_fold (ascii word))]
  refine isRuleWord_eq_false hword.1 fun name hmem hequals => hword.2 ?_
  rw [tokenEquals_iff, fold_fold] at hequals
  exact mem_map.mpr ⟨name, hmem, hequals.symm⟩

theorem harmless_keyword {word : String} (h : tokenEquals bytes word = true)
    (hmem : word ∈ grammarWords) : Harmless bytes := by
  have hwords : (grammarWords.map fun word => fold (ascii word)).all (fun word =>
      word != [] && word.all isSqlIdentifierChar) = true := by decide
  have hword := all_eq_true.mp hwords _ (mem_map_of_mem hmem)
  rw [Bool.and_eq_true, bne_iff_ne] at hword
  have hne : ascii word ≠ [] := by
    intro hnil
    exact hword.1 (by rw [hnil]; rfl)
  refine harmless_of_token (reads_keyword h hne hword.2) ?_
  rw [isRuleWord_congr (tokenEquals_iff.mp h)]
  exact isRuleWord_grammarWords hmem

theorem harmless_symbol (s : Symbol) : Harmless [s.byte] := by
  refine harmless_of_token (fun t _ => sqlTokens_symbol s t) (isRuleWord_of_head rfl ?_ ?_)
  · cases s <;> decide
  · cases s <;> decide

/-- Digits are a word that begins with no letter. -/
theorem isRuleWord_digits (digits : Digits) : isRuleWord digits.1 = false := by
  obtain ⟨digits, hne, hall⟩ := digits
  have hdigit : ∀ b : UInt8, isDigit b = true →
      ¬(0x41 ≤ upperByte b ∧ upperByte b ≤ 0x5A) ∧ b ≠ byteBacktick := by decide +kernel
  cases digits with
  | nil => exact absurd rfl hne
  | cons b digits =>
    have hb := hdigit b (all_eq_true.mp hall b mem_cons_self)
    exact isRuleWord_of_head rfl hb.1 hb.2

theorem reads_digits (digits : Digits) : Reads digits.1 [digits.1] :=
  reads_word digits.2.1 fun b hb =>
    isSqlIdentifierChar_of_isDigit (all_eq_true.mp digits.2.2 b hb)

theorem harmless_number (whole : Digits) : Harmless whole.1 :=
  harmless_of_token (reads_digits whole) (isRuleWord_digits whole)

theorem harmless_decimal (whole fraction : Digits) :
    Harmless (whole.1 ++ byteDot :: fraction.1) := by
  refine ⟨[whole.1, [byteDot], fraction.1], ?_, ?_⟩
  · intro t ht
    have hdot : EndsWord (byteDot :: (fraction.1 ++ t)) := by
      rintro b ⟨⟩
      decide
    have hsymbol := sqlTokens_symbol .dot (fraction.1 ++ t)
    rw [append_assoc, cons_append, reads_digits whole _ hdot,
      show byteDot = Symbol.dot.byte from rfl, hsymbol, reads_digits fraction t ht]
    rfl
  · intro t ht
    simp only [mem_cons, not_mem_nil, or_false] at ht
    rcases ht with rfl | rfl | rfl
    · exact isRuleWord_digits whole
    · exact isRuleWord_of_head (b := byteDot) rfl (by decide) (by decide)
    · exact isRuleWord_digits fraction

/-- A quoted text is read as one token, or as several where a quote is doubled; each of them begins
    with the quote. -/
theorem reads_quoted {quote : UInt8} (hquote : isQuoteByte quote = true) {body : Text}
    (hbody : QuotedBody true quote body) :
    ∃ tokens, (∀ t ∈ tokens, t.head? = some quote) ∧
      Reads (quote :: (body ++ [quote])) tokens := by
  have hbyte : ∀ b : UInt8, isQuoteByte b = true → startsToken b = true ∧ b ≠ byteBackslash := by
    decide +kernel
  obtain ⟨hstarts, hback⟩ := hbyte quote hquote
  -- The end of the token that is open in front of the body, and the tokens behind it.
  obtain ⟨first, more, hmore, hread⟩ : ∃ first more, (∀ t ∈ more, t.head? = some quote) ∧
      ∀ t, ∃ behind, body ++ quote :: t = first ++ behind ∧
        quotedSqlTokenEnd quote (body ++ quote :: t) = behind ∧
        sqlTokens behind = more ++ sqlTokens t := by
    induction hbody with
    | nil =>
      refine ⟨[quote], [], by simp, fun t => ⟨t, rfl, ?_, rfl⟩⟩
      rw [nil_append, quotedSqlTokenEnd_cons hback, if_pos rfl]
    | @plain c body hc hback' _ ih =>
      obtain ⟨first, more, hmore, hread⟩ := ih
      refine ⟨c :: first, more, hmore, fun t => ?_⟩
      obtain ⟨behind, hsplit, hend, htokens⟩ := hread t
      refine ⟨behind, by rw [cons_append, hsplit]; rfl, ?_, htokens⟩
      rw [cons_append, quotedSqlTokenEnd_cons (hback' rfl), if_neg hc]
      exact hend
    | @escaped c body _ _ ih =>
      obtain ⟨first, more, hmore, hread⟩ := ih
      refine ⟨byteBackslash :: c :: first, more, hmore, fun t => ?_⟩
      obtain ⟨behind, hsplit, hend, htokens⟩ := hread t
      refine ⟨behind, by rw [cons_append, cons_append, hsplit]; rfl, ?_, htokens⟩
      rw [cons_append, cons_append, quotedSqlTokenEnd_backslash]
      exact hend
    | @doubled body _ ih =>
      -- The token ends at the first of the two quotes, and the second one opens the next token.
      obtain ⟨first, more, hmore, hread⟩ := ih
      refine ⟨[quote], (quote :: first) :: more, ?_, fun t => ?_⟩
      · intro t ht
        rcases mem_cons.mp ht with rfl | ht
        · rfl
        · exact hmore t ht
      · obtain ⟨behind, hsplit, hend, htokens⟩ := hread t
        refine ⟨quote :: (body ++ quote :: t), rfl, ?_, ?_⟩
        · rw [cons_append, quotedSqlTokenEnd_cons hback, if_pos rfl]
          rfl
        · rw [hsplit] at hend ⊢
          rw [sqlTokens_cons hstarts (by rw [sqlTokenEnd, if_pos hquote]; exact hend), htokens]
          rfl
  refine ⟨(quote :: first) :: more, ?_, fun t _ => ?_⟩
  · intro t ht
    rcases mem_cons.mp ht with rfl | ht
    · rfl
    · exact hmore t ht
  · obtain ⟨behind, hsplit, hend, htokens⟩ := hread t
    have htext : quote :: (body ++ [quote]) ++ t = quote :: (first ++ behind) := by
      rw [← hsplit]
      simp
    rw [hsplit] at hend
    rw [htext, sqlTokens_cons hstarts (by rw [sqlTokenEnd, if_pos hquote]; exact hend), htokens]
    rfl

theorem harmless_text (literal : QuotedText) :
    Harmless (literal.quote :: (literal.body ++ [literal.quote])) := by
  have hbyte : isQuoteByte literal.quote = true ∧
      ¬(0x41 ≤ upperByte literal.quote ∧ upperByte literal.quote ≤ 0x5A) ∧
      literal.quote ≠ byteBacktick := by
    rcases literal.isQuote with h | h <;> rw [h] <;> decide
  obtain ⟨tokens, hheads, hreads⟩ := reads_quoted hbyte.1 literal.isBody
  exact ⟨tokens, hreads, fun t ht => isRuleWord_of_head (hheads t ht) hbyte.2.1 hbyte.2.2⟩

/-! ### Ordinary names -/

/-- The tokenizer finds the end of the name, and no token in it is a word of the rules. -/
def Ordinary (n : DatabaseName) : Prop := Harmless n.spelling

/-- A word of letters, digits and underscores is ordinary if it is no word of the rules. -/
theorem ordinary_word (hne : word ≠ []) (hbytes : ∀ b ∈ word, isIdentByte b = true)
    (hword : word.all isSqlIdentifierChar = true) (hfree : isRuleWord word = false) :
    Ordinary (.plain word hne hbytes) :=
  harmless_of_token (reads_word hne (all_eq_true.mp hword)) hfree

theorem harmless_part {p : Lexeme DatabaseName} (h : p.SpelledBy bytes)
    (hname : ∀ n, p = .name n → Ordinary n) : Harmless bytes := by
  match p with
  | .keyword k => exact harmless_keyword h (keyword_mem_grammarWords k)
  | .type w => exact harmless_keyword h (typeWord_mem_grammarWords w)
  | .symbol s =>
    rw [show bytes = [s.byte] from h]
    exact harmless_symbol s
  | .number whole none =>
    rw [show bytes = whole.1 from h]
    exact harmless_number whole
  | .number whole (some fraction) =>
    rw [show bytes = whole.1 ++ byteDot :: fraction.1 from h]
    exact harmless_decimal whole fraction
  | .text literal =>
    rw [show bytes = literal.quote :: (literal.body ++ [literal.quote]) from h]
    exact harmless_text literal
  | .name n =>
    rw [show bytes = n.spelling from h]
    exact hname n rfl

/-- A text of harmless parts has no word of the rules in it. -/
theorem isRuleWord_slots {slots : List Slot} (hspaced : WellSpaced slots)
    (h : ∀ slot ∈ slots, Harmless slot.text) :
    ∀ t ∈ sqlTokens (slotsText slots), isRuleWord t = false := by
  induction slots with
  | nil =>
    have hnil : sqlTokens (slotsText []) = [] := by decide
    rw [hnil]
    exact fun t ht => absurd ht not_mem_nil
  | cons slot rest ih =>
    obtain ⟨tokens, hreads, hfree⟩ := h slot mem_cons_self
    rw [sqlTokens_slots hspaced hreads]
    intro t ht
    rcases mem_append.mp ht with ht | ht
    · exact hfree t ht
    · exact ih (wellSpaced_tail hspaced) (fun slot hslot => h slot (mem_cons_of_mem _ hslot))
        t ht

/-- **Ordinary names.** The gate accepts every text of a statement whose names are ordinary. -/
theorem accepts_of_ordinary (h : sqlTokens sql = sqlTokens sp.text)
    (hnames : ∀ n ∈ s.names, Ordinary n) (currentSchema : Text) :
    rejects currentSchema sql = false := by
  have hfree : ∀ t ∈ sqlTokens sp.text, isRuleWord t = false := by
    refine isRuleWord_slots sp.wellSpaced fun slot hslot => ?_
    refine harmless_part slot.spelled fun n hpart => hnames n ?_
    have hmem : Lexeme.name n ∈ s.parts := by
      rw [← sp.parts_eq, ← hpart]
      exact mem_map_of_mem hslot
    exact mem_filterMap.mpr ⟨_, hmem, rfl⟩
  rw [Bool.eq_false_iff, ne_eq, rejects_iff_hit sp h, h]
  exact not_hit_of_forall (fun t ht => hfree t (mem_of_mem_take ht)) currentSchema _

theorem hasDefiner_map (f : DatabaseName → DatabaseName) (s : ApplicationStatement DatabaseName) :
    (s.map f).hasDefiner = s.hasDefiner := by
  cases s <;> rfl

/-- **Names.** A text of a statement is accepted exactly when it has no hit; renaming changes the
    decision exactly when it makes or removes the hits; and where all names are ordinary, before
    and after, neither text is rejected. -/
theorem decision_of_names (currentSchema : Text) (s : ApplicationStatement DatabaseName)
    (f : DatabaseName → DatabaseName) (sp : Spelling s) (sp' : Spelling (s.map f))
    (sql renamed : Text) (h : sqlTokens sql = sqlTokens sp.text)
    (h' : sqlTokens renamed = sqlTokens sp'.text) :
    (rejects currentSchema sql = false ↔
      ¬Hit currentSchema s.hasDefiner ((sqlTokens sql).take policyTokenLimit)) ∧
    (rejects currentSchema renamed = rejects currentSchema sql ↔
      (Hit currentSchema s.hasDefiner ((sqlTokens renamed).take policyTokenLimit) ↔
        Hit currentSchema s.hasDefiner ((sqlTokens sql).take policyTokenLimit))) ∧
    ((∀ n ∈ s.names, Ordinary n ∧ Ordinary (f n)) →
      rejects currentSchema sql = false ∧ rejects currentSchema renamed = false) := by
  have hsql := rejects_iff_hit sp h currentSchema
  have hrenamed := rejects_iff_hit sp' h' currentSchema
  rw [hasDefiner_map] at hrenamed
  refine ⟨?_, ?_, ?_⟩
  · rw [Bool.eq_false_iff, ne_eq, hsql]
  · rw [Bool.eq_iff_iff, hsql, hrenamed]
  · intro hnames
    refine ⟨accepts_of_ordinary sp h (fun n hn => (hnames n hn).1) currentSchema,
      accepts_of_ordinary sp' h' ?_ currentSchema⟩
    intro n hn
    rw [ApplicationStatement.names_map] at hn
    obtain ⟨m, hm, rfl⟩ := mem_map.mp hn
    exact (hnames m hm).2

/-! ### Names that hit -/

/-- A name spelled as a word. -/
def plainName (word : String) (h : ascii word ≠ [] ∧ (ascii word).all isIdentByte = true) :
    DatabaseName := .plain (ascii word) h.1 (all_eq_true.mp h.2)

def nameA : DatabaseName := plainName "a" (by decide)

def nameT : DatabaseName := plainName "t" (by decide)

def nameSleep : DatabaseName := plainName "sleep" (by decide)

def nameEvent : DatabaseName := plainName "event" (by decide)

/-- `CREATE TABLE table (column INT)`. -/
def createOneColumn (table column : DatabaseName) : ApplicationStatement DatabaseName :=
  .createTable ⟨none, table⟩ [⟨column, ⟨.int, [], false⟩⟩]

/-- `SELECT column FROM table`. -/
def selectOneColumn (table column : DatabaseName) (label : Option (Alias DatabaseName)) :
    Query DatabaseName :=
  ⟨[⟨⟨[], column⟩, label⟩], ⟨⟨none, table⟩, none⟩, []⟩

theorem accepts_createOneColumn :
    rejects [] (ascii "create table t (a int)") = false ∧
      rejects [] (ascii "CREATE TABLE a (a INT)") = false := by
  have hlower : sqlTokens (ascii "create table t (a int)") =
      sqlTokens (slotsText [⟨.keyword .create, ascii "create",
          (show tokenEquals (ascii "create") "CREATE" = true by decide), [byteSpace], by decide⟩,
        ⟨.keyword .table, ascii "table",
          (show tokenEquals (ascii "table") "TABLE" = true by decide), [byteSpace], by decide⟩,
        ⟨.name nameT, ascii "t", rfl, [byteSpace], by decide⟩,
        ⟨.symbol .openParen, ascii "(", rfl, [], by decide⟩,
        ⟨.name nameA, ascii "a", rfl, [byteSpace], by decide⟩,
        ⟨.type .int, ascii "int",
          (show tokenEquals (ascii "int") "INT" = true by decide), [], by decide⟩,
        ⟨.symbol .closeParen, ascii ")", rfl, [], by decide⟩]) := by decide
  have hordinary : Ordinary nameA ∧ Ordinary nameT :=
    ⟨ordinary_word _ _ (by decide) (by decide),
      ordinary_word _ _ (by decide) (by decide)⟩
  refine (decision_of_names [] (createOneColumn nameT nameA) (fun _ => nameA)
    ⟨_, rfl, by simp [WellSpaced, Lexeme.isSymbol]⟩ (Spelling.plain _) _ _ hlower
    (by decide)).2.2 ?_
  intro n hn
  have hnames : (createOneColumn nameT nameA).names = [nameT, nameA] := rfl
  rw [hnames] at hn
  simp only [mem_cons, not_mem_nil, or_false] at hn
  rcases hn with rfl | rfl
  · exact ⟨hordinary.2, hordinary.1⟩
  · exact ⟨hordinary.1, hordinary.1⟩

/-- A table called like a function, a column with an alias that make up a vector index, and a view
    called `event`: all are rejected, and renaming the table makes the first one pass. -/
theorem rejects_names :
    (sqlTokens (ascii "CREATE TABLE sleep (a INT)") =
        sqlTokens (Spelling.plain (createOneColumn nameSleep nameA)).text ∧
      rejects [] (ascii "CREATE TABLE sleep (a INT)") = true ∧
      sqlTokens (ascii "CREATE TABLE t (a INT)") =
        sqlTokens (Spelling.plain (createOneColumn nameT nameA)).text ∧
      rejects [] (ascii "CREATE TABLE t (a INT)") = false) ∧
    (sqlTokens (ascii "INSERT INTO sleep (a) VALUES (NULL)") =
        sqlTokens (Spelling.plain (.rows (.insert ⟨⟨none, nameSleep⟩, [nameA], [[.null]]⟩))).text ∧
      rejects [] (ascii "INSERT INTO sleep (a) VALUES (NULL)") = true) ∧
    (sqlTokens (ascii "SELECT `vector` `key` FROM t") =
        sqlTokens (Spelling.plain (.rows (.select (selectOneColumn nameT (.quoted (ascii "vector"))
          (some ⟨false, .quoted (ascii "key")⟩))))).text ∧
      rejects [] (ascii "SELECT `vector` `key` FROM t") = true) ∧
    sqlTokens (ascii "CREATE DEFINER=CURRENT_USER VIEW event AS SELECT a FROM t") =
        sqlTokens (Spelling.plain (.createView .current ⟨none, nameEvent⟩ []
          (selectOneColumn nameT nameA none))).text ∧
      rejects [] (ascii "CREATE DEFINER=CURRENT_USER VIEW event AS SELECT a FROM t") = true := by
  have hcreate : rejects [] (ascii "CREATE TABLE sleep (a INT)") = true ∧
      rejects [] (ascii "CREATE TABLE t (a INT)") = false := by
    decide
  have hrows : rejects [] (ascii "INSERT INTO sleep (a) VALUES (NULL)") = true ∧
      rejects [] (ascii "SELECT `vector` `key` FROM t") = true ∧
      rejects [] (ascii "CREATE DEFINER=CURRENT_USER VIEW event AS SELECT a FROM t") = true := by
    decide
  exact ⟨⟨by decide, hcreate.1, by decide, hcreate.2⟩, ⟨by decide, hrows.1⟩,
    ⟨by decide, hrows.2.1⟩, by decide, hrows.2.2⟩

end MyLite.Policy

import MyLite.Php.Escape
import MyLite.Policy.Alike
import MyLite.Policy.Window
import MyLite.Sql.Boundaries

namespace MyLite.Policy

open MyLite.Lib MyLite.Php MyLite.Sql

/-!
# Data in string literals

An application puts a byte string between two pieces of SQL text, escaped and quoted by one of the
PHP extensions.  The escaped text is one token whatever the bytes are, and no rule but the search
for `ORACLE` in a `SET` statement looks into a token with quotes.

* `quotedSqlTokenEnd_escapeSql` — the tokenizer's quoted token ends at the literal's own quote.
* `alike_literal` — the rules cannot tell two literals apart.
* `prepareError_eq_of_literals` — two literals in the same place get the same decision.
-/

/-- The diagnostics of `prepare_impl` in front of the backend: those of the policy, and the one for
    a prepared `CALL`. -/
def prepareError (currentSchema sql : Text) : Option String :=
  match rejectUnsupportedSqlPolicy currentSchema sql with
  | some message => some message
  | none =>
    if tokenEquals (identifierTokenAt (collectSqlPolicyTokens sql) 0) "CALL" then
      some "prepared CALL statements are not supported by MyLite"
    else none

/-! ### Literals -/

/-- How an application makes a literal of a byte string. -/
inductive Quoting
  /-- `PDO::quote`. -/
  | pdo
  /-- `mysqli::real_escape_string`, between quotes of the application's choice. -/
  | mysqli (quote : UInt8) (isQuote : quote = byteQuote ∨ quote = byteDoubleQuote)

namespace Quoting

/-- The literal. -/
def literal : Quoting → Text → Text
  | pdo, s => pdoMyliteHandleQuoter s
  | mysqli quote _, s => quote :: (phpMyliteMysqliEscapeSql s ++ [quote])

/-- The quote a literal begins and ends with. -/
def quote : Quoting → UInt8
  | pdo => byteQuote
  | mysqli quote _ => quote

theorem quote_eq (q : Quoting) : q.quote = byteQuote ∨ q.quote = byteDoubleQuote := by
  cases q with
  | pdo => exact .inl rfl
  | mysqli quote isQuote => exact isQuote

theorem literal_eq (q : Quoting) (s : Text) :
    q.literal s = q.quote :: (escapeSql s ++ [q.quote]) := by
  cases q with
  | pdo | mysqli quote isQuote => rfl

end Quoting

/-- Behind the opening quote, the first quote that no backslash hides is the closing one. -/
theorem quotedSqlTokenEnd_escapeSql {quote : UInt8}
    (hquote : quote = byteQuote ∨ quote = byteDoubleQuote) (s t : Text) :
    quotedSqlTokenEnd quote (escapeSql s ++ quote :: t) = t := by
  induction s with
  | nil =>
    have hback : quote ≠ byteBackslash := by rcases hquote with rfl | rfl <;> decide
    exact (quotedSqlTokenEnd_cons hback t).trans (if_pos rfl)
  | cons c s ih =>
    cases hc : escapeLetter c with
    | some letter =>
      rw [escapeSql_cons_escaped hc, List.cons_append, List.cons_append,
        quotedSqlTokenEnd_backslash]
      exact ih
    | none =>
      -- A byte that is not escaped is neither a backslash nor one of the two quotes.
      have hplain : ∀ b : UInt8, escapeLetter b = none →
          b ≠ byteBackslash ∧ b ≠ byteQuote ∧ b ≠ byteDoubleQuote := by decide +kernel
      obtain ⟨hback, hsingle, hdouble⟩ := hplain c hc
      have hne : c ≠ quote := by rcases hquote with rfl | rfl <;> assumption
      rw [escapeSql_cons_plain hc, List.cons_append, quotedSqlTokenEnd_cons hback, if_neg hne]
      exact ih

/-- **One token.** A literal in front of a text is its first token. -/
theorem sqlTokens_literal (q : Quoting) (s t : Text) :
    sqlTokens (q.literal s ++ t) = q.literal s :: sqlTokens t := by
  have hquote := q.quote_eq
  rw [q.literal_eq, List.cons_append, List.append_assoc, List.singleton_append]
  have hstart : startsToken q.quote = true := by rcases hquote with h | h <;> rw [h] <;> decide
  have hend : sqlTokenEnd (q.quote :: (escapeSql s ++ q.quote :: t)) = t := by
    have hq : isQuoteByte q.quote = true := by rcases hquote with h | h <;> rw [h] <;> decide
    rw [sqlTokenEnd, if_pos hq]
    exact quotedSqlTokenEnd_escapeSql hquote s t
  have happend : escapeSql s ++ q.quote :: t = (escapeSql s ++ [q.quote]) ++ t := by
    rw [List.append_assoc, List.singleton_append]
  rw [happend] at hend ⊢
  exact sqlTokens_cons hstart hend

/-! ### Rules on literals -/

theorem tokenEquals_quoted {t : Text} {b : UInt8} (hb : isQuoteByte b = true) {keyword : String}
    (hk : isKeyword keyword = true) : tokenEquals (b :: t) keyword = false := by
  have hupper : ∀ b c : UInt8, isQuoteByte b = true → upperByte b = upperByte c → b = c := by
    intro b c hb h
    have hall : ∀ b : UInt8, isQuoteByte b = true →
        upperByte b = b ∧ ∀ c, upperByte c = b → c = b := by
      intro b hb
      rw [isQuoteByte, Bool.or_eq_true, Bool.or_eq_true, beq_iff_eq, beq_iff_eq, beq_iff_eq] at hb
      rcases hb with (rfl | rfl) | rfl
      · exact ⟨rfl, by decide +kernel⟩
      · exact ⟨rfl, by decide +kernel⟩
      · exact ⟨rfl, by decide +kernel⟩
    obtain ⟨hself, honly⟩ := hall b hb
    exact (honly c (h.symm.trans hself)).symm
  rw [Bool.eq_false_iff]
  intro h
  rw [tokenEquals, beq_iff_eq] at h
  unfold isKeyword at hk
  cases hword : ascii keyword with
  | nil =>
    rw [hword] at h
    cases h
  | cons c rest =>
    rw [hword] at h hk
    obtain rfl := hupper b c hb (List.cons.inj h).1
    rw [List.head?_cons, Option.any_some, hb] at hk
    cases hk

/-- No rule but the search for `ORACLE` tells two literals apart. -/
theorem alike_literal (q q' : Quoting) (s s' : Text) : Alike (q.literal s) (q'.literal s') := by
  have hnone : ∀ (q : Quoting) (s : Text), isSqlIdentifierToken (q.literal s) = false ∧
      ∀ {keyword}, isKeyword keyword = true → tokenEquals (q.literal s) keyword = false ∧
        identifierTokenEquals (q.literal s) keyword = false := by
    intro q s
    have hquote := q.quote_eq
    have hq : isQuoteByte q.quote = true := by rcases hquote with h | h <;> rw [h] <;> decide
    have hword : isSqlIdentifierChar q.quote = false := by
      rcases hquote with h | h <;> rw [h] <;> decide
    have htick : q.quote ≠ byteBacktick := by rcases hquote with h | h <;> rw [h] <;> decide
    rw [q.literal_eq]
    refine ⟨hword, fun hk => ⟨tokenEquals_quoted hq hk, ?_⟩⟩
    rw [identifierTokenEquals, unquotedIdentifierToken_of_head]
    · exact tokenEquals_quoted hq hk
    · exact fun hhead => htick (Option.some.inj hhead)
  obtain ⟨hword, hkey⟩ := hnone q s
  obtain ⟨hword', hkey'⟩ := hnone q' s'
  exact ⟨hword.trans hword'.symm, fun hk => (hkey hk).1.trans (hkey' hk).1.symm,
    fun hk => (hkey hk).2.trans (hkey' hk).2.symm⟩

/-! ### Templates -/

/-- The tokenizer is between tokens at the end of `before`: an empty literal there is read on its
    own. -/
def BetweenTokens (before : Text) : Prop :=
  pieceScanner.Reaches (before ++ [byteQuote, byteQuote]) [byteQuote, byteQuote]

/-- The text with a literal in its place. -/
def template (before after literal : Text) : Text := before ++ (literal ++ after)

/-- The first word of a template; a literal is no word. -/
def firstWord (before after : Text) : Text :=
  identifierTokenAt (sqlTokens (template before after [byteQuote, byteQuote])) 0

/-- The tokens of a template are those in front of the literal, the literal, and those behind it. -/
theorem exists_sqlTokens_template {before : Text} (h : BetweenTokens before) (after : Text) :
    ∃ front, ∀ (q : Quoting) (s : Text),
      sqlTokens (template before after (q.literal s)) =
        front ++ q.literal s :: sqlTokens after := by
  obtain ⟨ks, hks⟩ := h
  refine ⟨ks.filterMap Piece.token?, fun q s => ?_⟩
  have hsame : sameBehind byteQuote q.quote = true := by
    rcases q.quote_eq with hq | hq <;> rw [hq] <;> decide
  have hemits := emits_replace hks hsame (escapeSql s ++ [q.quote] ++ after)
  rw [← List.cons_append, ← q.literal_eq] at hemits
  rw [template, sqlTokens_of_emits hemits, sqlTokens_literal]

/-- **Data cannot steer the gate.** Where no `SET` begins the template, the decision and its
    diagnostic do not depend on the data in a literal. -/
theorem prepareError_eq_of_literals {before : Text} (hbetween : BetweenTokens before) (after : Text)
    (hset : tokenEquals (firstWord before after) "SET" = false) (currentSchema : Text)
    (q q' : Quoting) (s s' : Text) :
    rejectUnsupportedSqlPolicy currentSchema (template before after (q.literal s))
        = rejectUnsupportedSqlPolicy currentSchema (template before after (q'.literal s'))
      ∧ prepareError currentSchema (template before after (q.literal s))
        = prepareError currentSchema (template before after (q'.literal s')) := by
  obtain ⟨front, hfront⟩ := exists_sqlTokens_template hbetween after
  have halike : ∀ (q q' : Quoting) (s s' : Text),
      AllAlike (sqlTokens (template before after (q.literal s)))
        (sqlTokens (template before after (q'.literal s'))) := by
    intro q q' s s'
    rw [hfront, hfront]
    have hrefl : ∀ l : List Text, AllAlike l l := fun l => List.forall₂_same.mpr fun t _ => .refl t
    exact List.rel_append (hrefl front) (.cons (alike_literal q q' s s') (hrefl _))
  have hcollected : AllAlike (collectSqlPolicyTokens (template before after (q.literal s)))
      (collectSqlPolicyTokens (template before after (q'.literal s'))) := by
    rw [collectSqlPolicyTokens_eq_take, collectSqlPolicyTokens_eq_take]
    exact List.forall₂_take policyTokenLimit (halike q q' s s')
  -- Among the collected tokens a first `SET` would be the first word of the template.
  have hset' : tokenEquals
      (identifierTokenAt (collectSqlPolicyTokens (template before after (q.literal s))) 0) "SET"
        = false := by
    rw [Bool.eq_false_iff, collectSqlPolicyTokens_eq_take]
    intro htrue
    have hall := persists_word 0 (by decide) (List.take_prefix _ _) htrue
    change tokenEquals (identifierTokenAt _ 0) "SET" = true at hall
    rw [((halike q .pdo s []).identifierTokenAt 0).equals (by decide)] at hall
    exact Bool.false_ne_true (hset.symm.trans hall)
  have hpolicy : rejectUnsupportedSqlPolicy currentSchema (template before after (q.literal s))
      = rejectUnsupportedSqlPolicy currentSchema (template before after (q'.literal s')) :=
    policyError_congr_of_not_set hcollected hset' currentSchema
  refine ⟨hpolicy, ?_⟩
  unfold prepareError
  rw [hpolicy, (hcollected.identifierTokenAt 0).equals (by decide)]

/-- `SELECT ` and a literal. -/
theorem betweenTokens_select : BetweenTokens (ascii "SELECT ") :=
  ⟨[.token (ascii "SELECT"), .space], .step rfl (.step rfl (.refl _))⟩

/-- A call that is not allowed stays data. -/
theorem prepareError_eq_sleep :
    rejectUnsupportedSqlPolicy []
          (template (ascii "SELECT ") [] (Quoting.pdo.literal (ascii "' , SLEEP(9) -- ")))
        = rejectUnsupportedSqlPolicy [] (template (ascii "SELECT ") [] (Quoting.pdo.literal []))
      ∧ prepareError []
          (template (ascii "SELECT ") [] (Quoting.pdo.literal (ascii "' , SLEEP(9) -- ")))
        = prepareError [] (template (ascii "SELECT ") [] (Quoting.pdo.literal [])) :=
  prepareError_eq_of_literals betweenTokens_select [] (by decide) [] .pdo .pdo _ []

end MyLite.Policy

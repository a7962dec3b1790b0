import MyLite.Lib.Scanner
import MyLite.Sql.Bytes

namespace MyLite.Sql

open MyLite.Lib List

/-!
# The policy tokenizer of `database.cc`

`next_sql_token` and the helpers it calls, translated function by function.  The source
keeps the text and an offset; here the offset is the suffix that starts at it, so a helper
that returns `true` after moving the offset returns `some` of the new suffix, and one that
returns `false` returns `none`.

* `skipSqlSpacingAndComments` — the spacing and comment loop.
* `Passed w rest` — the text `w` in front of `rest` is one space, comment or comment opener.
* `nextSqlToken` — the next token and the text after it.
* `sqlTokens` — all tokens of a text.
* `collectSqlPolicyTokens` — the first 32 of them, which is what the policy sees.
-/

/-! ### Comments and quoted tokens -/

/-- `enter_executable_sql_comment`: steps over `/*!` or `/*M!` and the digits behind it.
    The closing `*/` is not looked for. -/
def enterExecutableSqlComment : Text → Option Text
  | byteSlash :: byteStar :: byteBang :: rest => some (rest.dropWhile isDigit)
  | byteSlash :: byteStar :: m :: byteBang :: rest =>
    if m == 0x4D || m == 0x6D then some (rest.dropWhile isDigit) else none
  | _ => none

/-- `skip_dash_sql_comment`: whatever follows the two dashes, up to the newline. -/
def skipDashSqlComment : Text → Option Text
  | byteDash :: byteDash :: rest => some (rest.dropWhile (· != byteNewline))
  | _ => none

/-- `skip_hash_sql_comment`. -/
def skipHashSqlComment : Text → Option Text
  | byteHash :: rest => some (rest.dropWhile (· != byteNewline))
  | _ => none

/-- The loop of `skip_block_sql_comment`.  It looks at two bytes at a time, so on a comment
    that is never closed it stops in front of the last byte. -/
def blockCommentEnd : Text → Text
  | byteStar :: byteSlash :: rest => rest
  | _ :: c :: rest => blockCommentEnd (c :: rest)
  | [c] => [c]
  | [] => []

/-- `skip_block_sql_comment`. -/
def skipBlockSqlComment : Text → Option Text
  | byteSlash :: byteStar :: rest => some (blockCommentEnd rest)
  | _ => none

/-- The loop of `skip_quoted_sql_token`, after the opening quote: a backslash hides the next
    byte whatever the quote is, and the first other quote byte ends the token. -/
def quotedSqlTokenEnd (quote : UInt8) : Text → Text
  | byteBackslash :: _ :: rest => quotedSqlTokenEnd quote rest
  | c :: rest => if c == quote then rest else quotedSqlTokenEnd quote rest
  | [] => []

/-! ### The token loop -/

variable (sql : Text)

/-- The comment helpers in the order `skip_sql_spacing_and_comments` tries them. -/
def skipSqlComment : Option Text :=
  enterExecutableSqlComment sql <|> skipDashSqlComment sql <|> skipHashSqlComment sql <|>
    skipBlockSqlComment sql

/-- The loop of `skip_sql_spacing_and_comments`, for at most `fuel` comments. -/
def skipSpacingLoop : ℕ → Text → Text
  | 0, sql => sql.dropWhile isSqlSpace
  | fuel + 1, sql =>
    match skipSqlComment (sql.dropWhile isSqlSpace) with
    | some rest => skipSpacingLoop fuel rest
    | none => sql.dropWhile isSqlSpace

/-- `skip_sql_spacing_and_comments`.  A comment is at least one byte long, so the length of
    the text bounds the number of turns. -/
def skipSqlSpacingAndComments : Text := skipSpacingLoop sql.length sql

/-- The end of the token that starts at a text's first byte, the three cases of
    `next_sql_token` after the spacing. -/
def sqlTokenEnd : Text → Text
  | [] => []
  | c :: rest =>
    if isQuoteByte c then quotedSqlTokenEnd c rest
    else if isSqlIdentifierChar c then rest.dropWhile isSqlIdentifierChar
    else rest

/-- `next_sql_token`: the token and the text behind it. -/
def nextSqlToken : Option (Text × Text) :=
  match skipSqlSpacingAndComments sql with
  | [] => none
  | c :: rest =>
    some ((c :: rest).take ((c :: rest).length - (sqlTokenEnd (c :: rest)).length),
      sqlTokenEnd (c :: rest))

/-! ### Equations of the helpers -/

theorem skipHashSqlComment_cons (a : UInt8) (s : Text) :
    skipHashSqlComment (a :: s) =
      if a = byteHash then some (s.dropWhile (· != byteNewline)) else none := by
  split_ifs with h
  · subst h; rfl
  · unfold skipHashSqlComment
    split
    next heq => exact absurd (List.cons.inj heq).1 h
    next => rfl

theorem skipDashSqlComment_cons (a b : UInt8) (s : Text) :
    skipDashSqlComment (a :: b :: s) =
      if a = byteDash ∧ b = byteDash then some (s.dropWhile (· != byteNewline)) else none := by
  split_ifs with h
  · obtain ⟨rfl, rfl⟩ := h; rfl
  · unfold skipDashSqlComment
    split
    next heq => exact absurd ⟨(List.cons.inj heq).1, (List.cons.inj (List.cons.inj heq).2).1⟩ h
    next => rfl

theorem skipBlockSqlComment_cons (a b : UInt8) (s : Text) :
    skipBlockSqlComment (a :: b :: s) =
      if a = byteSlash ∧ b = byteStar then some (blockCommentEnd s) else none := by
  split_ifs with h
  · obtain ⟨rfl, rfl⟩ := h; rfl
  · unfold skipBlockSqlComment
    split
    next heq => exact absurd ⟨(List.cons.inj heq).1, (List.cons.inj (List.cons.inj heq).2).1⟩ h
    next => rfl

/-- Behind `/*`: a `!`, or an `M` in either case and a `!`. -/
def executableBody : Text → Option Text
  | [] => none
  | c :: s =>
    if c = byteBang then some (s.dropWhile isDigit)
    else if (c = 0x4D ∨ c = 0x6D) ∧ s.head? = some byteBang then
      some (s.tail.dropWhile isDigit)
    else none

theorem enterExecutableSqlComment_cons (a b : UInt8) (s : Text) :
    enterExecutableSqlComment (a :: b :: s) =
      if a = byteSlash ∧ b = byteStar then executableBody s else none := by
  unfold enterExecutableSqlComment
  split
  next rest heq =>
    simp only [List.cons.injEq] at heq
    obtain ⟨rfl, rfl, rfl⟩ := heq
    rfl
  next m rest hm heq =>
    simp only [List.cons.injEq] at heq
    obtain ⟨rfl, rfl, rfl⟩ := heq
    have hm' : ¬m = byteBang := hm
    simp [executableBody, hm']
  next h1 h2 =>
    split_ifs with h
    · obtain ⟨rfl, rfl⟩ := h
      match s with
      | [] => rfl
      | c :: s =>
        rw [executableBody, if_neg, if_neg]
        · rintro ⟨-, h⟩
          obtain ⟨t, rfl⟩ : ∃ t, s = byteBang :: t := by
            cases s with
            | nil => cases h
            | cons d t => exact ⟨t, by rw [Option.some.inj h]⟩
          exact h2 _ _ rfl
        · rintro rfl
          exact h1 _ rfl
    · rfl

theorem blockCommentEnd_step {c d : UInt8} (h : ¬(c = byteStar ∧ d = byteSlash)) (s : Text) :
    blockCommentEnd (c :: d :: s) = blockCommentEnd (d :: s) := by
  rw [blockCommentEnd]
  rintro rfl hd
  exact h ⟨rfl, hd⟩

variable {body : Text}

theorem blockCommentEnd_append (h : ¬[byteStar, byteSlash] <:+: body) (s : Text) :
    blockCommentEnd (body ++ byteStar :: byteSlash :: s) = s := by
  induction body with
  | nil => rfl
  | cons c body ih =>
    have hbody : ¬[byteStar, byteSlash] <:+: body := fun hi =>
      h (hi.trans (suffix_cons c body).isInfix)
    cases body with
    | nil =>
      show blockCommentEnd (c :: byteStar :: byteSlash :: s) = s
      rw [blockCommentEnd_step fun hc => absurd hc.2 (by decide)]
      rfl
    | cons d body =>
      show blockCommentEnd (c :: d :: (body ++ byteStar :: byteSlash :: s)) = s
      rw [blockCommentEnd_step]
      · exact ih hbody
      · rintro ⟨rfl, rfl⟩
        exact h ⟨[], body, rfl⟩

theorem executableBody_eq_none (hb : ¬[byteBang] <+: body) (hM : ¬[0x4D, byteBang] <+: body)
    (hm : ¬[0x6D, byteBang] <+: body) (s : Text) :
    executableBody (body ++ byteStar :: s) = none := by
  match body with
  | [] => rfl
  | [c] =>
    have hc : c ≠ byteBang := fun hc => hb ⟨[], by rw [hc]; rfl⟩
    rw [singleton_append, executableBody, if_neg hc, if_neg]
    rintro ⟨-, h⟩
    exact absurd (Option.some.inj h) (by decide)
  | c :: d :: body =>
    have hc : c ≠ byteBang := fun hc => hb ⟨d :: body, by rw [hc]; rfl⟩
    rw [cons_append, executableBody, if_neg hc, if_neg]
    rintro ⟨h, hd⟩
    obtain rfl : d = byteBang := Option.some.inj hd
    rcases h with rfl | rfl
    · exact hM ⟨body, rfl⟩
    · exact hm ⟨body, rfl⟩

theorem dropWhile_ne_newline (h : byteNewline ∉ body) (s : Text) :
    (body ++ byteNewline :: s).dropWhile (· != byteNewline) = byteNewline :: s := by
  rw [dropWhile_append_of_pos fun c hc => by simpa using fun hn : c = byteNewline => h (hn ▸ hc)]
  rfl

theorem quotedSqlTokenEnd_backslash (quote c : UInt8) (s : Text) :
    quotedSqlTokenEnd quote (byteBackslash :: c :: s) = quotedSqlTokenEnd quote s :=
  quotedSqlTokenEnd.eq_1 quote c s

theorem quotedSqlTokenEnd_cons {quote c : UInt8} (h : c ≠ byteBackslash) (s : Text) :
    quotedSqlTokenEnd quote (c :: s) = if c = quote then s else quotedSqlTokenEnd quote s := by
  rw [quotedSqlTokenEnd]
  · simp only [beq_iff_eq]
  · intro d rest hc
    exact absurd hc h

/-! ### What each helper consumes -/

variable {t r s : Text}

theorem blockCommentEnd_suffix (s : Text) : blockCommentEnd s <:+ s := by
  fun_induction blockCommentEnd s with
  | case1 rest => exact ⟨[byteStar, byteSlash], rfl⟩
  | case2 _ c rest _ ih => exact ih.trans (suffix_cons _ _)
  | case3 | case4 => exact suffix_refl _

/-- A quoted token has at least one byte behind its opening quote, if there is one. -/
theorem quotedSqlTokenEnd_suffix_tail (quote : UInt8) (s : Text) :
    quotedSqlTokenEnd quote s <:+ s.tail := by
  fun_induction quotedSqlTokenEnd quote s with
  | case1 c rest ih => exact (ih.trans (tail_suffix rest)).trans (suffix_cons c rest)
  | case2 c rest => exact suffix_refl rest
  | case3 c rest _ _ ih => exact ih.trans (tail_suffix rest)
  | case4 => exact suffix_refl _

theorem quotedSqlTokenEnd_suffix (quote : UInt8) (s : Text) : quotedSqlTokenEnd quote s <:+ s :=
  (quotedSqlTokenEnd_suffix_tail quote s).trans (tail_suffix s)

theorem executableBody_suffix (h : executableBody s = some r) : r <:+ s.tail := by
  cases s with
  | nil => cases h
  | cons c s =>
    rw [executableBody] at h
    split_ifs at h
    · exact Option.some.inj h ▸ dropWhile_suffix _
    · exact Option.some.inj h ▸ (dropWhile_suffix _).trans (tail_suffix s)

private theorem consumes_of_suffix {a : UInt8} (h : r <:+ t) : ∃ w, w ≠ [] ∧ a :: t = w ++ r := by
  obtain ⟨w, rfl⟩ := h
  exact ⟨a :: w, by simp, rfl⟩

/-- Text that is passed over in front of `rest`. -/
inductive Passed : Text → Text → Prop
  | space {c : UInt8} {rest : Text} : isSqlSpace c = true → Passed [c] rest
  | dash {body rest : Text} : byteNewline ∉ body → (∀ c ∈ rest.head?, c = byteNewline) →
      Passed (byteDash :: byteDash :: body) rest
  | hash {body rest : Text} : byteNewline ∉ body → (∀ c ∈ rest.head?, c = byteNewline) →
      Passed (byteHash :: body) rest
  | block {body rest : Text} : ¬[byteStar, byteSlash] <:+: body →
      Passed (byteSlash :: byteStar :: (body ++ [byteStar, byteSlash])) rest
  /-- A block comment that is never closed; its last byte may be left. -/
  | openBlock {body rest : Text} : ¬[byteStar, byteSlash] <:+: body ++ rest → rest.length ≤ 1 →
      Passed (byteSlash :: byteStar :: body) rest
  /-- The opener of an executable comment, with all digits behind it. -/
  | opener {mark digits rest : Text} :
      mark ∈ [[byteBang], [0x4D, byteBang], [0x6D, byteBang]] →
      (∀ c ∈ digits, isDigit c = true) → (∀ c ∈ rest.head?, isDigit c = false) →
      Passed (byteSlash :: byteStar :: (mark ++ digits)) rest

theorem Passed.ne_nil {w rest : Text} (h : Passed w rest) : w ≠ [] := by
  cases h <;> exact cons_ne_nil _ _

/-- The first element behind those a loop passes. -/
theorem head?_dropWhile {p : UInt8 → Bool} : ∀ c ∈ (s.dropWhile p).head?, p c = false := by
  intro c hc
  have hnot := head?_dropWhile_not p s
  rwa [Option.mem_def.mp hc] at hnot

/-- The line of a dash or hash comment ends at its newline. -/
theorem line_cases (s : Text) :
    ∃ body, s = body ++ s.dropWhile (· != byteNewline) ∧ byteNewline ∉ body ∧
      ∀ c ∈ (s.dropWhile (· != byteNewline)).head?, c = byteNewline := by
  refine ⟨s.takeWhile (· != byteNewline), takeWhile_append_dropWhile.symm, ?_, ?_⟩
  · intro hmem
    have hne := all_eq_true.mp all_takeWhile _ hmem
    simp at hne
  · intro c hc
    simpa using head?_dropWhile c hc

theorem passed_opener (mark s : Text)
    (hmark : mark ∈ [[byteBang], [0x4D, byteBang], [0x6D, byteBang]]) :
    ∃ w, byteSlash :: byteStar :: (mark ++ s) = w ++ s.dropWhile isDigit ∧
      Passed w (s.dropWhile isDigit) := by
  refine ⟨byteSlash :: byteStar :: (mark ++ s.takeWhile isDigit), ?_, .opener hmark ?_ ?_⟩
  · rw [cons_append, cons_append, append_assoc, takeWhile_append_dropWhile]
  · exact fun c hc => all_eq_true.mp all_takeWhile c hc
  · exact head?_dropWhile

/-- A byte in front closes nothing unless it is a `*` in front of a `/`. -/
theorem not_closed_cons {c : UInt8} (hbody : ¬[byteStar, byteSlash] <:+: body)
    (h : c = byteStar → body.head? ≠ some byteSlash) : ¬[byteStar, byteSlash] <:+: c :: body := by
  rw [infix_cons_iff]
  rintro (⟨t, ht⟩ | hinfix)
  · obtain ⟨rfl, rfl⟩ := List.cons.inj ht
    exact h rfl rfl
  · exact hbody hinfix

/-- A block comment is closed at its first `*/`, or never. -/
theorem blockCommentEnd_cases (s : Text) :
    (∃ body, s = body ++ byteStar :: byteSlash :: blockCommentEnd s ∧
      ¬[byteStar, byteSlash] <:+: body) ∨
    (¬[byteStar, byteSlash] <:+: s ∧ (blockCommentEnd s).length ≤ 1) := by
  fun_induction blockCommentEnd s with
  | case1 rest => exact .inl ⟨[], rfl, by simp⟩
  | case2 c d rest hopen ih =>
    have hhead : c = byteStar → (d :: rest).head? ≠ some byteSlash := by
      intro hc hd
      exact hopen hc (Option.some.inj hd)
    rcases ih with ⟨body, hsplit, hbody⟩ | ⟨hnever, hlen⟩
    · refine .inl ⟨c :: body, congrArg (c :: ·) hsplit, not_closed_cons hbody fun hc hd => ?_⟩
      -- the first byte of the body is the next byte of the text
      refine hhead hc ?_
      rw [hsplit, List.head?_append, hd]
      rfl
    · exact .inr ⟨not_closed_cons hnever hhead, hlen⟩
  | case3 c => exact .inr ⟨not_closed_cons (by simp) (by simp), Nat.le_refl 1⟩
  | case4 => exact .inr ⟨by simp, Nat.zero_le 1⟩

theorem passed_of_skipSqlComment (h : skipSqlComment s = some r) :
    ∃ w, s = w ++ r ∧ Passed w r := by
  simp only [skipSqlComment, Option.orElse_eq_orElse, Option.orElse_eq_or, Option.or_eq_some_iff]
    at h
  rcases h with h | ⟨-, h | ⟨-, h | ⟨-, h⟩⟩⟩
  · unfold enterExecutableSqlComment at h
    split at h
    next s =>
      cases h
      exact passed_opener [byteBang] s (by simp)
    next m s _ =>
      split_ifs at h with hm
      cases h
      refine passed_opener [m, byteBang] s ?_
      simpa using hm
    next => cases h
  · unfold skipDashSqlComment at h
    split at h <;> cases h
    rename_i s
    obtain ⟨body, hs, hbody, hnewline⟩ := line_cases s
    exact ⟨byteDash :: byteDash :: body, congrArg (byteDash :: byteDash :: ·) hs,
      .dash hbody hnewline⟩
  · unfold skipHashSqlComment at h
    split at h <;> cases h
    rename_i s
    obtain ⟨body, hs, hbody, hnewline⟩ := line_cases s
    exact ⟨byteHash :: body, congrArg (byteHash :: ·) hs, .hash hbody hnewline⟩
  · unfold skipBlockSqlComment at h
    split at h <;> cases h
    rename_i s
    rcases blockCommentEnd_cases s with ⟨body, hs, hbody⟩ | ⟨hnever, hlen⟩
    · refine ⟨byteSlash :: byteStar :: (body ++ [byteStar, byteSlash]), ?_, .block hbody⟩
      rw [cons_append, cons_append, append_assoc]
      exact congrArg (byteSlash :: byteStar :: ·) hs
    · obtain ⟨body, hs⟩ := blockCommentEnd_suffix s
      refine ⟨byteSlash :: byteStar :: body, ?_, .openBlock ?_ hlen⟩
      · exact congrArg (byteSlash :: byteStar :: ·) hs.symm
      · rwa [hs]

/-- A comment that is skipped has at least one byte. -/
theorem skipSqlComment_consumes (h : skipSqlComment s = some r) : ∃ w, w ≠ [] ∧ s = w ++ r := by
  obtain ⟨w, hw, hpassed⟩ := passed_of_skipSqlComment h
  exact ⟨w, hpassed.ne_nil, hw⟩

theorem skipSqlComment_length (h : skipSqlComment s = some r) : r.length < s.length := by
  obtain ⟨w, hw, rfl⟩ := skipSqlComment_consumes h
  have := length_pos_of_ne_nil hw
  rw [length_append]; omega

/-! ### The spacing loop without its fuel -/

theorem skipSpacingLoop_fuel : ∀ (n m : ℕ) (s : Text), s.length ≤ n → s.length ≤ m →
    skipSpacingLoop n s = skipSpacingLoop m s := by
  intro n
  induction n with
  | zero =>
    intro m s hs _
    obtain rfl := length_eq_zero_iff.mp (Nat.le_zero.mp hs)
    cases m <;> rfl
  | succ n ih =>
    intro m s hs hm
    cases h : skipSqlComment (s.dropWhile isSqlSpace) with
    | none => cases m <;> simp [skipSpacingLoop, h]
    | some r =>
      have hr := skipSqlComment_length h
      have hd := (dropWhile_suffix isSqlSpace (l := s)).length_le
      obtain ⟨m, rfl⟩ : ∃ j, m = j + 1 := ⟨m - 1, by omega⟩
      simp only [skipSpacingLoop, h]
      exact ih m r (by omega) (by omega)

/-- One comment is skipped and the loop goes on. -/
theorem skipSqlSpacingAndComments_some (h : skipSqlComment (s.dropWhile isSqlSpace) = some r) :
    skipSqlSpacingAndComments s = skipSqlSpacingAndComments r := by
  have hr := skipSqlComment_length h
  have hd := (dropWhile_suffix isSqlSpace (l := s)).length_le
  obtain ⟨m, hm⟩ : ∃ j, s.length = j + 1 := ⟨s.length - 1, by omega⟩
  rw [skipSqlSpacingAndComments, hm, skipSpacingLoop, h]
  exact skipSpacingLoop_fuel _ _ _ (by omega) (Nat.le_refl _)

/-- No comment follows the spaces: the loop is over. -/
theorem skipSqlSpacingAndComments_none (h : skipSqlComment (s.dropWhile isSqlSpace) = none) :
    skipSqlSpacingAndComments s = s.dropWhile isSqlSpace := by
  unfold skipSqlSpacingAndComments
  cases s.length <;> simp [skipSpacingLoop, h]

theorem skipSqlSpacingAndComments_suffix (s : Text) : skipSqlSpacingAndComments s <:+ s := by
  induction hn : s.length using Nat.strongRecOn generalizing s with
  | _ n ih =>
    subst hn
    have hd := dropWhile_suffix isSqlSpace (l := s)
    cases h : skipSqlComment (s.dropWhile isSqlSpace) with
    | none => rwa [skipSqlSpacingAndComments_none h]
    | some r =>
      obtain ⟨w, -, hw⟩ := skipSqlComment_consumes h
      have hlt := skipSqlComment_length h
      rw [skipSqlSpacingAndComments_some h]
      exact (ih r.length (by have := hd.length_le; omega) r rfl).trans
        ((hw ▸ suffix_append w r : r <:+ s.dropWhile isSqlSpace).trans hd)

/-! ### Tokens of a text -/

theorem sqlTokenEnd_suffix (c : UInt8) (s : Text) : sqlTokenEnd (c :: s) <:+ s := by
  simp only [sqlTokenEnd]
  split_ifs
  · exact quotedSqlTokenEnd_suffix _ _
  · exact dropWhile_suffix _
  · exact suffix_refl _

theorem nextSqlToken_consumes {token : Text} (h : nextSqlToken s = some (token, r)) :
    ∃ w, w ≠ [] ∧ s = w ++ r := by
  obtain ⟨v, hv⟩ := skipSqlSpacingAndComments_suffix s
  unfold nextSqlToken at h
  split at h
  · cases h
  · rename_i c t heq
    cases h
    obtain ⟨w, hw, hwt⟩ := consumes_of_suffix (a := c) (sqlTokenEnd_suffix c t)
    exact ⟨v ++ w, by simp [hw], by rw [← hv, heq, append_assoc, ← hwt]⟩

/-- `next_sql_token` as a scanner: its pieces are tokens with the spacing in front. -/
def sqlTokenScanner : Scanner UInt8 Text := ⟨nextSqlToken, nextSqlToken_consumes⟩

/-- All tokens of a text. -/
def sqlTokens : List Text := sqlTokenScanner.scan sql

/-- `tokens.values.size()`. -/
def policyTokenLimit : ℕ := 32

/-- `collect_sql_policy_tokens`: the loop stops at the array's end or with the text. -/
def collectSqlPolicyTokens : List Text := sqlTokenScanner.run policyTokenLimit sql

theorem collectSqlPolicyTokens_eq_take :
    collectSqlPolicyTokens sql = (sqlTokens sql).take policyTokenLimit :=
  sqlTokenScanner.run_eq_take _ _

/-! ### Spacing and tokens in front of a text -/

variable {b : UInt8}

theorem skipSqlSpacingAndComments_space (h : isSqlSpace b = true) (s : Text) :
    skipSqlSpacingAndComments (b :: s) = skipSqlSpacingAndComments s := by
  have hd : (b :: s).dropWhile isSqlSpace = s.dropWhile isSqlSpace := dropWhile_cons_of_pos h
  cases hc : skipSqlComment (s.dropWhile isSqlSpace) with
  | none => rw [skipSqlSpacingAndComments_none hc, skipSqlSpacingAndComments_none (hd ▸ hc), hd]
  | some r => rw [skipSqlSpacingAndComments_some hc, skipSqlSpacingAndComments_some (hd ▸ hc)]

theorem skipSqlSpacingAndComments_comment (hb : isSqlSpace b = false)
    (h : skipSqlComment (b :: s) = some r) :
    skipSqlSpacingAndComments (b :: s) = skipSqlSpacingAndComments r := by
  refine skipSqlSpacingAndComments_some ?_
  rwa [dropWhile_cons_of_neg (by simp [hb])]

/-- A `#` comment is skipped; the newline that ends it is a space. -/
theorem skipSqlSpacingAndComments_hash (h : byteNewline ∉ body) (s : Text) :
    skipSqlSpacingAndComments (byteHash :: (body ++ byteNewline :: s))
      = skipSqlSpacingAndComments s := by
  have hc : skipSqlComment (byteHash :: (body ++ byteNewline :: s)) = some (byteNewline :: s) :=
    congrArg some (dropWhile_ne_newline h s)
  rw [skipSqlSpacingAndComments_comment (by decide) hc, skipSqlSpacingAndComments_space (by decide)]

/-- A `--` comment is skipped. -/
theorem skipSqlSpacingAndComments_dash (h : byteNewline ∉ body) (s : Text) :
    skipSqlSpacingAndComments (byteDash :: byteDash :: (body ++ byteNewline :: s))
      = skipSqlSpacingAndComments s := by
  have hc : skipSqlComment (byteDash :: byteDash :: (body ++ byteNewline :: s))
      = some (byteNewline :: s) := congrArg some (dropWhile_ne_newline h s)
  rw [skipSqlSpacingAndComments_comment (by decide) hc, skipSqlSpacingAndComments_space (by decide)]

/-- A block comment that is not executable is skipped. -/
theorem skipSqlSpacingAndComments_block (hend : ¬[byteStar, byteSlash] <:+: body)
    (hb : ¬[byteBang] <+: body) (hM : ¬[0x4D, byteBang] <+: body) (hm : ¬[0x6D, byteBang] <+: body)
    (s : Text) :
    skipSqlSpacingAndComments (byteSlash :: byteStar :: (body ++ byteStar :: byteSlash :: s))
      = skipSqlSpacingAndComments s := by
  have hc : skipSqlComment (byteSlash :: byteStar :: (body ++ byteStar :: byteSlash :: s))
      = some s := by
    rw [skipSqlComment, enterExecutableSqlComment_cons, if_pos ⟨rfl, rfl⟩,
      executableBody_eq_none hb hM hm]
    exact congrArg some (blockCommentEnd_append hend s)
  exact skipSqlSpacingAndComments_comment (by decide) hc

/-- The tokens depend on what is left behind the spacing only. -/
theorem sqlTokens_congr (h : skipSqlSpacingAndComments s = skipSqlSpacingAndComments t) :
    sqlTokens s = sqlTokens t := by
  have hnext : sqlTokenScanner.next s = sqlTokenScanner.next t := by
    show nextSqlToken s = nextSqlToken t
    rw [nextSqlToken, nextSqlToken, h]
  cases ht : sqlTokenScanner.next t with
  | none => rw [sqlTokens, sqlTokens, sqlTokenScanner.scan_none (hnext.trans ht),
      sqlTokenScanner.scan_none ht]
  | some kr => rw [sqlTokens, sqlTokens, sqlTokenScanner.scan_some (hnext.trans ht),
      sqlTokenScanner.scan_some ht]

/-- A byte that starts neither spacing nor a comment. -/
def startsToken (b : UInt8) : Bool :=
  !(isSqlSpace b || b == byteSlash || b == byteDash || b == byteHash)

theorem skipSqlSpacingAndComments_of_startsToken (h : startsToken b = true) (s : Text) :
    skipSqlSpacingAndComments (b :: s) = b :: s := by
  simp only [startsToken, Bool.not_eq_true', Bool.or_eq_false_iff, beq_eq_false_iff_ne] at h
  obtain ⟨⟨⟨hspace, hslash⟩, hdash⟩, hhash⟩ := h
  have hd : (b :: s).dropWhile isSqlSpace = b :: s :=
    dropWhile_cons_of_neg (by simp [hspace])
  rw [skipSqlSpacingAndComments_none, hd]
  rw [hd]
  simp [skipSqlComment, enterExecutableSqlComment, skipDashSqlComment, skipHashSqlComment,
    skipBlockSqlComment, hslash, hdash, hhash]

/-- The first token of a text that begins with it. -/
theorem sqlTokens_cons (hb : startsToken b = true) (hend : sqlTokenEnd (b :: (s ++ t)) = t) :
    sqlTokens (b :: (s ++ t)) = (b :: s) :: sqlTokens t := by
  refine sqlTokenScanner.scan_some ?_
  show nextSqlToken (b :: (s ++ t)) = some (b :: s, t)
  rw [nextSqlToken, skipSqlSpacingAndComments_of_startsToken hb]
  simp only [hend]
  congr 2
  have hlen : (b :: (s ++ t)).length - t.length = (b :: s).length := by
    simp only [length_cons, length_append]; omega
  rw [hlen, ← cons_append, take_left]

theorem startsToken_of_isSqlIdentifierChar :
    ∀ b : UInt8, isSqlIdentifierChar b = true → startsToken b = true := by decide +kernel

theorem not_isQuoteByte_of_isSqlIdentifierChar :
    ∀ b : UInt8, isSqlIdentifierChar b = true → isQuoteByte b = false := by decide +kernel

/-- A word in front of a text that does not go on with it. -/
theorem sqlTokens_word {w : Text} (hne : w ≠ []) (hw : ∀ b ∈ w, isSqlIdentifierChar b = true)
    (ht : ∀ b ∈ t.head?, isSqlIdentifierChar b = false) :
    sqlTokens (w ++ t) = w :: sqlTokens t := by
  cases w with
  | nil => exact absurd rfl hne
  | cons b w =>
    have hb := hw b mem_cons_self
    refine sqlTokens_cons (startsToken_of_isSqlIdentifierChar b hb) ?_
    have hdrop : (w ++ t).dropWhile isSqlIdentifierChar = t.dropWhile isSqlIdentifierChar :=
      dropWhile_append_of_pos fun c hc => hw c (mem_cons_of_mem _ hc)
    have hstop : t.dropWhile isSqlIdentifierChar = t := by
      cases t with
      | nil => rfl
      | cons c t => exact dropWhile_cons_of_neg (by simp [ht c rfl])
    simp only [sqlTokenEnd, not_isQuoteByte_of_isSqlIdentifierChar b hb, hb, if_true, hdrop, hstop,
      Bool.false_eq_true, if_false]

example : sqlTokens (ascii "SET /*!50503 x */ = `a b`, 'it\\'s' -- end") =
    ["SET", "x", "*", "/", "=", "`a b`", ",", "'it\\'s'"].map ascii := by decide

end MyLite.Sql

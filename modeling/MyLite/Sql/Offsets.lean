import MyLite.Lib.Offsets
import MyLite.Sql.Tokenizer

namespace MyLite.Sql

open MyLite.Lib List

/-!
# The tokenizer over offsets

`next_sql_token` and its helpers once more, this time as the source runs them: over the whole text
and an offset, with every `sql[…]` a read that fails outside of the text and every loop bounded by a
number of turns.  `none` stands for a read outside or a loop that is not over; a helper that returns
`false` answers `some none`, one that returns `true` the offset it moved to.

* `nextSqlTokenAt` — one call; `tokenViews` — calls until the first one that returns `false`.
* `sqlTokenViews_spec` — the run over a whole text, and what its tokens leave out.

Every helper agrees with its counterpart on suffixes (`Agrees`), so what the tokenizer yields is
`sqlTokens`.
-/

/-! ### Comments -/

/-- `enter_executable_sql_comment`. -/
def enterExecutableSqlCommentAt (sql : Text) (turns offset : ℕ) : Option (Option ℕ) := do
  let isMysqlComment ←
    readsWithin sql offset 2 [(· == byteSlash), (· == byteStar), (· == byteBang)]
  let isMariadbComment ←
    readsWithin sql offset 3
      [(· == byteSlash), (· == byteStar), fun c => c == 0x4D || c == 0x6D, (· == byteBang)]
  if isMysqlComment then some <$> advanceWhile sql isDigit turns (offset + 3)
  else if isMariadbComment then some <$> advanceWhile sql isDigit turns (offset + 4)
  else some none

/-- `skip_dash_sql_comment`. -/
def skipDashSqlCommentAt (sql : Text) (turns offset : ℕ) : Option (Option ℕ) := do
  let isDashComment ← readsWithin sql offset 1 [(· == byteDash), (· == byteDash)]
  if isDashComment then some <$> advanceWhile sql (· != byteNewline) turns (offset + 2)
  else some none

/-- `skip_hash_sql_comment`. -/
def skipHashSqlCommentAt (sql : Text) (turns offset : ℕ) : Option (Option ℕ) := do
  let isHashComment ← readsWithin sql offset 0 [(· == byteHash)]
  if isHashComment then some <$> advanceWhile sql (· != byteNewline) turns (offset + 1)
  else some none

/-- The loop of `skip_block_sql_comment`: it looks for the closing `*/`. -/
def blockCommentLoopAt (sql : Text) : ℕ → ℕ → Option ℕ
  | 0, _ => none
  | turns + 1, offset =>
    if offset + 1 < sql.length then do
      if ← readsAll sql offset [(· == byteStar), (· == byteSlash)] then some offset
      else blockCommentLoopAt sql turns (offset + 1)
    else some offset

/-- `skip_block_sql_comment`. -/
def skipBlockSqlCommentAt (sql : Text) (turns offset : ℕ) : Option (Option ℕ) := do
  let isBlockComment ← readsWithin sql offset 1 [(· == byteSlash), (· == byteStar)]
  if isBlockComment then
    let offset ← blockCommentLoopAt sql turns (offset + 2)
    -- the loop also ends in front of the last byte, where nothing is closed
    if offset + 1 < sql.length then some (some (offset + 2)) else some (some offset)
  else some none

/-- The second helper is called when the first one returned `false`. -/
def orSkip (first second : Option (Option ℕ)) : Option (Option ℕ) := do
  match ← first with
  | some offset => some (some offset)
  | none => second

/-- The `for (;;)` of `skip_sql_spacing_and_comments`. -/
def skipSqlSpacingAndCommentsAt (sql : Text) (turns : ℕ) : ℕ → ℕ → Option ℕ
  | 0, _ => none
  | rounds + 1, offset => do
    let offset ← advanceWhile sql isSqlSpace turns offset
    let skipped ←
      orSkip (enterExecutableSqlCommentAt sql turns offset) <|
      orSkip (skipDashSqlCommentAt sql turns offset) <|
      orSkip (skipHashSqlCommentAt sql turns offset) (skipBlockSqlCommentAt sql turns offset)
    match skipped with
    | some offset => skipSqlSpacingAndCommentsAt sql turns rounds offset
    | none => some offset

/-! ### Tokens -/

/-- The loop of `skip_quoted_sql_token`. -/
def quotedSqlTokenLoopAt (sql : Text) (quote : UInt8) : ℕ → ℕ → Option ℕ
  | 0, _ => none
  | turns + 1, offset =>
    if offset < sql.length then do
      let c ← sql[offset]?
      if c == byteBackslash && offset + 1 < sql.length then
        quotedSqlTokenLoopAt sql quote turns (offset + 2)
      else
        let c ← sql[offset]?
        if c == quote then some (offset + 1) else quotedSqlTokenLoopAt sql quote turns (offset + 1)
    else some offset

/-- `skip_quoted_sql_token`. -/
def skipQuotedSqlTokenAt (sql : Text) (turns offset : ℕ) : Option ℕ := do
  let quote ← sql[offset]?
  quotedSqlTokenLoopAt sql quote turns (offset + 1)

/-- A `std::string_view` into the text. -/
structure StringView where
  start : ℕ
  size : ℕ
  deriving DecidableEq, Repr

/-- The first offset behind a view. -/
def StringView.stop (view : StringView) : ℕ := view.start + view.size

/-- The bytes a view shows. -/
def StringView.text (sql : Text) (view : StringView) : Text := (sql.drop view.start).take view.size

/-- `sql.substr(start, count)`, which throws behind the end of the text. -/
def substr (sql : Text) (start count : ℕ) : Option StringView :=
  if start ≤ sql.length then some ⟨start, min count (sql.length - start)⟩ else none

/-- The end of `next_sql_token`, behind the spacing: the token that starts there and the offset
    behind it. -/
def tokenFrom (sql : Text) (turns start : ℕ) : Option (StringView × ℕ) := do
  let c ← sql[start]?
  if isQuoteByte c then
    let offset ← skipQuotedSqlTokenAt sql turns start
    let token ← substr sql start (offset - start)
    some (token, offset)
  else if isSqlIdentifierChar c then
    let offset ← advanceWhile sql isSqlIdentifierChar turns start
    let token ← substr sql start (offset - start)
    some (token, offset)
  else
    let token ← substr sql start 1
    some (token, start + 1)

/-- `next_sql_token`: the token, or `none` for the return value `false`, and the offset. -/
def nextSqlTokenAt (sql : Text) (turns offset : ℕ) : Option (Option StringView × ℕ) := do
  let start ← skipSqlSpacingAndCommentsAt sql turns turns offset
  if sql.length ≤ start then some (none, start)
  else
    let (token, offset) ← tokenFrom sql turns start
    some (some token, offset)

/-- Calls of `next_sql_token` up to the first one that returns `false`: the tokens and the last
    offset. -/
def tokenViews (sql : Text) (turns : ℕ) : ℕ → ℕ → Option (List StringView × ℕ)
  | 0, _ => none
  | calls + 1, offset => do
    match ← nextSqlTokenAt sql turns offset with
    | (none, offset) => some ([], offset)
    | (some token, offset) =>
      let (tokens, last) ← tokenViews sql turns calls offset
      some (token :: tokens, last)

/-- The run over a text, from offset 0. -/
def sqlTokenViews (sql : Text) : Option (List StringView × ℕ) :=
  tokenViews sql (sql.length + 1) (sql.length + 1) 0

/-! ### Agreement with the tokenizer over suffixes -/

/-- The answer of a helper over offsets and that of its counterpart over suffixes. -/
def Agrees (sql : Text) (answer : Option (Option ℕ)) : Option Text → Prop
  | none => answer = some none
  | some rest => ∃ offset, answer = some (some offset) ∧ At sql offset rest

section Agreement

variable {sql s : Text} {turns offset : ℕ}

theorem Agrees.orSkip {first second : Option (Option ℕ)} {r r' : Option Text}
    (h : Agrees sql first r) (h' : Agrees sql second r') :
    Agrees sql (orSkip first second) (r <|> r') := by
  cases r with
  | none =>
    obtain rfl : first = some none := h
    exact h'
  | some rest =>
    obtain ⟨offset, rfl, hat⟩ := h
    exact ⟨offset, rfl, hat⟩

/-- A loop that passes elements, as the last thing a helper does. -/
theorem agrees_advanceWhile (h : At sql offset s) (hturns : s.length < turns) (p : UInt8 → Bool) :
    Agrees sql (some <$> advanceWhile sql p turns offset) (some (s.dropWhile p)) := by
  obtain ⟨j, hloop, hat⟩ := advanceWhile_at h hturns p
  exact ⟨j, by rw [hloop]; rfl, hat⟩

theorem enterExecutableSqlComment_eq (s : Text) :
    enterExecutableSqlComment s =
      if startsWith [(· == byteSlash), (· == byteStar), (· == byteBang)] s then
        some ((s.drop 3).dropWhile isDigit)
      else if startsWith
          [(· == byteSlash), (· == byteStar), fun c => c == 0x4D || c == 0x6D, (· == byteBang)]
            s then
        some ((s.drop 4).dropWhile isDigit)
      else none := by
  match s with
  | [] => rfl
  | [_] => simp [enterExecutableSqlComment, startsWith]
  | a :: b :: s =>
    rw [enterExecutableSqlComment_cons]
    simp only [startsWith, Bool.and_eq_true, beq_iff_eq, drop_succ_cons]
    by_cases hopen : a = byteSlash ∧ b = byteStar
    · obtain ⟨rfl, rfl⟩ := hopen
      cases s with
      | nil => simp [executableBody, startsWith]
      | cons c s =>
        cases s with
        | nil | cons d s => simp [executableBody, startsWith]
    · rw [if_neg hopen, if_neg fun h => hopen ⟨h.1, h.2.1⟩, if_neg fun h => hopen ⟨h.1, h.2.1⟩]

theorem agrees_enterExecutable (h : At sql offset s) (hturns : s.length < turns) :
    Agrees sql (enterExecutableSqlCommentAt sql turns offset) (enterExecutableSqlComment s) := by
  have hdrop : ∀ n, (s.drop n).length < turns := fun n =>
    lt_of_le_of_lt (drop_suffix n s).length_le hturns
  rw [enterExecutableSqlCommentAt, readsWithin_eq h rfl, readsWithin_eq h rfl,
    enterExecutableSqlComment_eq]
  simp only [Option.bind_eq_bind, Option.bind_some]
  split_ifs with hmysql hmariadb
  · exact agrees_advanceWhile (h.drop_of_startsWith hmysql) (hdrop _) isDigit
  · exact agrees_advanceWhile (h.drop_of_startsWith hmariadb) (hdrop _) isDigit
  · rfl

theorem skipDashSqlComment_eq (s : Text) :
    skipDashSqlComment s =
      if startsWith [(· == byteDash), (· == byteDash)] s then
        some ((s.drop 2).dropWhile (· != byteNewline))
      else none := by
  match s with
  | [] => rfl
  | [_] => simp [skipDashSqlComment, startsWith]
  | a :: b :: s =>
    rw [skipDashSqlComment_cons]
    simp [startsWith]

theorem agrees_skipDash (h : At sql offset s) (hturns : s.length < turns) :
    Agrees sql (skipDashSqlCommentAt sql turns offset) (skipDashSqlComment s) := by
  rw [skipDashSqlCommentAt, readsWithin_eq h rfl, skipDashSqlComment_eq]
  simp only [Option.bind_eq_bind, Option.bind_some]
  split_ifs with hdash
  · exact agrees_advanceWhile (h.drop_of_startsWith hdash)
      (lt_of_le_of_lt (drop_suffix 2 s).length_le hturns) _
  · rfl

theorem agrees_skipHash (h : At sql offset s) (hturns : s.length < turns) :
    Agrees sql (skipHashSqlCommentAt sql turns offset) (skipHashSqlComment s) := by
  rw [skipHashSqlCommentAt, readsWithin_eq h rfl]
  simp only [Option.bind_eq_bind, Option.bind_some]
  cases s with
  | nil => rfl
  | cons a s =>
    simp only [startsWith, Bool.and_true, beq_iff_eq]
    rw [skipHashSqlComment_cons]
    split_ifs with hhash
    · exact agrees_advanceWhile h.succ (Nat.lt_of_succ_lt hturns) _
    · rfl

/-- With fewer than two bytes left nothing can be closed. -/
theorem blockCommentEnd_eq_self (h : s.length ≤ 1) : blockCommentEnd s = s := by
  match s with
  | [] => rfl
  | [c] => rw [blockCommentEnd]
  | _ :: _ :: _ => simp at h

/-- The loop of a block comment ends at the closing `*/`, or in front of the last byte. -/
theorem blockCommentLoopAt_at (h : At sql offset s) (hturns : s.length < turns) :
    ∃ j, blockCommentLoopAt sql turns offset = some j ∧
      (At sql j (byteStar :: byteSlash :: blockCommentEnd s) ∨
        (¬j + 1 < sql.length ∧ At sql j (blockCommentEnd s))) := by
  induction turns generalizing offset s with
  | zero => cases hturns
  | succ turns ih =>
    have hlen := h.length_add
    rw [blockCommentLoopAt]
    by_cases hguard : offset + 1 < sql.length
    · obtain ⟨c, d, t, rfl⟩ : ∃ c d t, s = c :: d :: t := by
        match s with
        | [] | [_] => simp only [length_nil, length_singleton] at hlen; omega
        | c :: d :: t => exact ⟨c, d, t, rfl⟩
      rw [if_pos hguard, readsAll_eq h (by simp)]
      simp only [startsWith, Option.bind_eq_bind, Option.bind_some, Bool.and_true, Bool.and_eq_true,
        beq_iff_eq]
      split_ifs with hclose
      · obtain ⟨rfl, rfl⟩ := hclose
        exact ⟨offset, rfl, .inl h⟩
      · rw [blockCommentEnd_step hclose]
        exact ih h.succ (Nat.lt_of_succ_lt_succ hturns)
    · rw [if_neg hguard, blockCommentEnd_eq_self (by omega)]
      exact ⟨offset, rfl, .inr ⟨hguard, h⟩⟩

theorem agrees_skipBlock (h : At sql offset s) (hturns : s.length < turns) :
    Agrees sql (skipBlockSqlCommentAt sql turns offset) (skipBlockSqlComment s) := by
  rw [skipBlockSqlCommentAt, readsWithin_eq h rfl]
  simp only [Option.bind_eq_bind, Option.bind_some]
  match s with
  | [] => rfl
  | [_] => simp [skipBlockSqlComment, startsWith, Agrees]
  | a :: b :: s =>
    simp only [startsWith, Bool.and_true, Bool.and_eq_true, beq_iff_eq]
    rw [skipBlockSqlComment_cons]
    split_ifs with hopen
    · have hrest : s.length < turns := Nat.lt_of_succ_lt (Nat.lt_of_succ_lt hturns)
      obtain ⟨j, hloop, hend⟩ := blockCommentLoopAt_at h.succ.succ hrest
      rw [hloop, Option.bind_some]
      rcases hend with hclosed | ⟨hguard, hopen⟩
      · rw [if_pos hclosed.succ.lt]
        exact ⟨j + 2, rfl, hclosed.succ.succ⟩
      · rw [if_neg hguard]
        exact ⟨j, rfl, hopen⟩
    · rfl

/-- The four helpers together. -/
theorem agrees_skipSqlComment (h : At sql offset s) (hturns : s.length < turns) :
    Agrees sql
      (orSkip (enterExecutableSqlCommentAt sql turns offset) <|
        orSkip (skipDashSqlCommentAt sql turns offset) <|
        orSkip (skipHashSqlCommentAt sql turns offset) (skipBlockSqlCommentAt sql turns offset))
      (skipSqlComment s) :=
  (agrees_enterExecutable h hturns).orSkip <| (agrees_skipDash h hturns).orSkip <|
    (agrees_skipHash h hturns).orSkip (agrees_skipBlock h hturns)

/-- The spacing loop is over after one round more than there are comments. -/
theorem skipSqlSpacingAndCommentsAt_at {rounds : ℕ} (h : At sql offset s)
    (hturns : s.length < turns) (hrounds : s.length < rounds) :
    ∃ j, skipSqlSpacingAndCommentsAt sql turns rounds offset = some j ∧
      At sql j (skipSqlSpacingAndComments s) := by
  induction rounds generalizing offset s with
  | zero => cases hrounds
  | succ rounds ih =>
    obtain ⟨i, hspaces, hat⟩ := advanceWhile_at h hturns isSqlSpace
    have hle := (dropWhile_suffix isSqlSpace (l := s)).length_le
    have hagrees := agrees_skipSqlComment hat (lt_of_le_of_lt hle hturns)
    rw [skipSqlSpacingAndCommentsAt, hspaces]
    simp only [Option.bind_eq_bind, Option.bind_some]
    cases hcomment : skipSqlComment (s.dropWhile isSqlSpace) with
    | none =>
      rw [hcomment] at hagrees
      rw [show _ = some none from hagrees, skipSqlSpacingAndComments_none hcomment]
      exact ⟨i, rfl, hat⟩
    | some rest =>
      have hlt := skipSqlComment_length hcomment
      rw [hcomment] at hagrees
      obtain ⟨j, hskip, hrest⟩ := hagrees
      rw [hskip, skipSqlSpacingAndComments_some hcomment]
      exact ih hrest (by omega) (by omega)

/-! ### Tokens -/

variable {r : Text} {c : UInt8} {j : ℕ}

/-- A byte that hides nothing: it is no backslash, or the last byte. -/
theorem quotedSqlTokenEnd_plain {quote : UInt8} (h : c = byteBackslash → s = []) :
    quotedSqlTokenEnd quote (c :: s) = if c = quote then s else quotedSqlTokenEnd quote s := by
  rw [quotedSqlTokenEnd]
  · simp only [beq_iff_eq]
  · rintro d rest rfl hs
    cases (h rfl).symm.trans hs

theorem quotedSqlTokenLoopAt_at (h : At sql offset s) (hturns : s.length < turns) (quote : UInt8) :
    ∃ j, quotedSqlTokenLoopAt sql quote turns offset = some j ∧
      At sql j (quotedSqlTokenEnd quote s) := by
  induction turns generalizing offset s with
  | zero => cases hturns
  | succ turns ih =>
    cases s with
    | nil =>
      refine ⟨offset, ?_, h⟩
      rw [quotedSqlTokenLoopAt, if_neg (by rw [h.eq_length]; exact Nat.lt_irrefl _)]
    | cons c s =>
      rw [length_cons] at hturns
      rw [quotedSqlTokenLoopAt, if_pos h.lt, h.read]
      simp only [Option.bind_eq_bind, Option.bind_some, Bool.and_eq_true, beq_iff_eq,
        decide_eq_true_eq]
      by_cases hescape : c = byteBackslash ∧ offset + 1 < sql.length
      · -- the byte behind the backslash is passed unread
        rw [if_pos hescape]
        obtain ⟨rfl, hguard⟩ := hescape
        cases s with
        | nil => exact absurd h.succ.eq_length (Nat.ne_of_lt hguard)
        | cons d s =>
          rw [quotedSqlTokenEnd_backslash]
          exact ih h.succ.succ (Nat.lt_of_succ_lt (Nat.lt_of_succ_lt_succ hturns))
      · have hplain : c = byteBackslash → s = [] := fun hc =>
          eq_nil_of_length_eq_zero (by
            have hlen := h.succ.length_add
            have hguard : ¬offset + 1 < sql.length := fun hlt => hescape ⟨hc, hlt⟩
            omega)
        rw [if_neg hescape, quotedSqlTokenEnd_plain hplain]
        split_ifs with hquote
        · exact ⟨offset + 1, rfl, h.succ⟩
        · exact ih h.succ (Nat.lt_of_succ_lt_succ hturns)

/-- The view a call returns when it stops at `j`, and the text it shows. -/
theorem substr_at {t : Text} (h : At sql offset t) (h' : At sql j r) (hr : r <:+ t) :
    substr sql offset (j - offset) = some ⟨offset, j - offset⟩ ∧
      StringView.text sql ⟨offset, j - offset⟩ = t.take (t.length - r.length) ∧
      offset + (j - offset) = j := by
  have hlen := h.length_add
  have hlen' := h'.length_add
  have hle := hr.length_le
  refine ⟨?_, ?_, by omega⟩
  · rw [substr, if_pos h.1, Nat.min_eq_left (by omega)]
  · rw [StringView.text, h.2, show j - offset = t.length - r.length by omega]

/-- The three kinds of token. -/
theorem tokenFrom_at (h : At sql offset (c :: s)) (hturns : (c :: s).length < turns) :
    ∃ j, At sql j (sqlTokenEnd (c :: s)) ∧
      tokenFrom sql turns offset = some (⟨offset, j - offset⟩, j) := by
  have hview : ∀ j, At sql j (sqlTokenEnd (c :: s)) →
      substr sql offset (j - offset) = some ⟨offset, j - offset⟩ := fun j hj =>
    (substr_at h hj ((sqlTokenEnd_suffix c s).trans (suffix_cons c s))).1
  rw [tokenFrom, h.read]
  simp only [Option.bind_eq_bind, Option.bind_some]
  by_cases hquote : isQuoteByte c = true
  · have hend : sqlTokenEnd (c :: s) = quotedSqlTokenEnd c s := by rw [sqlTokenEnd, if_pos hquote]
    obtain ⟨j, hloop, hj⟩ := quotedSqlTokenLoopAt_at h.succ (Nat.lt_of_succ_lt hturns) c
    rw [← hend] at hj
    refine ⟨j, hj, ?_⟩
    rw [if_pos hquote, skipQuotedSqlTokenAt, h.read]
    simp only [Option.bind_eq_bind, Option.bind_some, hloop, hview j hj]
  rw [if_neg hquote]
  by_cases hword : isSqlIdentifierChar c = true
  · have hend : sqlTokenEnd (c :: s) = (c :: s).dropWhile isSqlIdentifierChar := by
      rw [sqlTokenEnd, if_neg hquote, if_pos hword, dropWhile_cons_of_pos hword]
    obtain ⟨j, hloop, hj⟩ := advanceWhile_at h hturns isSqlIdentifierChar
    rw [← hend] at hj
    refine ⟨j, hj, ?_⟩
    simp only [if_pos hword, hloop, Option.bind_some, hview j hj]
  · -- any other byte is a token of its own
    have hend : sqlTokenEnd (c :: s) = s := by rw [sqlTokenEnd, if_neg hquote, if_neg hword]
    have hj : At sql (offset + 1) (sqlTokenEnd (c :: s)) := by
      rw [hend]
      exact h.succ
    have hone := hview (offset + 1) hj
    rw [Nat.add_sub_cancel_left] at hone
    refine ⟨offset + 1, hj, ?_⟩
    rw [if_neg hword, hone, Nat.add_sub_cancel_left]
    rfl

/-- What one call does at the offset of `s`: it returns `false` at the end of the text, or it
    returns a view of the next token and stops behind it. -/
inductive Call (sql s : Text) : Option StringView × ℕ → Prop
  | ended : nextSqlToken s = none → skipSqlSpacingAndComments s = [] → Call sql s (none, sql.length)
  | token {view : StringView} {rest : Text} :
      nextSqlToken s = some (view.text sql, rest) →
      At sql view.start (skipSqlSpacingAndComments s) → At sql view.stop rest → 0 < view.size →
      Call sql s (some view, view.stop)

/-- **One call.** It reads inside of the text only and agrees with its counterpart over suffixes. -/
theorem nextSqlTokenAt_call (h : At sql offset s) (hturns : s.length < turns) :
    ∃ answer, nextSqlTokenAt sql turns offset = some answer ∧ Call sql s answer := by
  obtain ⟨i, hskip, hat⟩ := skipSqlSpacingAndCommentsAt_at h hturns hturns
  have hle := (skipSqlSpacingAndComments_suffix s).length_le
  rw [nextSqlTokenAt, hskip]
  simp only [Option.bind_eq_bind, Option.bind_some]
  cases hrest : skipSqlSpacingAndComments s with
  | nil =>
    rw [hrest] at hat
    refine ⟨(none, sql.length), ?_, .ended ?_ hrest⟩
    · rw [if_pos (Nat.le_of_eq hat.eq_length.symm), hat.eq_length]
    · rw [nextSqlToken, hrest]
  | cons c t =>
    rw [hrest] at hat hle
    obtain ⟨j, hend, htoken⟩ := tokenFrom_at hat (lt_of_le_of_lt hle hturns)
    have hsuffix := sqlTokenEnd_suffix c t
    obtain ⟨-, htext, hstop⟩ := substr_at hat hend (hsuffix.trans (suffix_cons c t))
    have hlt : i < j := by
      have hlen := hat.length_add
      have hlen' := hend.length_add
      have hshorter := hsuffix.length_le
      rw [length_cons] at hlen
      omega
    have hcall : Call sql s (some ⟨i, j - i⟩, StringView.stop ⟨i, j - i⟩) := by
      have hnext : nextSqlToken s = some (StringView.text sql ⟨i, j - i⟩,
          sqlTokenEnd (c :: t)) := by
        rw [nextSqlToken, hrest, htext]
      refine .token hnext ?_ ?_ (Nat.sub_pos_of_lt hlt)
      · rwa [hrest]
      · rwa [StringView.stop, hstop]
    refine ⟨_, ?_, hcall⟩
    rw [if_neg (Nat.not_le_of_lt hat.lt), htoken, StringView.stop, hstop]
    rfl

/-! ### What lies between the tokens -/

/-- The text between two offsets is passed over. -/
def PassedAt (sql : Text) (start stop : ℕ) : Prop :=
  start < stop ∧ stop ≤ sql.length ∧ Passed ((sql.drop start).take (stop - start)) (sql.drop stop)

theorem passedAt_of_at {w : Text} (h : At sql offset (w ++ r)) (hw : Passed w r) :
    PassedAt sql offset (offset + w.length) := by
  have hpos := length_pos_of_ne_nil hw.ne_nil
  refine ⟨by omega, h.append.1, ?_⟩
  rwa [Nat.add_sub_cancel_left, h.between, h.append.2]

/-- Nothing but passed text lies between two offsets. -/
abbrev Gap (sql : Text) : ℕ → ℕ → Prop := Relation.ReflTransGen (PassedAt sql)

theorem Gap.le {i k : ℕ} (h : Gap sql i k) : i ≤ k := by
  induction h with
  | refl => exact Nat.le_refl _
  | tail _ hpassed ih => exact ih.trans (Nat.le_of_lt hpassed.1)

theorem gap_dropWhile (h : At sql offset s) (h' : At sql j (s.dropWhile isSqlSpace)) :
    Gap sql offset j := by
  induction s generalizing offset with
  | nil =>
    rw [h.eq_length, ← h'.eq_length]
  | cons c s ih =>
    cases hc : isSqlSpace c with
    | true =>
      rw [dropWhile_cons_of_pos hc] at h'
      exact .head (passedAt_of_at (show At sql offset ([c] ++ s) from h) (.space hc)) (ih h.succ h')
    | false =>
      rw [dropWhile_cons_of_neg (by simp [hc])] at h'
      have hlen := h.length_add
      have hlen' := h'.length_add
      obtain rfl : offset = j := by omega
      exact .refl

/-- What `skip_sql_spacing_and_comments` skips. -/
theorem gap_skipSqlSpacingAndComments (h : At sql offset s)
    (h' : At sql j (skipSqlSpacingAndComments s)) : Gap sql offset j := by
  induction hn : s.length using Nat.strongRecOn generalizing s offset with
  | _ n ih =>
    subst hn
    have hsuffix := dropWhile_suffix isSqlSpace (l := s)
    obtain ⟨w, hw⟩ := hsuffix
    have hspaces : At sql (offset + w.length) (s.dropWhile isSqlSpace) :=
      At.append (by rwa [hw])
    have hgap := gap_dropWhile h hspaces
    cases hcomment : skipSqlComment (s.dropWhile isSqlSpace) with
    | none =>
      rw [skipSqlSpacingAndComments_none hcomment] at h'
      have hlen := hspaces.length_add
      have hlen' := h'.length_add
      obtain rfl : offset + w.length = j := by omega
      exact hgap
    | some r =>
      have hlt := skipSqlComment_length hcomment
      have hle := (dropWhile_suffix isSqlSpace (l := s)).length_le
      obtain ⟨v, hv, hpassed⟩ := passed_of_skipSqlComment hcomment
      rw [hv] at hspaces
      rw [skipSqlSpacingAndComments_some hcomment] at h'
      exact hgap.trans (.head (passedAt_of_at hspaces hpassed)
        (ih r.length (by omega) hspaces.append h' rfl))

/-- The tokens in order, with gaps in front of, between and behind them. -/
inductive Covers (sql : Text) : ℕ → List StringView → Prop
  | ended {i : ℕ} : Gap sql i sql.length → Covers sql i []
  | token {i : ℕ} {view : StringView} {views : List StringView} :
      Gap sql i view.start → 0 < view.size → view.stop ≤ sql.length →
      Covers sql view.stop views → Covers sql i (view :: views)

/-- **The run.** Calls from any offset on end, cover the rest of the text and yield its tokens. -/
theorem tokenViews_covers {calls : ℕ} (h : At sql offset s) (hturns : s.length < turns)
    (hcalls : s.length < calls) :
    ∃ views, tokenViews sql turns calls offset = some (views, sql.length) ∧
      Covers sql offset views ∧ views.map (StringView.text sql) = sqlTokens s := by
  induction calls generalizing offset s with
  | zero => cases hcalls
  | succ calls ih =>
    obtain ⟨answer, hanswer, hcall⟩ := nextSqlTokenAt_call h hturns
    rw [tokenViews, hanswer]
    simp only [Option.bind_eq_bind, Option.bind_some]
    cases hcall with
    | ended hnext hskip =>
      have hend : At sql sql.length (skipSqlSpacingAndComments s) := by
        rw [hskip]
        exact ⟨Nat.le_refl _, drop_length⟩
      exact ⟨[], rfl, .ended (gap_skipSqlSpacingAndComments h hend),
        (sqlTokenScanner.scan_none hnext).symm⟩
    | @token view rest hnext hstart hstop hsize =>
      have hlt := sqlTokenScanner.next_length hnext
      obtain ⟨views, hviews, hcovers, htexts⟩ := ih hstop (by omega) (by omega)
      refine ⟨view :: views, ?_, .token (gap_skipSqlSpacingAndComments h hstart) hsize hstop.1
        hcovers, ?_⟩
      · simp only [hviews, Option.bind_some]
      · rw [map_cons, htexts]
        exact (sqlTokenScanner.scan_some hnext).symm

end Agreement

/-! ### Every byte of a text -/

section Coverage

variable {sql : Text}

variable {i : ℕ} {views : List StringView}

theorem Gap.exists_passedAt {k n : ℕ} (h : Gap sql i k) (hi : i ≤ n) (hk : n < k) :
    ∃ start stop, i ≤ start ∧ stop ≤ k ∧ start ≤ n ∧ n < stop ∧ PassedAt sql start stop := by
  induction h with
  | refl => omega
  | @tail j k hgap hpassed ih =>
    by_cases hj : n < j
    · obtain ⟨start, stop, hstart, hstop, hpass⟩ := ih hj
      exact ⟨start, stop, hstart, hstop.trans (Nat.le_of_lt hpassed.1), hpass⟩
    · exact ⟨j, k, Gap.le hgap, Nat.le_refl _, Nat.le_of_not_lt hj, hk, hpassed⟩

theorem Covers.le_start (h : Covers sql i views) : ∀ view ∈ views, i ≤ view.start := by
  induction h with
  | ended => exact fun view hview => absurd hview not_mem_nil
  | @token i view views hgap _ _ _ ih =>
    intro v hv
    rcases mem_cons.mp hv with rfl | hv
    · exact hgap.le
    · have hle := ih v hv
      rw [StringView.stop] at hle
      exact hgap.le.trans (Nat.le_of_add_right_le hle)

theorem Covers.inside (h : Covers sql i views) :
    ∀ view ∈ views, 0 < view.size ∧ view.stop ≤ sql.length := by
  induction h with
  | ended => exact fun view hview => absurd hview not_mem_nil
  | token _ hsize hstop _ ih =>
    intro v hv
    rcases mem_cons.mp hv with rfl | hv
    · exact ⟨hsize, hstop⟩
    · exact ih v hv

theorem Covers.ordered (h : Covers sql i views) : views.Pairwise fun v w => v.stop ≤ w.start := by
  induction h with
  | ended => exact .nil
  | token _ _ _ hrest ih => exact .cons hrest.le_start ih

/-- A byte is in a token, or in passed text that no token overlaps. -/
theorem Covers.byte {n : ℕ} (h : Covers sql i views) (hi : i ≤ n) (hn : n < sql.length) :
    (∃ view ∈ views, view.start ≤ n ∧ n < view.stop) ∨
      ∃ start stop, i ≤ start ∧ start ≤ n ∧ n < stop ∧ PassedAt sql start stop ∧
        ∀ view ∈ views, stop ≤ view.start ∨ view.stop ≤ start := by
  induction h with
  | ended hgap =>
    obtain ⟨start, stop, hstart, -, hlo, hhi, hpass⟩ := hgap.exists_passedAt hi hn
    exact .inr ⟨start, stop, hstart, hlo, hhi, hpass,
      fun view hview => absurd hview not_mem_nil⟩
  | @token i view views hgap hsize _ hrest ih =>
    have hlt : view.start < view.stop := Nat.lt_add_of_pos_right hsize
    by_cases hstart : n < view.start
    · -- in the gap in front of the token
      obtain ⟨start, stop, hge, hle, hlo, hhi, hpass⟩ := hgap.exists_passedAt hi hstart
      refine .inr ⟨start, stop, hge, hlo, hhi, hpass, fun v hv => .inl ?_⟩
      rcases mem_cons.mp hv with rfl | hv
      · exact hle
      · exact hle.trans ((Nat.le_of_lt hlt).trans (hrest.le_start v hv))
    · by_cases hstop : n < view.stop
      · exact .inl ⟨view, mem_cons_self, Nat.le_of_not_lt hstart, hstop⟩
      · rcases ih (Nat.le_of_not_lt hstop) with ⟨v, hv, hin⟩ |
          ⟨start, stop, hge, hlo, hhi, hpass, hout⟩
        · exact .inl ⟨v, mem_cons_of_mem view hv, hin⟩
        · refine .inr ⟨start, stop, ?_, hlo, hhi, hpass, fun v hv => ?_⟩
          · exact hgap.le.trans ((Nat.le_of_lt hlt).trans hge)
          · rcases mem_cons.mp hv with rfl | hv
            · exact .inr hge
            · exact hout v hv

end Coverage

/-- **Progress and coverage.** On every text the calls of `next_sql_token` from offset 0 end without
    a read outside of it, the last one with the offset at its end.  Their tokens are non-empty,
    in order and disjoint, and a byte that is in none of them is part of a space, a comment or the
    opener of an executable comment. -/
theorem sqlTokenViews_spec (sql : Text) :
    ∃ views, sqlTokenViews sql = some (views, sql.length) ∧
      views.map (StringView.text sql) = sqlTokens sql ∧
      (∀ view ∈ views, 0 < view.size ∧ view.stop ≤ sql.length) ∧
      (views.Pairwise fun v w => v.stop ≤ w.start) ∧
      ∀ n < sql.length, (∃ view ∈ views, view.start ≤ n ∧ n < view.stop) ∨
        ∃ start stop, start ≤ n ∧ n < stop ∧ PassedAt sql start stop ∧
          ∀ view ∈ views, stop ≤ view.start ∨ view.stop ≤ start := by
  obtain ⟨views, hviews, hcovers, htexts⟩ :=
    tokenViews_covers (At.zero sql) (Nat.lt_succ_self _) (Nat.lt_succ_self _)
  refine ⟨views, hviews, htexts, hcovers.inside, hcovers.ordered, fun n hn => ?_⟩
  rcases hcovers.byte (Nat.zero_le n) hn with hin | ⟨start, stop, -, hpassed⟩
  · exact .inl hin
  · exact .inr ⟨start, stop, hpassed⟩

-- the last byte of a block comment that is not closed is left as a token
example : sqlTokenViews (ascii "a/*!40101 'b' /* c") = some ([⟨0, 1⟩, ⟨10, 3⟩, ⟨17, 1⟩], 18) := by
  decide

end MyLite.Sql

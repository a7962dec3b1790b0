import MyLite.Sql.Tokenizer

namespace MyLite.Sql

open MyLite.Lib

/-!
# Letter case and the tokenizer

No decision of the tokenizer depends on the case of a letter: the bytes it looks for are no
letters, except the `M` of an executable comment, which it takes in either case.

* `sqlTokens_fold` — the tokens of a text in upper case are the tokens of the text in upper case.
-/

/-! ### Bytes -/

/-- A test that does not see letter case. -/
def IgnoresCase (p : UInt8 → Bool) : Prop := ∀ b, p (upperByte b) = p b

instance (p : UInt8 → Bool) : Decidable (IgnoresCase p) := decidableForallByte _

theorem dropWhile_fold {p : UInt8 → Bool} (hp : IgnoresCase p) (s : Text) :
    (fold s).dropWhile p = fold (s.dropWhile p) := by
  unfold fold
  rw [List.dropWhile_map]
  exact congrArg _ (congrArg (List.dropWhile · s) (funext hp))

/-- A byte that is no letter is found where it was. -/
theorem upperByte_eq_iff {c : UInt8} (hc : IgnoresCase (· == c)) {b : UInt8} :
    upperByte b = c ↔ b = c := by
  have h := hc b
  rw [Bool.eq_iff_iff, beq_iff_eq, beq_iff_eq] at h
  exact h

variable (s : Text)

theorem head?_fold : (fold s).head? = s.head?.map upperByte := List.head?_map

theorem head?_fold_eq_iff {c : UInt8} (hc : IgnoresCase (· == c)) (s : Text) :
    (fold s).head? = some c ↔ s.head? = some c := by
  rw [head?_fold]
  cases s with
  | nil => exact iff_of_false nofun nofun
  | cons b s =>
    rw [List.head?_cons, Option.map_some, Option.some_inj, Option.some_inj, upperByte_eq_iff hc]

/-! ### Comments and quoted tokens -/

theorem blockCommentEnd_fold : blockCommentEnd (fold s) = fold (blockCommentEnd s) := by
  induction s with
  | nil => rfl
  | cons c s ih =>
    cases s with
    | nil => simp [fold, blockCommentEnd]
    | cons d s =>
      have hend : upperByte c = byteStar ∧ upperByte d = byteSlash ↔ c = byteStar ∧ d = byteSlash :=
        and_congr (upperByte_eq_iff (by decide +kernel)) (upperByte_eq_iff (by decide +kernel))
      by_cases h : c = byteStar ∧ d = byteSlash
      · obtain ⟨rfl, rfl⟩ := h
        rfl
      · rw [blockCommentEnd_step h, ← ih]
        exact blockCommentEnd_step (mt hend.mp h) (fold s)

theorem quotedSqlTokenEnd_fold {quote : UInt8} (hquote : isQuoteByte quote = true) :
    ∀ s : Text, quotedSqlTokenEnd quote (fold s) = fold (quotedSqlTokenEnd quote s)
  | [] => rfl
  | c :: s => by
    have hback : upperByte c = byteBackslash ↔ c = byteBackslash :=
      upperByte_eq_iff (by decide +kernel)
    have hend : upperByte c = quote ↔ c = quote := by
      rw [isQuoteByte, Bool.or_eq_true, Bool.or_eq_true, beq_iff_eq, beq_iff_eq, beq_iff_eq]
        at hquote
      rcases hquote with (rfl | rfl) | rfl
      · exact upperByte_eq_iff (by decide +kernel)
      · exact upperByte_eq_iff (by decide +kernel)
      · exact upperByte_eq_iff (by decide +kernel)
    by_cases hc : c = byteBackslash
    · subst hc
      cases s with
      | nil =>
        show (if byteBackslash == quote then ([] : Text) else []) = _
        rw [ite_self]
        show ([] : Text) = fold (if byteBackslash == quote then ([] : Text) else [])
        rw [ite_self]
        rfl
      | cons d s =>
        rw [quotedSqlTokenEnd_backslash]
        exact (quotedSqlTokenEnd_backslash quote (upperByte d) (fold s)).trans
          (quotedSqlTokenEnd_fold hquote s)
    · have hstep := @quotedSqlTokenEnd_cons quote _ (mt hback.mp hc) (fold s)
      rw [quotedSqlTokenEnd_cons hc]
      refine hstep.trans ?_
      by_cases h : c = quote
      · rw [if_pos h, if_pos (hend.mpr h)]
      · rw [if_neg h, if_neg (mt hend.mp h), quotedSqlTokenEnd_fold hquote s]

theorem executableBody_fold : executableBody (fold s) = (executableBody s).map fold := by
  cases s with
  | nil => rfl
  | cons c s =>
    have hdigit : IgnoresCase isDigit := by decide +kernel
    have hbang : upperByte c = byteBang ↔ c = byteBang := upperByte_eq_iff (by decide +kernel)
    have hletter : ∀ b : UInt8, (upperByte b = 0x4D ∨ upperByte b = 0x6D) ↔
        (b = 0x4D ∨ b = 0x6D) := by
      decide +kernel
    have hbody : (upperByte c = 0x4D ∨ upperByte c = 0x6D) ∧ (fold s).head? = some byteBang ↔
        (c = 0x4D ∨ c = 0x6D) ∧ s.head? = some byteBang :=
      and_congr (hletter c) (head?_fold_eq_iff (by decide +kernel) s)
    show (if upperByte c = byteBang then some ((fold s).dropWhile isDigit)
      else if (upperByte c = 0x4D ∨ upperByte c = 0x6D) ∧ (fold s).head? = some byteBang then
        some ((fold s).tail.dropWhile isDigit) else none) = _
    rw [executableBody]
    by_cases h : c = byteBang
    · rw [if_pos h, if_pos (hbang.mpr h), dropWhile_fold hdigit]
      rfl
    · rw [if_neg h, if_neg (mt hbang.mp h)]
      by_cases hM : (c = 0x4D ∨ c = 0x6D) ∧ s.head? = some byteBang
      · rw [if_pos hM, if_pos (hbody.mpr hM)]
        have htail : (fold s).tail = fold s.tail := List.map_tail.symm
        rw [htail, dropWhile_fold hdigit]
        rfl
      · rw [if_neg hM, if_neg (mt hbody.mp hM)]
        rfl

theorem skipSqlComment_fold : skipSqlComment (fold s) = (skipSqlComment s).map fold := by
  have hline : IgnoresCase (· != byteNewline) := by decide +kernel
  have hhash : ∀ b : UInt8, upperByte b = byteHash ↔ b = byteHash :=
    fun b => upperByte_eq_iff (by decide +kernel)
  have hdash : ∀ b : UInt8, upperByte b = byteDash ↔ b = byteDash :=
    fun b => upperByte_eq_iff (by decide +kernel)
  have hslash : ∀ b : UInt8, upperByte b = byteSlash ↔ b = byteSlash :=
    fun b => upperByte_eq_iff (by decide +kernel)
  have hstar : ∀ b : UInt8, upperByte b = byteStar ↔ b = byteStar :=
    fun b => upperByte_eq_iff (by decide +kernel)
  simp only [skipSqlComment, Option.orElse_eq_orElse, Option.orElse_eq_or]
  rcases s with _ | ⟨c, _ | ⟨d, s⟩⟩
  · rfl
  · have h1 : ∀ b : UInt8, enterExecutableSqlComment [b] = none ∧ skipDashSqlComment [b] = none ∧
        skipBlockSqlComment [b] = none := by decide +kernel
    show (enterExecutableSqlComment [upperByte c]).or ((skipDashSqlComment [upperByte c]).or
      ((skipHashSqlComment [upperByte c]).or (skipBlockSqlComment [upperByte c]))) = _
    rw [(h1 c).1, (h1 c).2.1, (h1 c).2.2, (h1 _).1, (h1 _).2.1, (h1 _).2.2]
    simp only [Option.none_or, Option.or_none, skipHashSqlComment_cons, hhash]
    split_ifs
    · rfl
    · rfl
  · show (enterExecutableSqlComment (upperByte c :: upperByte d :: fold s)).or
      ((skipDashSqlComment (upperByte c :: upperByte d :: fold s)).or
        ((skipHashSqlComment (upperByte c :: fold (d :: s))).or
          (skipBlockSqlComment (upperByte c :: upperByte d :: fold s)))) = _
    simp only [enterExecutableSqlComment_cons, skipDashSqlComment_cons, skipHashSqlComment_cons,
      skipBlockSqlComment_cons, hhash, hdash, hslash, hstar, executableBody_fold,
      dropWhile_fold hline, blockCommentEnd_fold]
    by_cases hblock : c = byteSlash ∧ d = byteStar
    · obtain ⟨rfl, rfl⟩ := hblock
      cases executableBody s with
      | some r | none => rfl
    · simp only [if_neg hblock, Option.none_or, Option.or_none]
      split_ifs
      · rfl
      · rfl
      · rfl
      · rfl

/-! ### Tokens -/

theorem skipSqlSpacingAndComments_fold :
    skipSqlSpacingAndComments (fold s) = fold (skipSqlSpacingAndComments s) := by
  have hspace : IgnoresCase isSqlSpace := by decide +kernel
  induction hn : s.length using Nat.strongRecOn generalizing s with
  | _ n ih =>
    subst hn
    have hskip : skipSqlComment ((fold s).dropWhile isSqlSpace)
        = (skipSqlComment (s.dropWhile isSqlSpace)).map fold := by
      rw [dropWhile_fold hspace, skipSqlComment_fold]
    cases h : skipSqlComment (s.dropWhile isSqlSpace) with
    | none =>
      rw [h] at hskip
      rw [skipSqlSpacingAndComments_none h, skipSqlSpacingAndComments_none hskip,
        dropWhile_fold hspace]
    | some r =>
      rw [h] at hskip
      have hlt := skipSqlComment_length h
      have hle := (List.dropWhile_suffix isSqlSpace (l := s)).length_le
      rw [skipSqlSpacingAndComments_some h, skipSqlSpacingAndComments_some hskip]
      exact ih r.length (by omega) r rfl

theorem sqlTokenEnd_fold : sqlTokenEnd (fold s) = fold (sqlTokenEnd s) := by
  cases s with
  | nil => rfl
  | cons c s =>
    have hquote : isQuoteByte (upperByte c) = isQuoteByte c :=
      (by decide +kernel : IgnoresCase isQuoteByte) c
    have hself : ∀ b : UInt8, isQuoteByte b = true → upperByte b = b := by decide +kernel
    have hword : IgnoresCase isSqlIdentifierChar := isSqlIdentifierChar_upperByte
    show (if isQuoteByte (upperByte c) then _ else if isSqlIdentifierChar
      (upperByte c) then _ else _) = _
    rw [hquote, hword c, sqlTokenEnd]
    split_ifs with hq
    · rw [hself c hq]
      exact quotedSqlTokenEnd_fold hq s
    · exact dropWhile_fold hword s
    · rfl

theorem nextSqlToken_fold :
    nextSqlToken (fold s) = (nextSqlToken s).map fun kr => (fold kr.1, fold kr.2) := by
  rw [nextSqlToken, nextSqlToken, skipSqlSpacingAndComments_fold]
  cases skipSqlSpacingAndComments s with
  | nil => rfl
  | cons c rest =>
    have hend := sqlTokenEnd_fold (c :: rest)
    show some ((fold (c :: rest)).take ((fold (c :: rest)).length
      - (sqlTokenEnd (fold (c :: rest))).length), sqlTokenEnd (fold (c :: rest))) = _
    rw [hend, length_fold, length_fold]
    refine congrArg some (Prod.ext ?_ rfl)
    exact List.map_take.symm

/-- **Letter case.** Folding a text folds its tokens. -/
theorem sqlTokens_fold : sqlTokens (fold s) = (sqlTokens s).map fold :=
  sqlTokenScanner.scan_map (g := fold) nextSqlToken_fold s

end MyLite.Sql

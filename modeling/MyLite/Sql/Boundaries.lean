import MyLite.Sql.Pieces

namespace MyLite.Sql

open MyLite.Lib List

/-!
# What stands behind a piece

Where a piece of a text ends depends on the piece and on very little of what follows it: the first
byte behind it, and for a block comment that there is something behind it at all.  So a text can be
changed behind a boundary without moving the boundaries in front.

* `nextPiece_replace` — one piece, in front of another text whose first byte means the same.
* `emits_replace` — all pieces up to a boundary.
* `emits_insert` — a space and anything else directly behind a token.
-/

/-! ### Loops that stop at a boundary -/

variable {u r : Text} {b c : UInt8}

theorem dropWhile_replace {p : UInt8 → Bool} (h : (u ++ b :: r).dropWhile p = b :: r)
    (hc : p c = true → p b = true) (t : Text) : (u ++ c :: t).dropWhile p = c :: t := by
  induction u with
  | nil =>
    have hb : ¬p b = true := by
      intro hb
      rw [nil_append, dropWhile_cons_of_pos hb] at h
      have := (dropWhile_suffix p (l := r)).length_le
      rw [h, length_cons] at this
      omega
    exact dropWhile_cons_of_neg fun hpc => hb (hc hpc)
  | cons a u ih =>
    by_cases ha : p a = true
    · rw [cons_append, dropWhile_cons_of_pos ha] at h ⊢
      exact ih h
    · rw [cons_append, dropWhile_cons_of_neg ha] at h
      have := congrArg List.length h
      simp only [length_cons, length_append] at this
      omega

/-- A block comment that leaves two bytes behind has been closed, so it ends there whatever
    follows. -/
theorem blockCommentEnd_replace (h : blockCommentEnd (u ++ b :: c :: r) = b :: c :: r) :
    2 ≤ u.length ∧ ∀ t, blockCommentEnd (u ++ t) = t := by
  rcases blockCommentEnd_cases (u ++ b :: c :: r) with ⟨body, hsplit, hbody⟩ | ⟨-, hlen⟩
  · rw [h] at hsplit
    obtain rfl : u = body ++ [byteStar, byteSlash] :=
      append_cancel_right (hsplit.trans (append_assoc body [_, _] (b :: c :: r)).symm)
    refine ⟨by simp, fun t => ?_⟩
    rw [append_assoc]
    exact blockCommentEnd_append hbody t
  · rw [h, length_cons, length_cons] at hlen
    omega

/-- A quoted token that leaves something behind has been closed, so it ends there whatever
    follows. -/
theorem quotedSqlTokenEnd_replace {q : UInt8} : ∀ {u : Text} {b : UInt8} {r : Text},
    quotedSqlTokenEnd q (u ++ b :: r) = b :: r → ∀ t, quotedSqlTokenEnd q (u ++ t) = t
  | [], b, r, h => by
    have hle := (quotedSqlTokenEnd_suffix_tail q (b :: r)).length_le
    rw [nil_append] at h
    rw [h, tail_cons, length_cons] at hle
    omega
  | a :: u, b, r, h => by
    by_cases hback : a = byteBackslash
    · subst hback
      cases u with
      | nil =>
        exfalso
        rw [singleton_append, quotedSqlTokenEnd_backslash] at h
        have := (quotedSqlTokenEnd_suffix q r).length_le
        rw [h, length_cons] at this
        omega
      | cons d u =>
        have hstep : ∀ t, quotedSqlTokenEnd q (byteBackslash :: d :: u ++ t) =
            quotedSqlTokenEnd q (u ++ t) := fun t => quotedSqlTokenEnd_backslash q d (u ++ t)
        rw [hstep] at h
        exact fun t => (hstep t).trans (quotedSqlTokenEnd_replace h t)
    · have hstep : ∀ t, quotedSqlTokenEnd q (a :: u ++ t) =
          if a = q then u ++ t else quotedSqlTokenEnd q (u ++ t) :=
        fun t => quotedSqlTokenEnd_cons hback (u ++ t)
      rw [hstep] at h
      intro t
      rw [hstep]
      split_ifs at h ⊢
      · obtain rfl : u = [] := append_left_eq_self.mp h
        rfl
      · exact quotedSqlTokenEnd_replace h t

/-! ### One piece -/

variable {s t token : Text} {k : Piece}

/-- A piece is not empty. -/
theorem nextPiece_ne : nextPiece s ≠ some (k, s) := by
  intro h
  have hlt := pieceScanner.next_length (show pieceScanner.next s = some (k, s) from h)
  exact absurd hlt (Nat.lt_irrefl _)

theorem nextPiece_hash (s : Text) :
    nextPiece (byteHash :: s) = some (.comment, s.dropWhile (· != byteNewline)) := rfl

theorem nextPiece_dash (s : Text) :
    nextPiece (byteDash :: byteDash :: s) = some (.comment, s.dropWhile (· != byteNewline)) := rfl

/-- Behind `/*`, the body of an executable comment or the rest of a block comment. -/
theorem nextPiece_slash (s : Text) : nextPiece (byteSlash :: byteStar :: s) =
    match executableBody s with
    | some r => some (.marker, r)
    | none => some (.comment, blockCommentEnd s) := by
  have hexec : enterExecutableSqlComment (byteSlash :: byteStar :: s) = executableBody s := by
    rw [enterExecutableSqlComment_cons, if_pos ⟨rfl, rfl⟩]
  rw [nextPiece, if_neg (by decide), hexec]
  cases hbody : executableBody s with
  | some r => rfl
  | none =>
    have hskip : skipSqlComment (byteSlash :: byteStar :: s) = some (blockCommentEnd s) := by
      rw [skipSqlComment, hexec, hbody]
      rfl
    rw [hskip]

theorem nextPiece_token (hspace : isSqlSpace c = false)
    (hcomment : skipSqlComment (c :: (u ++ t)) = none) (hend : sqlTokenEnd (c :: (u ++ t)) = t) :
    nextPiece (c :: (u ++ t)) = some (.token (c :: u), t) := by
  have hexec : enterExecutableSqlComment (c :: (u ++ t)) = none := by
    cases h : enterExecutableSqlComment (c :: (u ++ t)) with
    | none => rfl
    | some r => cases hcomment.symm.trans (skipSqlComment_of_marker h)
  have hlen : (c :: (u ++ t)).length - t.length = (c :: u).length := by
    simp only [length_cons, length_append]
    omega
  rw [nextPiece, if_neg (by rw [hspace]; decide), hexec, hcomment, hend, hlen, ← cons_append,
    take_left]

/-- `c` goes on with what stands in front of it only if `b` does. -/
structure NoMore (b c : UInt8) : Prop where
  word : isSqlIdentifierChar c = true → isSqlIdentifierChar b = true
  dash : c = byteDash → b = byteDash
  star : c = byteStar → b = byteStar

/-- A token ends where it does in front of any byte that does not go on with it. -/
theorem nextPiece_token_replace (h : nextPiece (u ++ b :: r) = some (.token token, b :: r))
    (hc : NoMore b c) (t : Text) :
    token = u ∧ nextPiece (u ++ c :: t) = some (.token u, c :: t) := by
  cases u with
  | nil => exact absurd h nextPiece_ne
  | cons a u =>
    rw [cons_append] at h ⊢
    rcases nextPiece_cases h with ⟨-, hk, -⟩ | ⟨-, -, hk⟩ | ⟨hspace, hcomment, hend, hk⟩
    · cases hk
    · rcases hk with hk | hk
      · cases hk
      · cases hk
    · have hsome := isSome_skipSqlComment_cons a (u ++ b :: r)
      rw [hcomment] at hsome
      simp only [Option.isSome_none, Bool.false_eq, Bool.or_eq_false_iff, Bool.and_eq_false_imp,
        beq_iff_eq, beq_eq_false_iff_ne] at hsome
      obtain ⟨⟨hhash, hdash⟩, hslash⟩ := hsome
      have htoken := (nextPiece_token hspace hcomment hend.symm).symm.trans h
      obtain ⟨hpiece, -⟩ := Prod.mk.inj (Option.some.inj htoken)
      -- The byte behind a token of one byte is the only one that could make it a comment.
      have hnone : skipSqlComment (a :: (u ++ c :: t)) = none := by
        apply skipSqlComment_eq_none hhash
        · intro ha
          cases u with
          | nil => exact fun hhead => hdash ha (congrArg some (hc.dash (Option.some.inj hhead)))
          | cons d u => exact hdash ha
        · intro ha
          cases u with
          | nil => exact fun hhead => hslash ha (congrArg some (hc.star (Option.some.inj hhead)))
          | cons d u => exact hslash ha
      have hend' : sqlTokenEnd (a :: (u ++ c :: t)) = c :: t := by
        simp only [sqlTokenEnd] at hend ⊢
        split_ifs at hend ⊢
        · exact quotedSqlTokenEnd_replace hend.symm (c :: t)
        · exact dropWhile_replace hend.symm hc.word t
        · obtain rfl : u = [] := append_left_eq_self.mp hend.symm
          rfl
      exact ⟨(Piece.token.inj hpiece).symm, nextPiece_token hspace hnone hend'⟩

/-- The two bytes mean the same behind a piece. -/
def sameBehind (b c : UInt8) : Bool :=
  isSqlIdentifierChar b == isSqlIdentifierChar c && isDigit b == isDigit c &&
    (b == byteStar) == (c == byteStar) && (b == byteDash) == (c == byteDash) &&
    (b == byteNewline) == (c == byteNewline)

theorem sameBehind_self (b : UInt8) : sameBehind b b = true := by simp [sameBehind]

theorem NoMore.of_sameBehind (h : sameBehind b c = true) : NoMore b c := by
  simp only [sameBehind, Bool.and_eq_true, beq_iff_eq] at h
  obtain ⟨⟨⟨⟨hword, -⟩, hstar⟩, hdash⟩, -⟩ := h
  refine ⟨fun hc => hword.trans hc, fun hc => ?_, fun hc => ?_⟩
  · rwa [hc, beq_self_eq_true, beq_iff_eq] at hdash
  · rwa [hc, beq_self_eq_true, beq_iff_eq] at hstar

variable {d : UInt8}

/-- The marker of an executable comment ends in front of the first byte that is no digit. -/
theorem executableBody_replace (hc : isDigit c = true → isDigit b = true) (t : Text) :
    (executableBody (u ++ b :: d :: r) = some (b :: d :: r) →
      executableBody (u ++ c :: t) = some (c :: t)) ∧
    (2 ≤ u.length → executableBody (u ++ b :: d :: r) = none →
      executableBody (u ++ c :: t) = none) := by
  cases u with
  | nil =>
    refine ⟨fun h => ?_, fun hlen => absurd hlen (by decide)⟩
    -- The marker has at least one byte.
    have hle := (executableBody_suffix h).length_le
    rw [nil_append, tail_cons, length_cons] at hle
    omega
  | cons m u =>
    rw [cons_append, cons_append, executableBody, executableBody]
    by_cases hbang : m = byteBang
    · rw [if_pos hbang, if_pos hbang]
      refine ⟨fun h => ?_, fun _ h => absurd h (Option.some_ne_none _)⟩
      rw [dropWhile_replace (Option.some.inj h) hc]
    · rw [if_neg hbang, if_neg hbang]
      cases u with
      | nil =>
        refine ⟨fun h => ?_, fun hlen => absurd hlen (Nat.not_succ_le_self 1)⟩
        exfalso
        split_ifs at h
        have hle := (dropWhile_suffix isDigit (l := d :: r)).length_le
        rw [show (d :: r).dropWhile isDigit = b :: d :: r from Option.some.inj h] at hle
        simp only [length_cons] at hle
        omega
      | cons e u =>
        by_cases hletter : (m = 0x4D ∨ m = 0x6D) ∧ e = byteBang
        · rw [if_pos ⟨hletter.1, congrArg some hletter.2⟩,
            if_pos ⟨hletter.1, congrArg some hletter.2⟩]
          refine ⟨fun h => ?_, fun _ h => absurd h (Option.some_ne_none _)⟩
          exact congrArg some (dropWhile_replace (u := u) (Option.some.inj h) hc t)
        · have hneg : ∀ s : Text, ¬((m = 0x4D ∨ m = 0x6D) ∧ (e :: u ++ s).head? = some byteBang) :=
            fun s hs => hletter ⟨hs.1, Option.some.inj hs.2⟩
          rw [if_neg (hneg _), if_neg (hneg _)]
          exact ⟨fun h => absurd h.symm (Option.some_ne_none _), fun _ _ => rfl⟩

/-- **One piece** ends where it does in front of any text whose first byte means the same, if two
    bytes or more were left behind it. -/
theorem nextPiece_replace (h : nextPiece (u ++ b :: d :: r) = some (k, b :: d :: r))
    (hc : sameBehind b c = true) (t : Text) : nextPiece (u ++ c :: t) = some (k, c :: t) := by
  have hc' := hc
  simp only [sameBehind, Bool.and_eq_true, beq_iff_eq] at hc'
  obtain ⟨⟨⟨⟨-, hdigit⟩, -⟩, -⟩, hnewline⟩ := hc'
  have hline : ∀ {v : Text}, (v ++ b :: d :: r).dropWhile (· != byteNewline) = b :: d :: r →
      (v ++ c :: t).dropWhile (· != byteNewline) = c :: t := by
    intro v hv
    refine dropWhile_replace hv (fun hne => ?_) t
    rw [bne, Bool.not_eq_true'] at hne ⊢
    exact hnewline.trans hne
  cases u with
  | nil => exact absurd h nextPiece_ne
  | cons a u =>
    rw [cons_append] at h
    rcases nextPiece_cases h with ⟨hspace, rfl, heq⟩ | ⟨hspace, hskip, hk⟩ | ⟨-, -, -, hk⟩
    · obtain rfl : u = [] := append_left_eq_self.mp heq.symm
      rw [singleton_append, nextPiece, if_pos hspace]
    · rw [cons_append]
      have hsome := isSome_skipSqlComment_cons a (u ++ b :: d :: r)
      rw [hskip] at hsome
      simp only [Option.isSome_some, Bool.true_eq, Bool.or_eq_true, Bool.and_eq_true, beq_iff_eq]
        at hsome
      rcases hsome with (rfl | ⟨rfl, hhead⟩) | ⟨rfl, hhead⟩
      · rw [nextPiece_hash] at h ⊢
        obtain ⟨rfl, hend⟩ := Prod.mk.inj (Option.some.inj h)
        rw [hline hend]
      · cases u with
        | nil =>
          obtain rfl : b = byteDash := Option.some.inj hhead
          rw [nil_append, nextPiece_dash] at h
          have hle := (dropWhile_suffix (· != byteNewline) (l := d :: r)).length_le
          rw [(Prod.mk.inj (Option.some.inj h)).2] at hle
          simp only [length_cons] at hle
          omega
        | cons e u =>
          obtain rfl : e = byteDash := Option.some.inj hhead
          rw [cons_append, nextPiece_dash] at h ⊢
          obtain ⟨rfl, hend⟩ := Prod.mk.inj (Option.some.inj h)
          rw [hline hend]
      · cases u with
        | nil =>
          -- The comment would have swallowed the first byte behind it.
          obtain rfl : b = byteStar := Option.some.inj hhead
          have hsuffix : byteStar :: d :: r <:+ d :: r := by
            rw [nil_append, nextPiece_slash] at h
            split at h
            · next hbody =>
              cases h
              exact (executableBody_suffix hbody).trans (tail_suffix _)
            · rw [← (Prod.mk.inj (Option.some.inj h)).2]
              exact blockCommentEnd_suffix (d :: r)
          exact absurd hsuffix.length_le (by simp)
        | cons e u =>
          obtain rfl : e = byteStar := Option.some.inj hhead
          rw [cons_append, nextPiece_slash] at h ⊢
          obtain ⟨hmarker, hblock⟩ :=
            executableBody_replace (u := u) (r := r) (d := d) (fun hd => hdigit.trans hd) t
          cases hbody : executableBody (u ++ b :: d :: r) with
          | some s =>
            rw [hbody] at h
            obtain ⟨rfl, rfl⟩ := Prod.mk.inj (Option.some.inj h)
            rw [hmarker hbody]
          | none =>
            rw [hbody] at h
            obtain ⟨rfl, hend⟩ := Prod.mk.inj (Option.some.inj h)
            obtain ⟨hlen, hreplace⟩ := blockCommentEnd_replace hend
            rw [hblock hlen hbody, hreplace]
    · rw [hk] at h ⊢
      obtain ⟨htoken, hnext⟩ :=
        nextPiece_token_replace (u := a :: u) h (.of_sameBehind hc) t
      rw [hnext, htoken]

/-! ### All pieces up to a boundary -/

variable {ks : List Piece}

/-- **Boundaries** in front of a position stay where they are when the text behind it is replaced
    by one whose first byte means the same. -/
theorem emits_replace (h : pieceScanner.Emits (u ++ b :: d :: r) ks (b :: d :: r))
    (hc : sameBehind b c = true) (t : Text) : pieceScanner.Emits (u ++ c :: t) ks (c :: t) := by
  generalize hs : u ++ b :: d :: r = s at h
  generalize hr : b :: d :: r = r' at h
  induction h generalizing u with
  | refl =>
    obtain rfl : u = [] := append_left_eq_self.mp (hs.trans hr.symm)
    exact .refl _
  | @step s m r' k ks hnext hrest ih =>
    subst hr
    obtain ⟨w, -, hw⟩ := pieceScanner.consumes hnext
    obtain ⟨v, rfl⟩ := hrest.suffix
    -- The piece ends at the position, or at a byte of `u` in front of it.
    have hu : u = w ++ v := append_cancel_right
      (by rw [hs, hw, append_assoc] : u ++ b :: d :: r = w ++ v ++ b :: d :: r)
    rw [hu, append_assoc]
    refine .step ?_ (ih rfl rfl)
    rw [hw] at hnext
    cases v with
    | nil => exact nextPiece_replace hnext hc t
    | cons e v =>
      cases v with
      | nil | cons f v => exact nextPiece_replace hnext (sameBehind_self e) _

theorem noMore_space (h : isSqlSpace c = true) (b : UInt8) : NoMore b c := by
  have hbyte : ∀ c : UInt8, isSqlSpace c = true →
      isSqlIdentifierChar c = false ∧ c ≠ byteDash ∧ c ≠ byteStar := by decide +kernel
  obtain ⟨hword, hdash, hstar⟩ := hbyte c h
  exact ⟨fun hc => absurd (hword.symm.trans hc) Bool.false_ne_true, fun hc => absurd hc hdash,
    fun hc => absurd hc hstar⟩

/-- **Insertion.** What is inserted directly behind a token, with a space at its front, moves no
    boundary in front of it. -/
theorem emits_insert {v : Text} (h : pieceScanner.Emits (u ++ (v ++ b :: r)) ks (v ++ b :: r))
    (htoken : nextPiece (v ++ b :: r) = some (.token token, b :: r)) (hc : isSqlSpace c = true)
    (t : Text) :
    pieceScanner.Emits (u ++ (v ++ b :: r)) (ks ++ [.token v]) (b :: r) ∧
      pieceScanner.Emits (u ++ (v ++ c :: t)) (ks ++ [.token v]) (c :: t) := by
  obtain ⟨rfl, hnext⟩ := nextPiece_token_replace htoken (noMore_space hc b) t
  refine ⟨h.trans (.step htoken (.refl _)), ?_⟩
  have hfront : pieceScanner.Emits (u ++ (token ++ c :: t)) ks (token ++ c :: t) := by
    cases token with
    | nil => exact absurd htoken nextPiece_ne
    | cons a v =>
      cases v with
      | nil | cons e v => exact emits_replace h (sameBehind_self a) _
  exact hfront.trans (.step hnext (.refl _))

/-- The tokens among the pieces up to a boundary, and those behind it. -/
theorem sqlTokens_of_emits (h : pieceScanner.Emits s ks t) :
    sqlTokens s = ks.filterMap Piece.token? ++ sqlTokens t := by
  rw [sqlTokens_eq_filterMap, h.scan_eq, filterMap_append, ← sqlTokens_eq_filterMap]

end MyLite.Sql

import MyLite.Sql.Tokenizer

namespace MyLite.Sql

open MyLite.Lib List

/-!
# What the tokenizer passes

`next_sql_token` returns tokens and drops what stands between them.  The scanner here stops at
everything: a space, a comment, the marker of an executable comment, a token.  Its tokens are those
of the tokenizer (`sqlTokens_eq_filterMap`), and its pieces say of every single byte whether the
policy sees it.

* `seen u s` — the byte at which `s` begins is in no comment and no quoted token of `u ++ s`.
* `seen_boundary_or_word` — behind a byte that is seen there is a boundary, or a word goes on.
-/

variable {c : UInt8}

/-- A piece of a text. -/
inductive Piece
  | space
  /-- The start of an executable comment, with the digits behind it. -/
  | marker
  | comment
  | token (text : Text)
  deriving DecidableEq, Repr

/-- The piece at the head of a text and the text behind it. -/
def nextPiece : Text → Option (Piece × Text)
  | [] => none
  | c :: rest =>
    if isSqlSpace c then some (.space, rest)
    else match enterExecutableSqlComment (c :: rest), skipSqlComment (c :: rest) with
      | some r, _ => some (.marker, r)
      | none, some r => some (.comment, r)
      | none, none =>
        some (.token ((c :: rest).take ((c :: rest).length - (sqlTokenEnd (c :: rest)).length)),
          sqlTokenEnd (c :: rest))

variable {s r : Text}

theorem skipSqlComment_of_marker (h : enterExecutableSqlComment s = some r) :
    skipSqlComment s = some r := by
  simp [skipSqlComment, h]

variable {rest : Text} {k : Piece}

/-- The cases of a piece. -/
theorem nextPiece_cases (h : nextPiece (c :: rest) = some (k, r)) :
    (isSqlSpace c = true ∧ k = .space ∧ r = rest) ∨
    (isSqlSpace c = false ∧ skipSqlComment (c :: rest) = some r ∧ (k = .marker ∨ k = .comment)) ∨
    (isSqlSpace c = false ∧ skipSqlComment (c :: rest) = none ∧ r = sqlTokenEnd (c :: rest) ∧
      k = .token ((c :: rest).take ((c :: rest).length - r.length))) := by
  simp only [nextPiece] at h
  split_ifs at h with hspace
  · cases h
    exact .inl ⟨hspace, rfl, rfl⟩
  · rw [Bool.not_eq_true] at hspace
    split at h
    next hm =>
      cases h
      exact .inr (.inl ⟨hspace, skipSqlComment_of_marker hm, .inl rfl⟩)
    next hc =>
      cases h
      exact .inr (.inl ⟨hspace, hc, .inr rfl⟩)
    next hc =>
      cases h
      exact .inr (.inr ⟨hspace, hc, rfl, rfl⟩)

theorem nextPiece_consumes (h : nextPiece s = some (k, r)) : ∃ w, w ≠ [] ∧ s = w ++ r := by
  cases s with
  | nil => cases h
  | cons c rest =>
    rcases nextPiece_cases h with ⟨-, -, rfl⟩ | ⟨-, hc, -⟩ | ⟨-, -, rfl, -⟩
    · exact ⟨[c], cons_ne_nil _ _, rfl⟩
    · exact skipSqlComment_consumes hc
    · obtain ⟨w, hw⟩ := sqlTokenEnd_suffix c rest
      exact ⟨c :: w, cons_ne_nil _ _, by rw [cons_append, hw]⟩

/-- The scanner that stops at every piece. -/
def pieceScanner : Scanner UInt8 Piece := ⟨nextPiece, nextPiece_consumes⟩

theorem nextPiece_isSome (c : UInt8) (rest : Text) :
    ∃ k r, nextPiece (c :: rest) = some (k, r) := by
  simp only [nextPiece]
  split_ifs
  · exact ⟨_, _, rfl⟩
  · split <;> exact ⟨_, _, rfl⟩

/-! ### Single steps -/

theorem isSome_skipSqlComment_cons (c : UInt8) (rest : Text) :
    (skipSqlComment (c :: rest)).isSome =
      (c == byteHash || (c == byteDash && rest.head? == some byteDash) ||
        (c == byteSlash && rest.head? == some byteStar)) := by
  have hexec : enterExecutableSqlComment (c :: rest) ≠ none →
      c = byteSlash ∧ rest.head? = some byteStar := by
    intro h
    cases rest with
    | nil => simp [enterExecutableSqlComment] at h
    | cons d rest =>
      rw [enterExecutableSqlComment_cons] at h
      split_ifs at h with hcd
      · exact ⟨hcd.1, congrArg some hcd.2⟩
      · exact absurd rfl h
  rw [Bool.eq_iff_iff, ← Option.ne_none_iff_isSome]
  simp only [skipSqlComment, Option.orElse_eq_orElse, Option.orElse_eq_or, ne_eq,
    Option.or_eq_none_iff, Bool.or_eq_true, Bool.and_eq_true, beq_iff_eq]
  cases rest with
  | nil =>
    rw [skipHashSqlComment_cons]
    simp [enterExecutableSqlComment, skipDashSqlComment, skipBlockSqlComment]
  | cons d rest =>
    rw [skipDashSqlComment_cons, skipHashSqlComment_cons, skipBlockSqlComment_cons]
    by_cases hslash : c = byteSlash ∧ d = byteStar
    · simp [hslash]
    · have hnone : enterExecutableSqlComment (c :: d :: rest) = none := by
        rw [enterExecutableSqlComment_cons, if_neg hslash]
      by_cases hdash : c = byteDash ∧ d = byteDash
      · simp [hdash]
      · by_cases hhash : c = byteHash <;> simp [hnone, hslash, hdash, hhash]

theorem skipSqlComment_eq_none (hhash : c ≠ byteHash)
    (hdash : c = byteDash → rest.head? ≠ some byteDash)
    (hslash : c = byteSlash → rest.head? ≠ some byteStar) : skipSqlComment (c :: rest) = none := by
  rw [← Option.not_isSome_iff_eq_none, isSome_skipSqlComment_cons]
  simp only [Bool.or_eq_true, Bool.and_eq_true, beq_iff_eq, not_or, not_and]
  exact ⟨⟨hhash, hdash⟩, hslash⟩

theorem reaches_space {b : UInt8} (h : isSqlSpace b = true) (s : Text) :
    pieceScanner.Reaches (b :: s) s :=
  .step (k := .space) (by show nextPiece (b :: s) = _; rw [nextPiece, if_pos h])

theorem reaches_comment (hspace : isSqlSpace c = false) (h : skipSqlComment (c :: rest) = some r) :
    pieceScanner.Reaches (c :: rest) r := by
  obtain ⟨k, t, hnext⟩ := nextPiece_isSome c rest
  have hstep : pieceScanner.Reaches (c :: rest) t := .step hnext
  rcases nextPiece_cases hnext with ⟨hs, -⟩ | ⟨-, hc, -⟩ | ⟨-, hc, -⟩
  · exact absurd hs (by simp [hspace])
  · rw [h] at hc
    cases hc
    exact hstep
  · rw [h] at hc
    cases hc

theorem reaches_token (hspace : isSqlSpace c = false) (h : skipSqlComment (c :: rest) = none) :
    pieceScanner.Reaches (c :: rest) (sqlTokenEnd (c :: rest)) := by
  obtain ⟨k, t, hnext⟩ := nextPiece_isSome c rest
  have hstep : pieceScanner.Reaches (c :: rest) t := .step hnext
  rcases nextPiece_cases hnext with ⟨hs, -⟩ | ⟨-, hc, -⟩ | ⟨-, -, rfl, -⟩
  · exact absurd hs (by simp [hspace])
  · rw [h] at hc
    cases hc
  · exact hstep

/-- A byte that is a token of its own. -/
theorem reaches_symbol (hspace : isSqlSpace c = false) (hquote : isQuoteByte c = false)
    (hword : isSqlIdentifierChar c = false) (h : skipSqlComment (c :: rest) = none) :
    pieceScanner.Reaches (c :: rest) rest := by
  have hstep := reaches_token hspace h
  simp only [sqlTokenEnd, hquote, hword, Bool.false_eq_true, if_false] at hstep
  exact hstep

/-! ### The tokens among the pieces -/

/-- The token a piece is. -/
def Piece.token? : Piece → Option Text
  | .token t => some t
  | _ => none

theorem sqlTokens_of_nextPiece (h : nextPiece s = some (k, r)) :
    sqlTokens s = k.token?.toList ++ sqlTokens r := by
  cases s with
  | nil => cases h
  | cons c rest =>
    rcases nextPiece_cases h with ⟨hspace, rfl, rfl⟩ | ⟨hspace, hc, hk⟩ | ⟨hspace, hc, hr, rfl⟩
    · exact sqlTokens_congr (skipSqlSpacingAndComments_space hspace _)
    · have htoken : k.token? = none := by rcases hk with rfl | rfl <;> rfl
      rw [htoken]
      exact sqlTokens_congr (skipSqlSpacingAndComments_comment hspace hc)
    · have hd : (c :: rest).dropWhile isSqlSpace = c :: rest :=
        dropWhile_cons_of_neg (by simp [hspace])
      have hskip : skipSqlSpacingAndComments (c :: rest) = c :: rest := by
        rw [skipSqlSpacingAndComments_none (hd.symm ▸ hc), hd]
      refine sqlTokenScanner.scan_some ?_
      show nextSqlToken (c :: rest) = _
      rw [nextSqlToken, hskip, hr]

/-- **Refinement.** The tokenizer's tokens are the tokens among the pieces. -/
theorem sqlTokens_eq_filterMap (s : Text) :
    sqlTokens s = (pieceScanner.scan s).filterMap Piece.token? := by
  induction hn : s.length using Nat.strongRecOn generalizing s with
  | _ n ih =>
    subst hn
    cases s with
    | nil => rfl
    | cons c rest =>
      obtain ⟨k, r, h⟩ := nextPiece_isSome c rest
      have hnext : pieceScanner.next (c :: rest) = some (k, r) := h
      rw [sqlTokens_of_nextPiece h, pieceScanner.scan_some hnext,
        ih r.length (pieceScanner.next_length hnext) r rfl]
      cases k <;> rfl

/-! ### Bytes that are seen -/

/-- A piece whose bytes are in no comment and no quoted token. -/
def Piece.isSeen : Piece → Bool
  | .space => true
  | .token t => !t.head?.any isQuoteByte
  | _ => false

/-- In the text `u ++ s`, the byte at which `s` begins is in no comment and no quoted token. -/
def seen (u s : Text) : Bool := (pieceScanner.marks (u ++ s))[u.length]?.any Piece.isSeen

/-- A text whose first byte begins neither a comment nor a quoted token. -/
def startsSeen : Text → Bool
  | [] => false
  | c :: rest =>
    !(isQuoteByte c || c == byteHash || (c == byteDash && rest.head? == some byteDash) ||
      (c == byteSlash && rest.head? == some byteStar))

theorem not_startsComment_of_isSqlSpace : ∀ b : UInt8, isSqlSpace b = true →
    isQuoteByte b = false ∧ b ≠ byteHash ∧ b ≠ byteDash ∧ b ≠ byteSlash := by decide +kernel

theorem head?_take_of_sqlTokenEnd (c : UInt8) (rest : Text) :
    ((c :: rest).take ((c :: rest).length - (sqlTokenEnd (c :: rest)).length)).head? = some c := by
  have hle := (sqlTokenEnd_suffix c rest).length_le
  obtain ⟨n, hn⟩ : ∃ n, (c :: rest).length - (sqlTokenEnd (c :: rest)).length = n + 1 :=
    ⟨rest.length - (sqlTokenEnd (c :: rest)).length, by rw [length_cons]; omega⟩
  rw [hn, take_succ_cons]
  rfl

theorem isSeen_eq_startsSeen (h : nextPiece (c :: rest) = some (k, r)) :
    k.isSeen = startsSeen (c :: rest) := by
  have hsome := isSome_skipSqlComment_cons c rest
  rcases nextPiece_cases h with ⟨hspace, rfl, -⟩ | ⟨-, hc, hk⟩ | ⟨-, hc, rfl, rfl⟩
  · obtain ⟨hq, hh, hd, hs⟩ := not_startsComment_of_isSqlSpace c hspace
    simp [Piece.isSeen, startsSeen, hq, hh, hd, hs]
  · rw [hc] at hsome
    have hk' : k.isSeen = false := by rcases hk with rfl | rfl <;> rfl
    rw [hk', startsSeen, Bool.or_assoc, Bool.or_assoc, ← Bool.or_assoc (c == byteHash), ← hsome]
    simp
  · rw [hc] at hsome
    rw [Piece.isSeen, head?_take_of_sqlTokenEnd, startsSeen, Bool.or_assoc, Bool.or_assoc,
      ← Bool.or_assoc (c == byteHash), ← hsome]
    simp

theorem seen_nil (c : UInt8) (rest : Text) : seen [] (c :: rest) = startsSeen (c :: rest) := by
  obtain ⟨k, r, h⟩ := nextPiece_isSome c rest
  have hnext : pieceScanner.next (c :: rest) = some (k, r) := h
  have hlt := pieceScanner.next_length hnext
  rw [seen, nil_append, length_nil,
    pieceScanner.marks_getElem?_of_next hnext (by omega), ← isSeen_eq_startsSeen h]
  rfl

variable {u : Text}

/-- At a boundary, what stands in front does not matter. -/
theorem seen_of_reaches {v : Text} (h : pieceScanner.Reaches (u ++ (v ++ s)) (v ++ s)) :
    seen (u ++ v) s = seen v s := by
  rw [seen, seen, append_assoc, length_append, h.marks_eq]

/-! ### Behind a byte that is seen -/

variable {a : UInt8}

theorem startsSeen_of_isSqlIdentifierChar (h : isSqlIdentifierChar c = true) (rest : Text) :
    startsSeen (c :: rest) = true := by
  have hbyte : ∀ b : UInt8, isSqlIdentifierChar b = true →
      b ≠ byteHash ∧ b ≠ byteDash ∧ b ≠ byteSlash := by decide +kernel
  obtain ⟨hh, hd, hs⟩ := hbyte c h
  simp [startsSeen, not_isQuoteByte_of_isSqlIdentifierChar c h, hh, hd, hs]

theorem length_dropWhile_of_neg {p : UInt8 → Bool} {d : UInt8} (h : p d = false) (w v : Text) :
    v.length < ((w ++ d :: v).dropWhile p).length := by
  rw [dropWhile_append]
  split_ifs
  · rw [dropWhile_cons_of_neg (by simp [h])]
    exact Nat.lt_succ_self _
  · rw [length_append, length_cons]
    omega

/-- A piece that is seen and longer than a byte is a word. -/
theorem isSqlIdentifierChar_of_isSeen {d : UInt8} {w v : Text}
    (h : nextPiece (c :: (w ++ d :: v)) = some (k, r)) (hk : k.isSeen = true)
    (hr : r.length ≤ v.length) : isSqlIdentifierChar d = true := by
  have hlong : ¬r = w ++ d :: v := by
    rintro rfl
    rw [length_append, length_cons] at hr
    omega
  rcases nextPiece_cases h with ⟨-, -, heq⟩ | ⟨-, -, hk'⟩ | ⟨-, -, hend, rfl⟩
  · exact absurd heq hlong
  · rcases hk' with rfl | rfl <;> cases hk
  · have hq : isQuoteByte c = false := by
      rw [hend, Piece.isSeen, head?_take_of_sqlTokenEnd] at hk
      simpa using hk
    simp only [sqlTokenEnd, hq, Bool.false_eq_true, if_false] at hend
    split_ifs at hend
    · by_contra hd
      have := length_dropWhile_of_neg (Bool.not_eq_true _ ▸ hd) w v
      rw [← hend] at this
      omega
    · exact absurd hend hlong

/-- **Behind a byte that is seen** the scanner has a boundary, or it is inside a word. -/
theorem seen_boundary_or_word (h : seen u (a :: s) = true) :
    pieceScanner.Reaches (u ++ a :: s) s ∨
      ∃ b t, s = b :: t ∧ isSqlIdentifierChar b = true ∧ seen (u ++ [a]) s = true := by
  obtain ⟨k, hk, hseen⟩ := (Option.any_eq_true _ _).mp h
  obtain ⟨t, r, hreach, hnext, hlo, hhi⟩ := Scanner.exists_piece_of_marks hk
  simp only [length_append, length_cons] at hlo hhi
  have hr : pieceScanner.Reaches (u ++ a :: s) r := hreach.trans (.step hnext)
  have hs : s <:+ u ++ a :: s := (suffix_cons a s).trans (suffix_append _ _)
  by_cases heq : r.length = s.length
  · left
    rwa [List.IsSuffix.eq_of_length (suffix_of_suffix_length_le hr.suffix hs heq.le) heq] at hr
  right
  obtain ⟨b, v, rfl⟩ : ∃ b v, s = b :: v := exists_cons_of_ne_nil (by
    rintro rfl
    simp only [length_nil] at hlo heq
    omega)
  simp only [length_cons] at hlo hhi heq
  -- the piece begins at `a` or before, so it holds `a` and `b`
  obtain ⟨x, hx⟩ : a :: b :: v <:+ t :=
    suffix_of_suffix_length_le (suffix_append _ _) hreach.suffix
      (by simp only [length_cons]; omega)
  obtain ⟨y, hy⟩ := hreach.suffix
  refine ⟨b, v, rfl, ?_, ?_⟩
  · cases x with
    | nil =>
      subst hx
      exact isSqlIdentifierChar_of_isSeen (w := []) hnext hseen (by omega)
    | cons c x =>
      subst hx
      refine isSqlIdentifierChar_of_isSeen (w := x ++ [a]) (v := v) (r := r) (c := c) ?_ hseen
        (by omega)
      rw [append_assoc, singleton_append]
      exact hnext
  · have hu : u = y ++ x := append_cancel_right
      (by rw [append_assoc, hx, hy] : u ++ a :: b :: v = (y ++ x) ++ a :: b :: v)
    have hmark : (pieceScanner.marks t)[x.length + 1]? = some k := by
      refine pieceScanner.marks_getElem?_of_next hnext ?_
      rw [← hx]
      simp only [length_append, length_cons]
      omega
    have hwhole : pieceScanner.Reaches (y ++ t) t := by rwa [hy]
    rw [seen, append_assoc, singleton_append, ← hy, length_append, hu,
      length_append, length_singleton, Nat.add_assoc, hwhole.marks_eq, hmark]
    exact hseen

/-- Behind a byte that is seen, a byte is seen unless it begins a comment or a quoted token. -/
theorem seen_append_singleton {b : UInt8} (h : seen u (a :: b :: r) = true) :
    seen (u ++ [a]) (b :: r) = startsSeen (b :: r) := by
  rcases seen_boundary_or_word h with hreach | ⟨c, t, heq, hc, hseen⟩
  · have hreach' : pieceScanner.Reaches (u ++ [a] ++ ([] ++ b :: r)) ([] ++ b :: r) := by
      simpa using hreach
    rw [← seen_nil, ← seen_of_reaches hreach', append_nil]
  · cases heq
    rw [hseen, startsSeen_of_isSqlIdentifierChar hc]

/-- Behind a byte that is seen, a byte that no name has is a boundary. -/
theorem reaches_of_seen (h : seen u (a :: s) = true)
    (hs : ∀ b ∈ s.head?, isSqlIdentifierChar b = false) : pieceScanner.Reaches (u ++ a :: s) s := by
  rcases seen_boundary_or_word h with hreach | ⟨b, t, rfl, hb, -⟩
  · exact hreach
  · exact absurd hb (by simp [hs b rfl])

end MyLite.Sql

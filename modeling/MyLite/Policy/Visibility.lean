import MyLite.MariaDB.Cells
import MyLite.Sql.Pieces

namespace MyLite.Policy

open MyLite.Lib MyLite.Sql MyLite.MariaDB List

/-!
# What MariaDB executes and the policy sees

Two scanners read one text: MariaDB's lexer, which cuts it into cells, and the tokenizer of the
policy.  An executed byte is hidden from the policy where the tokenizer takes it for a part of a
comment or of a quoted token.

Between two executed bytes stands a *gap*: spaces, comments, literals.  Over most gaps the two
scanners agree (`reaches_of_plainGap`, a simulation cell by cell), and then an executed byte is
hidden only if the tokenizer sees a comment or a quote begin at it.  What is left are gaps with a
comment that the tokenizer enters and MariaDB does not, or with a backslash in backticks.

* `readsAlike` — the condition, byte by byte.
* `hidesNothing_iff` — under it, and only under it, the policy sees every executed byte.
-/

/-! ### Gaps -/

/-- The tokenizer reads over the cell as MariaDB does, whatever the text `s` behind it is. -/
def plainCell : Cell → Text → Bool
  -- a NUL ends a line comment for MariaDB only
  | .lineComment _, s => s.head? != some byteNul
  | .comment bytes, s => (enterExecutableSqlComment (bytes ++ s)).isNone
  -- the tokenizer drops all digits behind a marker
  | .marker _, s => !s.head?.any isDigit
  -- `*/*` is a token and the start of a comment for the tokenizer
  | .closer, s => s.head? != some byteStar
  | .name bytes, _ => !bytes.contains byteBackslash
  | _, _ => true

/-- The tokenizer reads over every cell of a gap as MariaDB does. -/
def plainGap : List Cell → Text → Bool
  | [], _ => true
  | c :: cells, s => plainCell c (cellsText cells ++ s) && plainGap cells s

variable {body : Text}

/-- The tokenizer reads over a quoted text, taking a doubled quote for an end and a start. -/
theorem reaches_quoted {sep : UInt8} (hsep : isQuoteByte sep = true)
    (hbody : QuotedBody true sep body) (s : Text) :
    pieceScanner.Reaches (sep :: (body ++ sep :: s)) s := by
  have hbyte : ∀ b : UInt8, isQuoteByte b = true → isSqlSpace b = false ∧ b ≠ byteHash ∧
      b ≠ byteDash ∧ b ≠ byteSlash ∧ b ≠ byteBackslash := by decide +kernel
  obtain ⟨hspace, hhash, hdash, hslash, hback⟩ := hbyte sep hsep
  have hopen : ∀ t, pieceScanner.Reaches (sep :: t) (quotedSqlTokenEnd sep t) := by
    intro t
    have hnone : skipSqlComment (sep :: t) = none := skipSqlComment_eq_none hhash
      (fun h => absurd h hdash) (fun h => absurd h hslash)
    have hstep := reaches_token hspace hnone
    rwa [sqlTokenEnd, if_pos hsep] at hstep
  refine (hopen _).trans ?_
  induction hbody with
  | nil =>
    rw [nil_append, quotedSqlTokenEnd_cons hback, if_pos rfl]
    exact .refl s
  | plain hc hback' _ ih => rwa [cons_append, quotedSqlTokenEnd_cons (hback' rfl), if_neg hc]
  | escaped _ _ ih => rwa [cons_append, cons_append, quotedSqlTokenEnd_backslash]
  | doubled _ ih =>
    rw [cons_append, cons_append, quotedSqlTokenEnd_cons hback, if_pos rfl]
    exact (hopen _).trans ih

theorem blockCommentEnd_of_consumeComment (turns : ℕ) : ∀ {s rest : Text},
    consumeComment false turns s = some rest → blockCommentEnd s = rest := by
  induction turns with
  | zero => intro s rest h; cases h
  | succ turns ih =>
    intro s rest h
    cases s with
    | nil => cases h
    | cons c t =>
      simp only [consumeComment, Bool.false_and, Bool.false_eq_true, if_false] at h
      split_ifs at h with hend
      · rw [Bool.and_eq_true, beq_iff_eq, beq_iff_eq] at hend
        obtain ⟨rfl, hpeek⟩ := hend
        obtain ⟨u, rfl⟩ := exists_cons_of_peek hpeek (by decide)
        cases h
        rfl
      · cases t with
        | nil => cases turns <;> cases h
        | cons d u =>
          rw [blockCommentEnd_step, ih h]
          rintro ⟨rfl, rfl⟩
          exact hend rfl

variable {s : Text}

theorem dropWhile_lineComment (hbody : byteNewline ∉ body) (hs : ∀ b ∈ s.head?, b = byteNewline) :
    (body ++ s).dropWhile (· != byteNewline) = s := by
  rw [dropWhile_append_of_pos fun b hb => by
    rw [bne_iff_ne]
    rintro rfl
    exact hbody hb]
  cases s with
  | nil => rfl
  | cons b s => rw [hs b rfl]; rfl

theorem enterExecutableSqlComment_of_opensExecutable (h : opensExecutable body = true) :
    enterExecutableSqlComment (byteSlash :: byteStar :: body) ≠ none := by
  obtain ⟨content, hbody, -⟩ := opensExecutable_eq h
  rw [enterExecutableSqlComment_cons, if_pos ⟨rfl, rfl⟩, hbody]
  split_ifs
  · rw [singleton_append, executableBody, if_neg (by decide), if_pos ⟨.inl rfl, rfl⟩]
    exact Option.some_ne_none _
  · rw [nil_append, executableBody, if_pos rfl]
    exact Option.some_ne_none _

variable {c : Cell}

/-- **A plain cell** is passed over: the step of the simulation. -/
theorem reaches_of_plainCell (hok : CellOk c s) (hplain : plainCell c s = true)
    (hexec : c.isExecuted = false) (hs : s ≠ []) : pieceScanner.Reaches (c.bytes ++ s) s := by
  cases c with
  | executed b => cases hexec
  | blank b =>
    have hvertical : ∀ b : UInt8, isSpace b = true → isSqlSpace b = false → b = 0x0B := by
      decide +kernel
    cases hb : isSqlSpace b with
    | true => exact reaches_space hb s
    | false =>
      rw [hvertical b hok hb]
      exact reaches_symbol rfl rfl rfl (skipSqlComment_eq_none (by decide)
        (absurd · (by decide)) (absurd · (by decide)))
  | lineComment bytes =>
    obtain ⟨body, hbytes, hbody, hend⟩ := hok
    have hnewline : ∀ b ∈ s.head?, b = byteNewline := by
      intro b hb
      refine (hend b hb).resolve_right ?_
      rintro rfl
      rw [plainCell, Option.mem_def.mp hb] at hplain
      cases hplain
    rcases hbytes with rfl | rfl
    · refine reaches_comment (c := byteHash) rfl ?_
      show some ((body ++ s).dropWhile (· != byteNewline)) = _
      rw [dropWhile_lineComment hbody hnewline]
    · refine reaches_comment (c := byteDash) rfl ?_
      show some ((body ++ s).dropWhile (· != byteNewline)) = _
      rw [dropWhile_lineComment hbody hnewline]
  | comment bytes =>
    obtain ⟨body, rfl, hbody⟩ := hok
    have hnone := Option.isNone_iff_eq_none.mp hplain
    have hskip : skipSqlComment (byteSlash :: byteStar :: (body ++ s))
        = some (blockCommentEnd (body ++ s)) := by
      simp only [cons_append] at hnone
      rw [skipSqlComment, hnone]
      rfl
    rcases hbody with hopen | ⟨turns, hend⟩
    · exact absurd hnone (enterExecutableSqlComment_of_opensExecutable hopen)
    · rw [blockCommentEnd_of_consumeComment turns hend] at hskip
      exact reaches_comment (c := byteSlash) rfl hskip
  | marker bytes =>
    obtain ⟨o, rfl⟩ := hok
    have hdigits : s.dropWhile isDigit = s := by
      cases s with
      | nil => rfl
      | cons b s => exact dropWhile_cons_of_neg (by simpa [plainCell] using hplain)
    have hskip := skipSqlComment_of_marker (o.enterExecutableSqlComment_bytes s)
    rw [hdigits] at hskip
    exact reaches_comment (c := byteSlash) rfl hskip
  | closer =>
    have hnext : s.head? ≠ some byteStar := by simpa [plainCell] using hplain
    have hstar : pieceScanner.Reaches (byteStar :: byteSlash :: s) (byteSlash :: s) :=
      reaches_symbol rfl rfl rfl (skipSqlComment_eq_none (by decide)
        (absurd · (by decide)) (absurd · (by decide)))
    exact hstar.trans
      (reaches_symbol rfl rfl rfl (skipSqlComment_eq_none (by decide)
        (absurd · (by decide)) fun _ => hnext))
  | string bytes =>
    obtain ⟨sep, body, hsep, rfl, hbody⟩ := hok
    have hquote : isQuoteByte sep = true := by rcases hsep with rfl | rfl <;> rfl
    simpa [Cell.bytes] using reaches_quoted hquote hbody s
  | openString bytes => exact absurd hok.2 hs
  | name bytes =>
    obtain ⟨body, rfl, hbody⟩ := hok
    have hback : byteBackslash ∉ body := by
      intro hmem
      simp [plainCell, hmem] at hplain
    have hquote : isQuoteByte byteBacktick = true := rfl
    simpa [Cell.bytes] using reaches_quoted hquote (hbody.escapes_of_notMem hback) s
  | terminator => exact absurd hok hs

variable {gap : List Cell}

/-- **A plain gap** is passed over. -/
theorem reaches_of_plainGap (hok : CellsOk gap s) (hplain : plainGap gap s = true)
    (hexec : ∀ c ∈ gap, c.isExecuted = false) (hs : s ≠ []) :
    pieceScanner.Reaches (cellsText gap ++ s) s := by
  induction gap with
  | nil => exact .refl s
  | cons c gap ih =>
    obtain ⟨hc, hgap⟩ := hok
    rw [plainGap, Bool.and_eq_true] at hplain
    have hcell := reaches_of_plainCell hc hplain.1 (hexec c mem_cons_self)
      (append_ne_nil_of_right_ne_nil _ hs)
    rw [cellsText_cons, append_assoc]
    exact hcell.trans (ih hgap hplain.2 fun d hd => hexec d (mem_cons_of_mem _ hd))

/-- No cell but an executed one begins with a byte of a name. -/
theorem not_isSqlIdentifierChar_head (hok : CellOk c s) (hexec : c.isExecuted = false) (t : Text) :
    ∃ b u, c.bytes ++ t = b :: u ∧ isSqlIdentifierChar b = false := by
  have hspace : ∀ b : UInt8, isSpace b = true → isSqlIdentifierChar b = false := by decide +kernel
  have hquote : ∀ b : UInt8, isQuoteByte b = true → isSqlIdentifierChar b = false := by
    decide +kernel
  cases c with
  | executed b => cases hexec
  | blank b => exact ⟨b, t, rfl, hspace b hok⟩
  | lineComment bytes =>
    obtain ⟨body, rfl | rfl, -⟩ := hok
    · exact ⟨_, _, rfl, rfl⟩
    · exact ⟨_, _, rfl, rfl⟩
  | comment bytes =>
    obtain ⟨body, rfl, -⟩ := hok
    exact ⟨_, _, rfl, rfl⟩
  | marker bytes =>
    obtain ⟨o, rfl⟩ := hok
    exact ⟨_, _, rfl, rfl⟩
  | closer => exact ⟨_, _, rfl, rfl⟩
  | string bytes =>
    obtain ⟨sep, body, hsep, rfl, -⟩ := hok
    exact ⟨_, _, rfl, by rcases hsep with rfl | rfl <;> rfl⟩
  | openString bytes =>
    obtain ⟨⟨sep, body, hsep, rfl⟩, -⟩ := hok
    exact ⟨_, _, rfl, hquote sep hsep⟩
  | name bytes =>
    obtain ⟨body, rfl, -⟩ := hok
    exact ⟨_, _, rfl, rfl⟩
  | terminator => exact ⟨_, _, rfl, rfl⟩

/-! ### Executed bytes -/

/-- The policy sees every executed byte of a text that MariaDB's lexer accepts: it is in no comment
    and no quoted token of the tokenizer. -/
def HidesNothing (sql : Text) : Prop :=
  ∀ cells, lexCells sql = some cells → ∀ before b after, cells = before ++ .executed b :: after →
    seen (cellsText before) (b :: cellsText after) = true

/-- The byte `b` behind a gap: if the gap is plain, neither a comment nor a quoted token begins
    with it; if not, the tokenizer comes out of the gap right. -/
def readsOn (gap : List Cell) (b : UInt8) (s : Text) : Bool :=
  if plainGap gap (b :: s) then startsSeen (b :: s) else seen (cellsText gap) (b :: s)

/-- The condition on the cells behind `gap`. -/
def readsAlike (gap : List Cell) : List Cell → Bool
  | [] => true
  | .executed b :: cells => readsOn gap b (cellsText cells) && readsAlike [] cells
  | c :: cells => readsAlike (gap ++ [c]) cells

/-- The scanners agree up to `s`: nothing has been read, or the last byte is seen. -/
def Agree (u s : Text) : Prop := u = [] ∨ ∃ v a, u = v ++ [a] ∧ seen v (a :: s) = true

/-- Where the scanners agree up to a gap, the byte behind it is seen under `readsOn`. -/
theorem seen_eq_readsOn {u : Text} {b : UInt8} (hagree : Agree u (cellsText gap ++ b :: s))
    (hok : CellsOk gap (b :: s)) (hexec : ∀ c ∈ gap, c.isExecuted = false) :
    seen (u ++ cellsText gap) (b :: s) = readsOn gap b s := by
  cases gap with
  | nil =>
    rw [readsOn, plainGap, if_pos rfl]
    rcases hagree with rfl | ⟨v, a, rfl, hseen⟩
    · exact seen_nil b s
    · simpa [cellsText] using seen_append_singleton hseen
  | cons c gap =>
    have hboundary : pieceScanner.Reaches (u ++ (cellsText (c :: gap) ++ b :: s))
        (cellsText (c :: gap) ++ b :: s) := by
      rcases hagree with rfl | ⟨v, a, rfl, hseen⟩
      · exact .refl _
      · rw [append_assoc, singleton_append]
        refine reaches_of_seen hseen ?_
        obtain ⟨d, t, htext, hd⟩ := not_isSqlIdentifierChar_head hok.1
          (hexec c mem_cons_self) (cellsText gap ++ b :: s)
        rw [cellsText_cons, append_assoc, htext]
        intro e he
        cases he
        exact hd
    rw [seen_of_reaches hboundary, readsOn]
    split_ifs with hplain
    · have hgap : pieceScanner.Reaches (cellsText (c :: gap) ++ ([] ++ b :: s)) ([] ++ b :: s) :=
        reaches_of_plainGap hok hplain hexec (cons_ne_nil _ _)
      rw [← seen_nil, ← seen_of_reaches hgap, append_nil]
    · rfl

theorem readsAlike_cons {cells : List Cell} (h : c.isExecuted = false) :
    readsAlike gap (c :: cells) = readsAlike (gap ++ [c]) cells := by
  cases c with
  | executed b => cases h
  | _ => rfl

/-- The executed bytes of one cell and more. -/
theorem forall_executed_cons {cells : List Cell} {P : List Cell → UInt8 → List Cell → Prop} :
    (∀ before b after, c :: cells = before ++ .executed b :: after → P before b after) ↔
      (∀ b, c = .executed b → P [] b cells) ∧
        ∀ before b after, cells = before ++ .executed b :: after → P (c :: before) b after := by
  constructor
  · intro h
    refine ⟨?_, fun before b after hsplit => h (c :: before) b after (congrArg (_ :: ·) hsplit)⟩
    rintro b rfl
    exact h [] b cells rfl
  · rintro ⟨hfirst, hmore⟩ before b after hsplit
    cases before with
    | nil =>
      cases hsplit
      exact hfirst b rfl
    | cons d before =>
      obtain ⟨rfl, htail⟩ := List.cons.inj hsplit
      exact hmore before b after htail

/-- **The run.** Behind a text up to which the scanners agree, and a gap. -/
theorem forall_seen_iff_readsAlike : ∀ (cells gap : List Cell) (u : Text),
    Agree u (cellsText gap ++ cellsText cells) → CellsOk (gap ++ cells) [] →
    (∀ c ∈ gap, c.isExecuted = false) →
    ((∀ before b after, cells = before ++ .executed b :: after →
        seen (u ++ cellsText gap ++ cellsText before) (b :: cellsText after) = true) ↔
      readsAlike gap cells = true) := by
  intro cells
  induction cells with
  | nil =>
    intro gap u _ _ _
    exact iff_of_true (fun before b after h => by cases before <;> cases h) rfl
  | cons c cells ih =>
    intro gap u hagree hok hexec
    rw [forall_executed_cons]
    cases hc : c.isExecuted with
    | true =>
      obtain ⟨b, rfl⟩ : ∃ b, c = .executed b := by
        cases c with
        | executed b => exact ⟨b, rfl⟩
        | _ => cases hc
      rw [cellsOk_append, append_nil] at hok
      have hfirst := seen_eq_readsOn (s := cellsText cells) hagree hok.1 hexec
      rw [readsAlike, Bool.and_eq_true, ← hfirst]
      have hbyte : (∀ d, Cell.executed b = .executed d →
          seen (u ++ cellsText gap ++ cellsText []) (d :: cellsText cells) = true) ↔
            seen (u ++ cellsText gap) (b :: cellsText cells) = true := by simp
      rw [hbyte]
      refine and_congr_right fun hseen => ?_
      -- behind a byte that is seen the scanners agree, and the gap begins anew
      have hrest := ih [] (u ++ cellsText gap ++ [b]) (.inr ⟨_, b, rfl, hseen⟩) hok.2.2
        fun d hd => absurd hd not_mem_nil
      rw [← hrest]
      simp [cellsText_cons, Cell.bytes]
    | false =>
      have hgap : ∀ d ∈ gap ++ [c], d.isExecuted = false := by
        intro d hd
        rcases mem_append.mp hd with hd | hd
        · exact hexec d hd
        · rwa [mem_singleton.mp hd]
      have hrest := ih (gap ++ [c]) u
        (by simpa [cellsText_append, cellsText_cons] using hagree) (by simpa using hok) hgap
      rw [readsAlike_cons hc, ← hrest, and_iff_right]
      · simp [cellsText_append, cellsText_cons]
      · rintro b rfl
        cases hc

/-- **Hidden bytes.** The policy sees every executed byte of a text exactly if MariaDB's lexer
    rejects the text or the tokenizer reads on rightly behind every gap. -/
theorem hidesNothing_iff (sql : Text) :
    HidesNothing sql ↔ ∀ cells, lexCells sql = some cells → readsAlike [] cells = true := by
  refine forall₂_congr fun cells hcells => ?_
  have hrun := forall_seen_iff_readsAlike cells [] [] (.inl rfl) (lexCells_ok hcells).2
    fun d hd => absurd hd not_mem_nil
  simpa [cellsText] using hrun

example : ∃ cells, lexCells (ascii "SELECT /*!50000 `a b` */ - 1, 'it\\'s' -- end") = some cells ∧
    readsAlike [] cells = true := ⟨_, rfl, by decide⟩

/-- Two dashes and a digit: MariaDB subtracts a negative number and calls `SLEEP`, the policy sees
    a comment. -/
theorem not_hidesNothing_dashes : ¬HidesNothing (ascii "SELECT 1--1, SLEEP(1)") := by
  intro h
  have hsleep := h _ rfl ((ascii "SELECT").map .executed ++ .blank 0x20 :: (ascii "1--1,").map
    .executed ++ [.blank 0x20]) 0x53 ((ascii "LEEP(1)").map .executed) rfl
  revert hsleep
  decide

end MyLite.Policy

import MyLite.MariaDB.Lexer

namespace MyLite.MariaDB

open MyLite.Sql List

/-!
# The cells of a text

What the lexer's cells look like (`CellOk`), and that they are the text cut into pieces
(`lexCells_ok`).  The proof follows the lexer: one lemma for each helper that moves the position,
one for each kind of turn, and an induction over the turns.
-/

/-! ### Quoted texts -/

/-- The bytes between two quotes `sep`: the quote itself is written twice, and with `escapes` a
    backslash and the byte behind it belong together. -/
inductive QuotedBody (escapes : Bool) (sep : UInt8) : Text → Prop
  | nil : QuotedBody escapes sep []
  | plain {c : UInt8} {body : Text} (notSep : c ≠ sep)
      (notBackslash : escapes = true → c ≠ byteBackslash) (tail : QuotedBody escapes sep body) :
      QuotedBody escapes sep (c :: body)
  | doubled {body : Text} (tail : QuotedBody escapes sep body) :
      QuotedBody escapes sep (sep :: sep :: body)
  | escaped {c : UInt8} {body : Text} (hasEscapes : escapes = true)
      (tail : QuotedBody escapes sep body) : QuotedBody escapes sep (byteBackslash :: c :: body)

variable {sep : UInt8} {body : Text}

theorem QuotedBody.append_plain {escapes : Bool} {w : Text}
    (hw : ∀ b ∈ w, b ≠ sep ∧ b ≠ byteBackslash) (h : QuotedBody escapes sep body) :
    QuotedBody escapes sep (w ++ body) := by
  induction w with
  | nil => exact h
  | cons b w ih =>
    obtain ⟨hsep, hback⟩ := hw b mem_cons_self
    exact .plain hsep (fun _ => hback) (ih fun c hc => hw c (mem_cons_of_mem _ hc))

theorem QuotedBody.escapes_of_notMem (h : QuotedBody false sep body)
    (hback : byteBackslash ∉ body) :
    QuotedBody true sep body := by
  induction h with
  | nil => exact .nil
  | plain hsep _ _ ih =>
    rw [mem_cons, not_or] at hback
    exact .plain hsep (fun _ => Ne.symm hback.1) (ih hback.2)
  | doubled _ ih =>
    rw [mem_cons, mem_cons, not_or, not_or] at hback
    exact .doubled (ih hback.2.2)
  | escaped hescapes => cases hescapes

/-! ### Characters -/

theorem isContinuationByte_high : ∀ b : UInt8, isContinuationByte b = true → 0x80 ≤ b := by
  decide +kernel

/-- The bytes of a character of more than one byte are outside ASCII. -/
theorem charlenUtf8mb4_high (s : Text) : ∀ b ∈ s.take (charlenUtf8mb4 s), 0x80 ≤ b := by
  have hlow : ∀ b : UInt8, ¬b < 0xC2 → 0x80 ≤ b := by decide +kernel
  have hfour : ∀ b : UInt8, ¬b < 0xF0 → 0x80 ≤ b := by decide +kernel
  have hmb3 : ∀ t : Text, ∀ b ∈ t.take (validMbcharlenUtf8mb3 t), 0x80 ≤ b := by
    intro t
    fun_cases validMbcharlenUtf8mb3 t <;> intro b hb
    all_goals try exact absurd hb not_mem_nil
    · next b0 b1 rest h0 _ h1 =>
      rcases mem_pair.mp hb with rfl | rfl
      · exact hlow b h0
      · exact isContinuationByte_high b h1
    · next b0 b1 h0 _ b2 rest h12 =>
      rw [Bool.and_eq_true, Bool.and_eq_true] at h12
      simp only [take_succ_cons, take_zero, mem_cons, not_mem_nil,
        or_false] at hb
      rcases hb with rfl | rfl | rfl
      · exact hlow b h0
      · exact isContinuationByte_high b h12.1.1
      · exact isContinuationByte_high b h12.1.2
  fun_cases charlenUtf8mb4 s
  · exact hmb3 _
  · next b0 h0 _ b1 b2 b3 rest h123 =>
    simp only [Bool.and_eq_true] at h123
    obtain ⟨⟨⟨⟨h1, h2⟩, h3⟩, -⟩, -⟩ := h123
    intro b hb
    simp only [take_succ_cons, take_zero, mem_cons, not_mem_nil,
      or_false] at hb
    rcases hb with rfl | rfl | rfl | rfl
    · exact hfour b h0
    · exact isContinuationByte_high b h1
    · exact isContinuationByte_high b h2
    · exact isContinuationByte_high b h3
  all_goals
    intro b hb
    cases hb

theorem ne_of_high {b : UInt8} (hb : 0x80 ≤ b) (hsep : sep < 0x80) : b ≠ sep := by
  rintro rfl
  exact absurd hb (UInt8.not_le.mpr hsep)

/-- A character of more than one byte may stand in any quoted text. -/
theorem QuotedBody.append_char {escapes : Bool} {s : Text} (hsep : sep < 0x80)
    (h : QuotedBody escapes sep body) :
    QuotedBody escapes sep (s.take (charlenUtf8mb4 s) ++ body) :=
  h.append_plain fun b hb =>
    ⟨ne_of_high (charlenUtf8mb4_high s b hb) hsep,
      ne_of_high (charlenUtf8mb4_high s b hb) (by decide)⟩

/-- The literal that `get_text` finds. -/
theorem getTextLoop_some (hsep : sep < 0x80) :
    ∀ (turns : ℕ) (s : Text) (found : Scanned),
      getTextLoop defaultSession sep turns s = some found →
        s = found.body ++ sep :: found.rest ∧ QuotedBody true sep found.body := by
  intro turns
  induction turns with
  | zero => intro s found h; cases h
  | succ turns ih =>
    intro s found h
    cases s with
    | nil => cases h
    | cons c rest =>
      simp only [getTextLoop] at h
      split_ifs at h with hchar hback hend hdouble
      · obtain ⟨f, hf, rfl⟩ := Option.map_eq_some_iff.mp h
        obtain ⟨htext, hbody⟩ := ih _ f hf
        refine ⟨?_, QuotedBody.append_char (s := c :: rest) hsep hbody⟩
        show c :: rest = _ ++ f.body ++ sep :: f.rest
        rw [append_assoc, ← htext, take_append_drop]
      · cases rest with
        | nil => cases h
        | cons d rest =>
          obtain ⟨f, hf, rfl⟩ := Option.map_eq_some_iff.mp h
          obtain ⟨htext, hbody⟩ := ih _ f hf
          simp only [Bool.and_eq_true, beq_iff_eq] at hback
          obtain ⟨rfl, -⟩ := hback
          refine ⟨?_, .escaped rfl hbody⟩
          show byteBackslash :: d :: rest = byteBackslash :: d :: (f.body ++ sep :: f.rest)
          rw [← htext]
          rfl
      · rw [beq_iff_eq] at hend
        subst hend
        obtain ⟨f, hf, rfl⟩ := Option.map_eq_some_iff.mp h
        obtain ⟨htext, hbody⟩ := ih _ f hf
        obtain ⟨t, rfl⟩ := List.head?_eq_some_iff.mp hdouble
        refine ⟨?_, .doubled hbody⟩
        show c :: c :: t = c :: c :: (f.body ++ c :: f.rest)
        rw [← htext]
        rfl
      · rw [beq_iff_eq] at hend
        cases h
        exact ⟨by rw [hend]; rfl, .nil⟩
      · obtain ⟨f, hf, rfl⟩ := Option.map_eq_some_iff.mp h
        obtain ⟨htext, hbody⟩ := ih _ f hf
        refine ⟨?_, .plain (by simpa using hend) (fun _ hc => hback (by rw [hc]; rfl)) hbody⟩
        show c :: rest = c :: (f.body ++ sep :: f.rest)
        rw [← htext]

theorem charlenUtf8mb4_of_charLength {s : Text} {l : ℕ} (h : charLength s = l + 2) :
    charlenUtf8mb4 s = l + 2 := by
  rw [charLength] at h
  split_ifs at h
  · cases h
  · exact h

/-- The name that `scan_ident_delimited` finds. -/
theorem delimitedEnd_some : ∀ (turns : ℕ) (s rest : Text), delimitedEnd turns s = some rest →
    ∃ body, s = body ++ byteBacktick :: rest ∧ QuotedBody false byteBacktick body := by
  intro turns
  induction turns with
  | zero => intro s rest h; cases h
  | succ turns ih =>
    intro s rest h
    cases s with
    | nil => cases h
    | cons c t =>
      simp only [delimitedEnd] at h
      have hplain : c ≠ byteBacktick → delimitedEnd turns t = some rest →
          ∃ body, c :: t = body ++ byteBacktick :: rest ∧ QuotedBody false byteBacktick body := by
        intro hc ht
        obtain ⟨body, rfl, hbody⟩ := ih t rest ht
        exact ⟨c :: body, rfl, .plain hc nofun hbody⟩
      by_cases hnul : c = byteNul
      · rw [hnul] at h
        cases h
      rw [if_neg (by simpa using hnul)] at h
      split at h
      next hlen =>
        -- no character begins here, so the byte is outside ASCII
        refine hplain ?_ h
        rintro rfl
        cases hlen
      next =>
        split_ifs at h with hc hpeek
        · cases h
          exact ⟨[], by rw [beq_iff_eq.mp hc]; rfl, .nil⟩
        · rw [bne_iff_ne, not_not] at hpeek
          obtain ⟨u, rfl⟩ : ∃ u, t = byteBacktick :: u := by
            cases t with
            | nil => cases hpeek
            | cons d u => exact ⟨u, by rw [show d = byteBacktick from hpeek]⟩
          obtain ⟨body, hu, hbody⟩ := ih u rest h
          rw [beq_iff_eq.mp hc]
          exact ⟨byteBacktick :: byteBacktick :: body, by rw [hu]; rfl, .doubled hbody⟩
        · exact hplain (by simpa using hc) h
      next l hlen =>
        obtain ⟨body, hu, hbody⟩ := ih _ rest h
        refine ⟨(c :: t).take (l + 2) ++ body, ?_, ?_⟩
        · rw [append_assoc, ← hu]
          exact (take_append_drop (l + 2) (c :: t)).symm
        · rw [← charlenUtf8mb4_of_charLength hlen]
          exact hbody.append_char (by decide)

/-! ### Where the helpers stop -/

variable {rest : Text}

theorem identEnd_suffix (turns : ℕ) (s : Text) : identEnd turns s <:+ s := by
  fun_induction identEnd turns s with
  | case1 | case2 | case3 | case5 => exact suffix_refl _
  | case4 _ c rest _ l _ ih => exact ih.trans ((drop_suffix l rest).trans (suffix_cons c rest))

theorem realEnd_suffix {s : Text} (h : realEnd s = some rest) : rest <:+ s := by
  have hu := dropWhile_suffix isDigit (l := s)
  simp only [realEnd] at h
  split_ifs at h <;> cases h
  · exact (dropWhile_suffix _).trans
      ((tail_suffix _).trans ((tail_suffix _).trans hu))
  · exact (dropWhile_suffix _).trans ((tail_suffix _).trans hu)
  · exact hu

/-- The text that is left behind a number. -/
def NumberEnd.rest? : NumberEnd → Option Text
  | .number rest => some rest
  | .ident rest => some rest
  | .abort => none

theorem numberEnd_suffix {c : UInt8} {s : Text} (h : (numberEnd c s).rest? = some rest) :
    rest <:+ s := by
  have hu := dropWhile_suffix isDigit (l := s)
  have hut := (tail_suffix _).trans hu
  have hbase : ∀ p : UInt8 → Bool, s.tail.dropWhile p <:+ s := fun p =>
    (dropWhile_suffix p).trans (tail_suffix s)
  simp only [numberEnd] at h
  split_ifs at h
  all_goals try cases h
  all_goals first
    | exact hbase _
    | exact (identEnd_suffix _ _).trans (hbase _)
    | exact hu
    | exact (identEnd_suffix _ _).trans hu
    | exact (identEnd_suffix _ _).trans hut
    | exact (dropWhile_suffix _).trans hut
    | exact (dropWhile_suffix _).trans ((tail_suffix _).trans hut)
    | skip
  split at h <;> cases h
  next hreal => exact (realEnd_suffix hreal).trans hut

theorem cmpOpEnd_suffix (c : UInt8) (s : Text) : cmpOpEnd c s <:+ s := by
  unfold cmpOpEnd
  split_ifs
  · exact tail_suffix s
  · exact suffix_refl s

theorem longCmpOpEnd_suffix (c : UInt8) (s : Text) : longCmpOpEnd c s <:+ s := by
  unfold longCmpOpEnd
  split_ifs
  · exact (tail_suffix _).trans (tail_suffix s)
  · exact cmpOpEnd_suffix c s

theorem consumeComment_suffix (nested : Bool) (turns : ℕ) :
    ∀ {s rest : Text}, consumeComment nested turns s = some rest → rest <:+ s := by
  induction turns generalizing nested with
  | zero => intro s rest h; cases h
  | succ turns ih =>
    intro s rest h
    cases s with
    | nil => cases h
    | cons c t =>
      simp only [consumeComment] at h
      split_ifs at h
      · split at h
        · cases h
        next r hr =>
          exact (ih nested h).trans
            ((ih false hr).trans ((tail_suffix t).trans (suffix_cons c t)))
      · cases h
        exact (tail_suffix t).trans (suffix_cons c t)
      · exact (ih nested h).trans (suffix_cons c t)

theorem exists_cons_of_peek {s : Text} {b : UInt8} (h : peek s = b) (hb : b ≠ byteNul) :
    ∃ t, s = b :: t := by
  cases s with
  | nil => exact absurd h.symm hb
  | cons c t => exact ⟨t, congrArg (· :: t) h⟩

theorem readBytes_append (w rest : Text) : readBytes (w ++ rest) rest = w := by
  rw [readBytes, length_append, Nat.add_sub_cancel, take_left]

theorem readBytes_eq {s w : Text} (h : w ++ rest = s) : readBytes s rest = w := by
  rw [← h, readBytes_append]

theorem readBytes_append_rest {s : Text} (h : rest <:+ s) : readBytes s rest ++ rest = s := by
  obtain ⟨w, rfl⟩ := h
  rw [readBytes_append]

theorem versionDigits_isPrefix (s : Text) : versionDigits s <+: s := by
  unfold versionDigits
  split_ifs
  · exact take_prefix _ _
  · exact take_prefix _ _
  · exact nil_prefix

/-! ### Shapes of cells -/

/-- What a cell looks like in front of the text `s`. -/
def CellOk : Cell → Text → Prop
  | .executed _, _ => True
  | .blank b, _ => isSpace b = true
  | .lineComment bytes, s => ∃ body, (bytes = byteHash :: body ∨
      bytes = byteDash :: byteDash :: body) ∧
      byteNewline ∉ body ∧ ∀ b ∈ s.head?, b = byteNewline ∨ b = byteNul
  | .comment bytes, s => ∃ body, bytes = byteSlash :: byteStar :: body ∧
      (opensExecutable (body ++ s) = true ∨ ∃ turns,
        consumeComment false turns (body ++ s) = some s)
  | .marker bytes, _ => ∃ o : Opener, bytes = o.bytes
  | .closer, _ => True
  | .string bytes, _ => ∃ sep body, (sep = byteQuote ∨ sep = byteDoubleQuote) ∧
      bytes = sep :: (body ++ [sep]) ∧ QuotedBody true sep body
  | .openString bytes, s => (∃ sep body, isQuoteByte sep = true ∧ bytes = sep :: body) ∧ s = []
  | .name bytes, _ => ∃ body, bytes = byteBacktick :: (body ++ [byteBacktick]) ∧
      QuotedBody false byteBacktick body
  | .terminator, s => s = []

/-- What several cells look like. -/
def CellsOk : List Cell → Text → Prop
  | [], _ => True
  | c :: cells, s => CellOk c (cellsText cells ++ s) ∧ CellsOk cells s

@[simp] theorem cellsText_nil : cellsText [] = [] := rfl

theorem cellsText_append (l m : List Cell) : cellsText (l ++ m) = cellsText l ++ cellsText m :=
  flatMap_append

theorem cellsText_cons (c : Cell) (cells : List Cell) :
    cellsText (c :: cells) = c.bytes ++ cellsText cells := rfl

variable {m : List Cell}

theorem cellsOk_append {l : List Cell} {s : Text} :
    CellsOk (l ++ m) s ↔ CellsOk l (cellsText m ++ s) ∧ CellsOk m s := by
  induction l with
  | nil => exact (and_iff_right trivial).symm
  | cons c l ih =>
    rw [cons_append, CellsOk, CellsOk, ih, cellsText_append, append_assoc, and_assoc]

theorem cellsText_executed (w : Text) : cellsText (w.map .executed) = w := by
  induction w with
  | nil => rfl
  | cons b w ih => rw [map_cons, cellsText_cons, ih]; rfl

theorem cellsOk_executed (w s : Text) : CellsOk (w.map .executed) s := by
  induction w with
  | nil => trivial
  | cons b w ih => exact ⟨trivial, ih⟩

/-- The text `s` is the cells, which look as they should, and `rest`. -/
structure ReadsTo (s : Text) (cells : List Cell) (rest : Text) : Prop where
  text : cellsText cells ++ rest = s
  ok : CellsOk cells rest

/-- One cell. -/
theorem ReadsTo.single {c : Cell} {s : Text} (htext : c.bytes ++ rest = s) (hok : CellOk c rest) :
    ReadsTo s [c] rest :=
  ⟨by rw [cellsText_cons]; simpa [cellsText] using htext, by simpa [CellsOk, cellsText] using hok⟩

theorem ReadsTo.append {s t : Text} {l : List Cell} (h : ReadsTo s l t) (h' : ReadsTo t m rest) :
    ReadsTo s (l ++ m) rest := by
  refine ⟨?_, cellsOk_append.mpr ⟨?_, h'.ok⟩⟩
  · rw [cellsText_append, append_assoc, h'.text, h.text]
  · rw [h'.text]
    exact h.ok

theorem ReadsTo.cons_executed {c : UInt8} {t : Text} (h : ReadsTo t m rest) :
    ReadsTo (c :: t) (.executed c :: m) rest :=
  ReadsTo.append (l := [.executed c]) (.single rfl trivial) h

/-! ### Turns -/

/-- What a turn that begins with the byte `c` does: its cells are the text up to `rest`, and it
    reads at least that byte. -/
def Turn.Behind (c : UInt8) (s : Text) : Turn → Prop
  | .abort => True
  | .endOfInput cells => ReadsTo (c :: s) cells []
  | .read cells _ _ rest => ReadsTo (c :: s) cells rest ∧ rest <:+ s

theorem readsTo_token {s : Text} (h : rest <:+ s) :
    ReadsTo s ((readBytes s rest).map .executed) rest :=
  ⟨by rw [cellsText_executed, readBytes_append_rest h], cellsOk_executed _ _⟩

section

variable {c : UInt8} {s : Text} {inComment : Bool}

variable {body : Text}

theorem token_behind {next : NextState} (h : rest <:+ s) :
    (Turn.token (c :: s) rest next inComment).Behind c s :=
  ⟨readsTo_token (h.trans (suffix_cons c s)), h⟩

theorem identTurn_behind : (identTurn inComment c s).Behind c s := by
  unfold identTurn
  split
  · exact token_behind (suffix_refl s)
  · exact token_behind ((identEnd_suffix _ _).trans (drop_suffix _ _))

theorem readsTo_string (hsep : sep = byteQuote ∨ sep = byteDoubleQuote)
    (hbody : QuotedBody true sep body) :
    ReadsTo (sep :: (body ++ sep :: rest)) [.string (sep :: (body ++ [sep]))] rest := by
  refine .single ?_ ⟨sep, body, hsep, rfl, hbody⟩
  simp [Cell.bytes]

/-- A string literal behind its quote. -/
theorem readsTo_stringTurn (hsep : sep = byteQuote ∨ sep = byteDoubleQuote) (inComment : Bool)
    (before : List Cell) (t : Text) :
    ∃ cells rest, stringTurn before inComment sep t =
      .read (before ++ cells) .start inComment rest ∧
      ReadsTo (sep :: t) cells rest ∧ rest <:+ t := by
  have hlow : sep < 0x80 := by rcases hsep with rfl | rfl <;> decide
  unfold stringTurn
  split
  next found hfound =>
    obtain ⟨htext, hbody⟩ := getTextLoop_some hlow _ _ _ hfound
    refine ⟨_, _, rfl, ?_, ?_⟩
    · conv in ReadsTo (sep :: t) => rw [htext]
      exact readsTo_string hsep hbody
    · rw [htext]
      exact (suffix_cons sep _).trans (suffix_append _ _)
  next =>
    refine ⟨_, _, rfl, .single (append_nil _) ⟨⟨sep, t, ?_, rfl⟩, rfl⟩, nil_suffix⟩
    rcases hsep with rfl | rfl <;> rfl

theorem basedStringTurn_behind {isBaseDigit : UInt8 → Bool} {oddAllowed : Bool}
    (hdigit : ∀ b, isBaseDigit b = true → b ≠ byteQuote ∧ b ≠ byteBackslash) :
    (basedStringTurn isBaseDigit oddAllowed inComment c s).Behind c (byteQuote :: s) := by
  simp only [basedStringTurn]
  split_ifs with hpeek
  · trivial
  · trivial
  · rw [bne_iff_ne, not_not] at hpeek
    obtain ⟨t, ht⟩ := exists_cons_of_peek hpeek (by decide)
    have htake := takeWhile_append_dropWhile (p := isBaseDigit) (l := s)
    have hbody : QuotedBody true byteQuote (s.takeWhile isBaseDigit) := by
      rw [← append_nil (s.takeWhile isBaseDigit)]
      exact QuotedBody.nil.append_plain fun b hb =>
        hdigit b (all_eq_true.mp all_takeWhile b hb)
    refine ⟨ReadsTo.cons_executed ?_, ?_⟩
    · rw [readBytes_eq htake, ht]
      conv in byteQuote :: s => rw [← htake, ht]
      exact readsTo_string (.inl rfl) hbody
    · exact (tail_suffix _).trans ((dropWhile_suffix _).trans (suffix_cons _ s))

/-- A line comment. -/
theorem commentTurn_behind (hc : c = byteHash ∨ c = byteDash ∧ peek s = byteDash) :
    (commentTurn inComment c s).Behind c s := by
  simp only [commentTurn]
  generalize hp : (fun b : UInt8 => b != byteNewline && b != byteNul) = p
  have hsuffix : s.dropWhile p <:+ s := dropWhile_suffix _
  have htake := takeWhile_append_dropWhile (p := p) (l := s)
  have hread : readBytes (c :: s) (s.dropWhile p) = c :: s.takeWhile p :=
    readBytes_eq (congrArg (c :: ·) htake)
  have hnewline : ∀ t : Text, byteNewline ∉ t.takeWhile p := by
    intro t hmem
    have := all_eq_true.mp all_takeWhile _ hmem
    rw [← hp] at this
    cases this
  have hstop : ∀ b ∈ (s.dropWhile p).head?, b = byteNewline ∨ b = byteNul := by
    intro b hb
    have := List.head?_dropWhile_not p s
    rw [Option.mem_def.mp hb] at this
    simp only [← hp, Bool.and_eq_false_iff, bne_eq_false_iff_eq] at this
    exact this
  refine ⟨.single (readBytes_append_rest (hsuffix.trans (suffix_cons c s))) ?_, hsuffix⟩
  rw [hread]
  rcases hc with rfl | ⟨rfl, hpeek⟩
  · exact ⟨_, .inl rfl, hnewline s, hstop⟩
  · obtain ⟨t, rfl⟩ := exists_cons_of_peek hpeek (by decide)
    have hdash : p byteDash = true := by rw [← hp]; rfl
    refine ⟨t.takeWhile p, .inr ?_, hnewline t, hstop⟩
    rw [takeWhile_cons_of_pos hdash]

theorem discardTurn_behind {nested : Bool} {content : Text} (hcontent : content <:+ body)
    (hbody : opensExecutable body = true ∨ nested = false ∧ content = body) :
    (discardTurn inComment nested body content).Behind byteSlash (byteStar :: body) := by
  unfold discardTurn
  split
  · trivial
  next rest hrest =>
    have hsuffix := (consumeComment_suffix _ _ hrest).trans hcontent
    have htext := readBytes_append_rest hsuffix
    refine ⟨.single ?_ ⟨_, rfl, ?_⟩, hsuffix.trans (suffix_cons _ _)⟩
    · rw [Cell.bytes, cons_append, cons_append, htext]
    · rw [htext]
      rcases hbody with hbody | ⟨rfl, rfl⟩
      · exact .inl hbody
      · exact .inr ⟨_, hrest⟩

theorem opensExecutable_eq (h : opensExecutable body = true) :
    ∃ content, body = (if peek body == 0x4D then [0x4D] else []) ++ byteBang :: content ∧
      content = if peek body == 0x4D then body.tail.tail else body.tail := by
  simp only [opensExecutable, Bool.or_eq_true, Bool.and_eq_true, beq_iff_eq] at h
  rcases h with hbang | ⟨hm, hbang⟩
  · obtain ⟨content, rfl⟩ := exists_cons_of_peek hbang (by decide)
    exact ⟨content, rfl, rfl⟩
  · obtain ⟨t, rfl⟩ := exists_cons_of_peek hm (by decide)
    obtain ⟨content, rfl⟩ := exists_cons_of_peek (s := t) hbang (by decide)
    exact ⟨content, rfl, rfl⟩

/-- A block comment: passed over, or entered behind its marker. -/
theorem longCommentTurn_behind :
    (longCommentTurn inComment body).Behind byteSlash (byteStar :: body) := by
  unfold longCommentTurn
  by_cases hopen : opensExecutable body = true
  · rw [if_pos hopen]
    obtain ⟨content, hbody, hcontent⟩ := opensExecutable_eq hopen
    simp only [← hcontent]
    have hsuffix : content <:+ body := by
      rw [hbody]
      exact (suffix_cons _ _).trans (suffix_append _ _)
    split_ifs with hversion
    · obtain ⟨rest, hrest⟩ := versionDigits_isPrefix content
      generalize versionDigits content = version at hversion hrest
      rw [Bool.or_eq_true, beq_iff_eq] at hversion
      let o : Opener := ⟨peek body == 0x4D, version, hversion⟩
      have htext : byteSlash :: byteStar :: body = o.bytes ++ rest := by
        conv_lhs => rw [hbody, ← hrest]
        simp [Opener.bytes, o]
      have hdrop : content.drop version.length = rest := by rw [← hrest, drop_left]
      have hrestbody : rest <:+ body := (hrest ▸ suffix_append version rest).trans hsuffix
      have hmarker : byteSlash :: byteStar :: readBytes body rest = o.bytes := by
        refine (append_left_inj rest).mp ?_
        rw [cons_append, cons_append, readBytes_append_rest hrestbody, htext]
      rw [hdrop, hmarker]
      exact ⟨.single htext.symm ⟨o, rfl⟩, hrestbody.trans (suffix_cons _ _)⟩
    · exact discardTurn_behind hsuffix (.inl hopen)
  · rw [if_neg hopen]
    exact discardTurn_behind (suffix_refl _) (.inr ⟨rfl, rfl⟩)

/-- **A turn that begins with a byte.** -/
theorem startTurn_behind : (startTurn inComment c s).Behind c s := by
  have hstate : ∀ b : UInt8, (stateMap b = .string → b = byteQuote ∨ b = byteDoubleQuote) ∧
      (stateMap b = .comment → b = byteHash) ∧ (stateMap b = .minusOrComment → b = byteDash) ∧
      (stateMap b = .longComment → b = byteSlash) ∧
      (stateMap b = .endLongComment → b = byteStar) ∧
      (stateMap b = .userVariableDelimiter → b = byteBacktick) ∧
      (stateMap b = .skip → isSpace b = true) ∧ (stateMap b = .eol → b = byteNul) := by
    decide +kernel
  have hhex : ∀ b : UInt8, isHexDigit b = true → b ≠ byteQuote ∧ b ≠ byteBackslash := by
    decide +kernel
  have hbinary : ∀ b : UInt8, isBinaryDigit b = true → b ≠ byteQuote ∧ b ≠ byteBackslash := by
    decide +kernel
  obtain ⟨hstring, hcomment, hdash, hslash, hstar, hbacktick, hskip, heol⟩ := hstate c
  have hself : ∀ next, (Turn.token (c :: s) s next inComment).Behind c s :=
    fun _ => token_behind (suffix_refl s)
  have htail : ∀ next, (Turn.token (c :: s) s.tail next inComment).Behind c s :=
    fun _ => token_behind (tail_suffix s)
  have hquote : ∀ {turn : Text → Turn}, (∀ t, s = byteQuote :: t → (turn t).Behind c s) →
      (if peek s == byteQuote then turn s.tail else identTurn inComment c s).Behind c s := by
    intro turn h
    split_ifs with hpeek
    · obtain ⟨t, rfl⟩ := exists_cons_of_peek (beq_iff_eq.mp hpeek) (by decide)
      exact h t rfl
    · exact identTurn_behind
  unfold startTurn
  split
  next h => exact ⟨.single rfl (hskip h), suffix_refl s⟩
  next => exact hself _
  next => exact htail _
  next h =>
    split_ifs with hpeek
    · rw [Bool.and_eq_true, beq_iff_eq] at hpeek
      exact commentTurn_behind (.inr ⟨hdash h, hpeek.1⟩)
    · exact hself _
  next h => exact commentTurn_behind (.inl (hcomment h))
  next h =>
    split_ifs with hpeek
    · obtain ⟨t, rfl⟩ := exists_cons_of_peek (beq_iff_eq.mp hpeek) (by decide)
      rw [hslash h]
      exact longCommentTurn_behind
    · exact hself _
  next h =>
    split_ifs with hpeek
    · rw [Bool.and_eq_true, beq_iff_eq] at hpeek
      obtain ⟨t, rfl⟩ := exists_cons_of_peek hpeek.2 (by decide)
      rw [hstar h]
      exact ⟨.single rfl trivial, suffix_cons _ t⟩
    · exact hself _
  next h =>
    obtain ⟨cells, rest, hturn, hreads, hrest⟩ := readsTo_stringTurn (hstring h) inComment [] s
    rw [hturn]
    exact ⟨hreads, hrest⟩
  next h =>
    split
    next rest hrest =>
      obtain ⟨body, rfl, hbody⟩ := delimitedEnd_some _ _ _ hrest
      rw [hbacktick h]
      have htext : (byteBacktick :: (body ++ [byteBacktick])) ++ rest
          = byteBacktick :: (body ++ byteBacktick :: rest) := by simp
      refine ⟨.single ?_ ⟨body, readBytes_eq htext, hbody⟩, ?_⟩
      · rw [Cell.bytes, readBytes_eq htext, htext]
      · exact (suffix_cons _ _).trans (suffix_append _ _)
    next => exact hself _
  next =>
    refine hquote fun t ht => ?_
    obtain ⟨cells, rest, hturn, hreads, hrest⟩ :=
      readsTo_stringTurn (.inl rfl) inComment [.executed c] t
    rw [hturn, ht]
    exact ⟨hreads.cons_executed, hrest.trans (suffix_cons _ t)⟩
  next =>
    refine hquote fun t ht => ?_
    rw [ht]
    exact basedStringTurn_behind hhex
  next =>
    refine hquote fun t ht => ?_
    rw [ht]
    exact basedStringTurn_behind hbinary
  next => exact identTurn_behind
  next =>
    split
    next rest hrest => exact token_behind (numberEnd_suffix (by rw [hrest]; rfl))
    next rest hrest => exact token_behind (numberEnd_suffix (by rw [hrest]; rfl))
    next => trivial
  next =>
    split_ifs
    · split
      next rest hrest => exact token_behind (realEnd_suffix hrest)
      next => trivial
    · exact htail _
    · exact hself _
  next => exact token_behind (cmpOpEnd_suffix c s)
  next => exact token_behind (longCmpOpEnd_suffix c s)
  next => split_ifs; exacts [htail _, hself _]
  next => split_ifs; exacts [htail _, hself _]
  next h =>
    split_ifs with hempty
    · trivial
    · rw [isEmpty_iff.mp hempty, heol h]
      exact .single rfl rfl
    · exact hself _
  next => exact hself _

end

/-! ### Whole texts -/

/-- What a turn in any state does. -/
def Turn.Ok (s : Text) : Turn → Prop
  | .abort => True
  | .endOfInput cells => ReadsTo s cells []
  | .read cells _ _ rest => ReadsTo s cells rest

theorem lexTurn_ok (next : NextState) (inComment : Bool) (s : Text) :
    (lexTurn next inComment s).Ok s := by
  unfold lexTurn
  cases next with
  | start =>
    cases s with
    | nil =>
      cases inComment
      · exact ⟨rfl, trivial⟩
      · trivial
    | cons c s =>
      have h : (startTurn inComment c s).Behind c s := startTurn_behind
      show (startTurn inComment c s).Ok (c :: s)
      cases hturn : startTurn inComment c s with
      | abort => trivial
      | endOfInput cells => rwa [hturn] at h
      | read cells next ic rest =>
        rw [hturn] at h
        exact h.1
  | identSep => exact readsTo_token (tail_suffix s)
  | identOrKeyword =>
    by_cases hlen : ((s.dropWhile isIdentByte).length == s.length) = true
    · simp only [hlen, if_true]
      trivial
    · simp only [hlen]
      exact readsTo_token (dropWhile_suffix _)
  | hostname => exact readsTo_token (dropWhile_suffix _)
  | systemVar => exact readsTo_token (tail_suffix s)

theorem lexTurns_pos (next : NextState) (s : Text) : 0 < lexTurns next s := by
  unfold lexTurns
  cases next <;> exact Nat.succ_pos _

/-- A turn leaves fewer turns than there were. -/
theorem lexTurns_lt {next next' : NextState} {inComment inComment' : Bool} {s : Text}
    {cells : List Cell} (h : lexTurn next inComment s = .read cells next' inComment' rest) :
    lexTurns next' rest < lexTurns next s := by
  have hnext : next'.turns ≤ 3 := by cases next' <;> decide
  unfold lexTurns
  cases next with
  | start =>
    cases s with
    | nil => cases inComment <;> cases h
    | cons c s =>
      have hbehind : (startTurn inComment c s).Behind c s := startTurn_behind
      rw [show startTurn inComment c s = .read cells next' inComment' rest from h] at hbehind
      have hle := hbehind.2.length_le
      have hstart : NextState.start.turns = 1 := rfl
      rw [length_cons]
      omega
  | identSep | systemVar =>
    cases h
    cases s with
    | nil => decide
    | cons c s =>
      simp only [length_cons, tail_cons, NextState.turns] at hnext ⊢
      omega
  | identOrKeyword =>
    simp only [lexTurn] at h
    split_ifs at h with hlen <;> cases h
    all_goals
      have hle := (dropWhile_suffix isIdentByte (l := s)).length_le
      rw [beq_iff_eq] at hlen
      simp only [NextState.turns]
      omega
  | hostname =>
    cases h
    have hle := (dropWhile_suffix isHostByte (l := s)).length_le
    simp only [NextState.turns]
    omega

/-- **Enough turns.** With at least `lexTurns` turns the lexer comes to its own end. -/
theorem lexLoop_turns : ∀ (n m : ℕ) (next : NextState) (inComment : Bool) (s : Text),
    lexTurns next s ≤ n → lexTurns next s ≤ m →
      lexLoop n next inComment s = lexLoop m next inComment s := by
  intro n
  induction n with
  | zero =>
    intro m next inComment s hn
    exact absurd (lexTurns_pos next s) (by omega)
  | succ n ih =>
    intro m next inComment s hn hm
    have hpos := lexTurns_pos next s
    obtain ⟨m, rfl⟩ : ∃ k, m = k + 1 := ⟨m - 1, by omega⟩
    rw [lexLoop, lexLoop]
    split
    · rfl
    · rfl
    next cells next' inComment' rest hturn =>
      have hlt := lexTurns_lt hturn
      rw [ih m next' inComment' rest (by omega) (by omega)]

theorem lexLoop_ok : ∀ (turns : ℕ) (next : NextState) (inComment : Bool) (s : Text)
    (cells : List Cell), lexLoop turns next inComment s = some cells → ReadsTo s cells [] := by
  intro turns
  induction turns with
  | zero => intro next inComment s cells h; cases h
  | succ turns ih =>
    intro next inComment s cells h
    have hturn := lexTurn_ok next inComment s
    rw [lexLoop] at h
    split at h
    · cases h
    next cells' heq =>
      cases h
      rwa [heq] at hturn
    next cells' next' inComment' rest heq =>
      rw [heq] at hturn
      obtain ⟨more, hmore, rfl⟩ := Option.map_eq_some_iff.mp h
      exact hturn.append (ih next' inComment' rest more hmore)

/-- **The cells are the text.** -/
theorem lexCells_ok {sql : Text} {cells : List Cell} (h : lexCells sql = some cells) :
    cellsText cells = sql ∧ CellsOk cells [] := by
  have hreads := lexLoop_ok _ _ _ _ _ h
  exact ⟨by rw [← hreads.text, append_nil], hreads.ok⟩

end MyLite.MariaDB

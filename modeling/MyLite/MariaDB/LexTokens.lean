import MyLite.MariaDB.Cells
import MyLite.MariaDB.UseStatement

namespace MyLite.MariaDB

open MyLite.Sql MyLite.Policy List

/-!
# The tokens of MariaDB's lexer

`lexCells` says what becomes of every byte of a text; here a turn of the lexer's loop is the token
it returns to the parser.  A name in backticks has the value that `THD::quote_unescape` gives it.

* `lexTokens` — the tokens of a text that the lexer reads to `END_OF_INPUT`.
* `lexTurn_word`, `lexTurn_delimited` — the turns that read a word and a name in backticks.
* `lexCut`, `SeenAlike` — the tokens as the policy cuts them, and the texts of which its own
  tokenizer sees the same.
-/

/-- `THD::quote_unescape`: a quote takes the byte behind it along. -/
def quoteUnescape (quote : UInt8) : Text → Text
  | [] => []
  | [c] => [c]
  | c :: d :: rest =>
    if c == quote then c :: quoteUnescape quote rest else c :: quoteUnescape quote (d :: rest)

/-- What the parser gets. -/
inductive LexToken
  /-- A word, a number, an operator or a single symbol. -/
  | plain (bytes : Text)
  /-- A string literal with its quotes. -/
  | string (bytes : Text)
  /-- `IDENT_QUOTED`, by its value. -/
  | delimited (name : Text)
  deriving DecidableEq, Repr

/-- The token of a turn; spaces and comments are none.  A host name is one also if it is empty. -/
def tokenOf (state : NextState) (cells : List Cell) : Option LexToken :=
  match cells.getLast? with
  | some (.executed _) => some (.plain (cellsText cells))
  | some (.string _) => some (.string (cellsText cells))
  | some (.openString _) => some (.string (cellsText cells))
  | some (.name bytes) => some (.delimited (quoteUnescape byteBacktick bytes.tail.dropLast))
  | some _ => none
  | none => if state = .hostname then some (.plain []) else none

/-- The tokens up to `END_OF_INPUT`. -/
def lexTokensLoop : ℕ → NextState → Bool → Text → Option (List LexToken)
  | 0, _, _, _ => none
  | turns + 1, state, inComment, s =>
    match lexTurn state inComment s with
    | .abort => none
    | .endOfInput _ => some []
    | .read cells state' inComment' rest =>
      (lexTokensLoop turns state' inComment' rest).map ((tokenOf state cells).toList ++ ·)

/-- The tokens of a text that the lexer accepts to its end. -/
def lexTokens (sql : Text) : Option (List LexToken) :=
  lexTokensLoop (lexTurns .start sql) .start false sql

variable {rest : Text}

theorem lexTokensLoop_read {turns : ℕ} {state state' : NextState} {inComment inComment' : Bool}
    {s : Text} {cells : List Cell}
    (h : lexTurn state inComment s = .read cells state' inComment' rest) :
    lexTokensLoop (turns + 1) state inComment s =
      (lexTokensLoop turns state' inComment' rest).map ((tokenOf state cells).toList ++ ·) := by
  rw [lexTokensLoop, h]

theorem lexTokensLoop_nil (turns : ℕ) : lexTokensLoop (turns + 1) .start false [] = some [] := rfl

/-! ### Words -/

variable {c : UInt8} {w : Text}

theorem charLength_of_isSqlIdentifierChar (h : isSqlIdentifierChar c = true) (s : Text) :
    charLength (c :: s) = 1 := by
  have hlow : ∀ b : UInt8, isSqlIdentifierChar b = true → b < 0x80 := by decide +kernel
  exact if_pos (hlow c h)

/-- The rest of a word, up to what does not go on with it. -/
theorem identEnd_word (hw : ∀ b ∈ w, isSqlIdentifierChar b = true)
    (hrest : ∀ b ∈ rest.head?, isIdentByte b = false) :
    ∀ {turns : ℕ}, w.length ≤ turns → identEnd turns (w ++ rest) = rest := by
  induction w with
  | nil =>
    intro turns _
    cases turns with
    | zero => rfl
    | succ turns =>
      cases rest with
      | nil => rfl
      | cons b rest =>
        rw [nil_append, identEnd, if_neg (by rw [hrest b rfl]; decide)]
  | cons c w ih =>
    intro turns hturns
    obtain ⟨turns, rfl⟩ : ∃ n, turns = n + 1 :=
      ⟨turns - 1, by rw [length_cons] at hturns; omega⟩
    have hc := hw c mem_cons_self
    rw [cons_append, identEnd, if_pos (isIdentByte_of_isSqlIdentifierChar hc),
      charLength_of_isSqlIdentifierChar hc]
    exact ih (fun b hb => hw b (mem_cons_of_mem _ hb)) (Nat.le_of_succ_le_succ hturns)

/-- Nothing or a space. -/
def EndsWord (rest : Text) : Prop := rest = [] ∨ ∃ s, rest = byteSpace :: s

theorem EndsWord.not_isIdentByte (h : EndsWord rest) : ∀ b ∈ rest.head?, isIdentByte b = false := by
  rcases h with rfl | ⟨s, rfl⟩
  · exact nofun
  · intro b hb
    obtain rfl : byteSpace = b := Option.some.inj hb
    decide

theorem EndsWord.peek_ne (h : EndsWord rest) {b : UInt8} (hnul : b ≠ byteNul)
    (hspace : b ≠ byteSpace) : peek rest ≠ b := by
  rcases h with rfl | ⟨s, rfl⟩
  · exact Ne.symm hnul
  · exact Ne.symm hspace

/-- The turn that reads a word in front of a space or the end of the text. -/
theorem lexTurn_word (inComment : Bool) (hdigit : isDigit c = false)
    (hw : ∀ b ∈ c :: w, isSqlIdentifierChar b = true) (hrest : EndsWord rest) :
    lexTurn .start inComment (c :: w ++ rest) =
      .read ((c :: w).map .executed) .start inComment rest := by
  have hstates : ∀ b : UInt8, isSqlIdentifierChar b = true → isDigit b = false →
      stateMap b = .ident ∨ stateMap b = .identOrHex ∨ stateMap b = .identOrBin ∨
        stateMap b = .identOrNchar := by
    decide +kernel
  have hquote : ∀ b : UInt8, isSqlIdentifierChar b = true → b ≠ byteQuote := by decide +kernel
  have hc := hw c mem_cons_self
  have hw' : ∀ b ∈ w, isSqlIdentifierChar b = true := fun b hb => hw b (mem_cons_of_mem _ hb)
  -- A letter in front of a quote would begin a literal.
  have hpeek : (peek (w ++ rest) == byteQuote) = false := by
    rw [beq_eq_false_iff_ne]
    cases w with
    | nil => exact hrest.peek_ne (by decide) (by decide)
    | cons d w => exact hquote d (hw' d mem_cons_self)
  have hafter : afterIdent rest = .start := by
    have hdot : (peek rest == byteDot) = false :=
      beq_eq_false_iff_ne.mpr (hrest.peek_ne (by decide) (by decide))
    rw [afterIdent, hdot]
    rfl
  have hident : identTurn inComment c (w ++ rest) =
      .read ((c :: w).map .executed) .start inComment rest := by
    have hread : readBytes (c :: (w ++ rest)) rest = c :: w := by
      rw [readBytes, ← cons_append, length_append, Nat.add_sub_cancel, take_left]
    rw [identTurn, charLength_of_isSqlIdentifierChar hc]
    show Turn.token (c :: (w ++ rest)) (identEnd (w ++ rest).length (w ++ rest))
      (afterIdent (identEnd (w ++ rest).length (w ++ rest))) inComment = _
    have hend : identEnd (w ++ rest).length (w ++ rest) = rest :=
      identEnd_word hw' hrest.not_isIdentByte (by rw [length_append]; omega)
    rw [hend, hafter, Turn.token, hread]
  rw [cons_append, lexTurn, startTurn]
  rcases hstates c hc hdigit with hs | hs | hs | hs <;> simp only [hs, hpeek] <;> exact hident

theorem tokenOf_word (state : NextState) (c : UInt8) (w : Text) :
    tokenOf state ((c :: w).map .executed) = some (.plain (c :: w)) := by
  have htext : ∀ v : Text, cellsText (v.map .executed) = v := by
    intro v
    induction v with
    | nil => rfl
    | cons b v ih => exact congrArg (b :: ·) ih
  have hlast : ((c :: w).map Cell.executed).getLast? =
      some (.executed ((c :: w).getLast (cons_ne_nil c w))) := by
    rw [List.getLast?_map, List.getLast?_eq_some_getLast (cons_ne_nil c w)]
    rfl
  rw [tokenOf, hlast]
  exact congrArg (some ∘ LexToken.plain) (htext (c :: w))

/-- A word at the head of a text is its first token. -/
theorem lexTokensLoop_word (turns : ℕ) (hdigit : isDigit c = false)
    (hw : ∀ b ∈ c :: w, isSqlIdentifierChar b = true) (hrest : EndsWord rest) :
    lexTokensLoop (turns + 1) .start false (c :: w ++ rest) =
      (lexTokensLoop turns .start false rest).map (.plain (c :: w) :: ·) := by
  rw [lexTokensLoop_read (lexTurn_word false hdigit hw hrest), tokenOf_word]
  rfl

/-- A space is passed over. -/
theorem lexTokensLoop_space (turns : ℕ) (s : Text) :
    lexTokensLoop (turns + 1) .start false (byteSpace :: s) =
      lexTokensLoop turns .start false s := by
  have hturn : lexTurn .start false (byteSpace :: s) = .read [.blank byteSpace] .start false s :=
    rfl
  rw [lexTokensLoop_read hturn]
  exact Option.map_id_fun' ▸ rfl

/-! ### Names in backticks -/

variable {tail : Text}

theorem doubleBackticks_cons (h : c ≠ byteBacktick) (name : Text) :
    doubleBackticks (c :: name) = c :: doubleBackticks name := by
  rw [doubleBackticks, flatMap_cons, if_neg (by simpa using h)]
  rfl

theorem quoteUnescape_doubleBackticks (name : Text) :
    quoteUnescape byteBacktick (doubleBackticks name) = name := by
  induction name with
  | nil => rfl
  | cons c name ih =>
    by_cases hc : c = byteBacktick
    · subst hc
      show quoteUnescape byteBacktick (byteBacktick :: byteBacktick :: doubleBackticks name) = _
      rw [quoteUnescape, if_pos (beq_self_eq_true _), ih]
    · rw [doubleBackticks_cons hc]
      cases hname : doubleBackticks name with
      | nil =>
        rw [hname] at ih
        rw [quoteUnescape, ← ih]
        rfl
      | cons d rest =>
        rw [quoteUnescape, if_neg (by simpa using hc), ← hname, ih]

/-- Where no backtick is passed, as many bytes of the name are left behind. -/
theorem drop_doubleBackticks (tail : Text) : ∀ (k : ℕ) (name : Text),
    (∀ b ∈ (doubleBackticks name ++ byteBacktick :: tail).take k, b ≠ byteBacktick) →
    (doubleBackticks name ++ byteBacktick :: tail).drop k
      = doubleBackticks (name.drop k) ++ byteBacktick :: tail := by
  intro k
  induction k with
  | zero => exact fun name _ => rfl
  | succ k ih =>
    intro name hplain
    cases name with
    | nil => exact absurd rfl (hplain byteBacktick mem_cons_self)
    | cons c name =>
      by_cases hc : c = byteBacktick
      · subst hc
        exact absurd rfl (hplain byteBacktick mem_cons_self)
      · rw [doubleBackticks_cons hc] at hplain ⊢
        exact ih name fun b hb => hplain b (mem_cons_of_mem _ hb)

/-- **Delimited names.** The scanner finds the end of every name whose backticks are doubled: a
    character of several bytes never reaches over one of them. -/
theorem delimitedEnd_doubleBackticks (htail : peek tail ≠ byteBacktick) :
    ∀ (turns : ℕ) (name : Text), byteNul ∉ name →
      (doubleBackticks name ++ byteBacktick :: tail).length ≤ turns →
      delimitedEnd turns (doubleBackticks name ++ byteBacktick :: tail) = some tail := by
  intro turns
  induction turns with
  | zero =>
    intro name _ hturns
    rw [length_append, length_cons] at hturns
    omega
  | succ turns ih =>
    intro name hnul hturns
    cases name with
    | nil =>
      show delimitedEnd (turns + 1) (byteBacktick :: tail) = _
      rw [delimitedEnd, if_neg (by decide)]
      show (if byteBacktick == byteBacktick then _ else _) = _
      rw [if_pos (beq_self_eq_true _), if_pos (by simpa using htail)]
    | cons c name =>
      rw [mem_cons, not_or] at hnul
      by_cases hc : c = byteBacktick
      · subst hc
        show delimitedEnd (turns + 1)
          (byteBacktick :: byteBacktick :: (doubleBackticks name ++ byteBacktick :: tail)) = _
        rw [delimitedEnd, if_neg (by decide)]
        show (if byteBacktick == byteBacktick then
          if byteBacktick != byteBacktick then _ else
            delimitedEnd turns (doubleBackticks name ++ byteBacktick :: tail) else _) = _
        rw [if_pos (beq_self_eq_true _), if_neg (by decide)]
        refine ih name hnul.2 ?_
        have hlen : (doubleBackticks (byteBacktick :: name)).length
            = (doubleBackticks name).length + 2 := rfl
        rw [length_append, hlen] at hturns
        rw [length_append]
        omega
      · rw [doubleBackticks_cons hc, cons_append] at hturns ⊢
        have hnext : delimitedEnd turns (doubleBackticks name ++ byteBacktick :: tail) =
            some tail :=
          ih name hnul.2 (Nat.le_of_succ_le_succ hturns)
        rw [delimitedEnd, if_neg (by simpa using Ne.symm hnul.1)]
        split
        · exact hnext
        · rw [if_neg (by simpa using hc)]
          exact hnext
        · next l hlen =>
          -- The bytes of a longer character are outside ASCII, so no backtick is among them.
          have hplain : ∀ b ∈ (doubleBackticks name ++ byteBacktick :: tail).take (l + 1),
              b ≠ byteBacktick := by
            intro b hb
            have hhigh := charlenUtf8mb4_high
              (c :: (doubleBackticks name ++ byteBacktick :: tail)) b
            rw [charlenUtf8mb4_of_charLength hlen, take_succ_cons] at hhigh
            exact ne_of_high (hhigh (mem_cons_of_mem _ hb)) (by decide)
          have hdrop := drop_doubleBackticks tail (l + 1) name hplain
          rw [hdrop]
          refine ih _ (fun hmem => hnul.2 (mem_of_mem_drop hmem)) ?_
          rw [← hdrop, length_drop]
          rw [length_cons] at hturns
          omega

/-- The turn that reads a name in backticks. -/
theorem lexTurn_delimited {name : Text} (inComment : Bool) (hnul : byteNul ∉ name)
    (htail : peek tail ≠ byteBacktick) :
    lexTurn .start inComment (byteBacktick :: (doubleBackticks name ++ byteBacktick :: tail)) =
      .read [.name (byteBacktick :: (doubleBackticks name ++ [byteBacktick]))] .start inComment
        tail := by
  have hend := delimitedEnd_doubleBackticks htail
    (doubleBackticks name ++ byteBacktick :: tail).length name hnul (Nat.le_refl _)
  have hread : readBytes (byteBacktick :: (doubleBackticks name ++ byteBacktick :: tail)) tail
      = byteBacktick :: (doubleBackticks name ++ [byteBacktick]) := by
    have hsplit : byteBacktick :: (doubleBackticks name ++ byteBacktick :: tail)
        = byteBacktick :: (doubleBackticks name ++ [byteBacktick]) ++ tail := by simp
    rw [readBytes, hsplit, length_append, Nat.add_sub_cancel, take_left]
  show startTurn inComment byteBacktick _ = _
  have hstate : stateMap byteBacktick = .userVariableDelimiter := rfl
  simp only [startTurn, hstate, hend]
  exact congrArg (fun bytes => Turn.read [.name bytes] .start inComment tail) hread

/-- A name in backticks at the head of a text is its first token. -/
theorem lexTokensLoop_delimited {name : Text} (turns : ℕ) (hnul : byteNul ∉ name)
    (htail : peek tail ≠ byteBacktick) :
    lexTokensLoop (turns + 1) .start false
        (byteBacktick :: (doubleBackticks name ++ byteBacktick :: tail)) =
      (lexTokensLoop turns .start false tail).map (.delimited name :: ·) := by
  have htoken : tokenOf .start [.name (byteBacktick :: (doubleBackticks name ++ [byteBacktick]))]
      = some (.delimited name) := by
    show some (LexToken.delimited (quoteUnescape byteBacktick
      (doubleBackticks name ++ [byteBacktick]).dropLast)) = _
    rw [dropLast_concat, quoteUnescape_doubleBackticks]
  rw [lexTokensLoop_read (lexTurn_delimited false hnul htail), htoken]
  rfl

/-! ### The policy's view -/

/-- The bytes of a token. -/
def LexToken.text : LexToken → Text
  | plain bytes => bytes
  | string bytes => bytes
  | delimited name => byteBacktick :: (doubleBackticks name ++ [byteBacktick])

/-- What MariaDB reads in a text, each token cut as the policy cuts its bytes. -/
def lexCut (sql : Text) : Option (List Text) :=
  (lexTokens sql).map (·.flatMap (sqlTokens ·.text))

/-- The policy's tokenizer sees what MariaDB reads.  They part where only one of the two takes
    something for a space or a comment: `1--1`, a vertical tab, `/*M! ... */`. -/
def SeenAlike (sql : Text) : Prop := lexCut sql = some (sqlTokens sql)

theorem SeenAlike.sqlTokens_eq {sql : Text} {tokens : List Text} (h : SeenAlike sql)
    (hread : lexCut sql = some tokens) : sqlTokens sql = tokens :=
  Option.some.inj (h.symm.trans hread)

theorem seenAlike_of_eq {sql : Text} {tokens : List Text} (hread : lexCut sql = some tokens)
    (hseen : sqlTokens sql = tokens) : SeenAlike sql :=
  hread.trans (congrArg some hseen.symm)

end MyLite.MariaDB

import MyLite.MariaDB.ParserCharset

namespace MyLite.MariaDB

open MyLite.Sql List

/-!
# String literals

`Lex_input_stream::get_text` and `my_unescape` of `sql_lex.cc`: how the lexer finds the end of a
literal whose opening quote it has read, and which value the literal then has.  Both depend on the
session: on the character set of the client, whose multi-byte characters are passed over as a
whole, and on `NO_BACKSLASH_ESCAPES`.  The loops advance by at least one byte, so the length of
the text bounds their turns.
-/

/-- What the lexer knows of the session. -/
structure LexSession where
  charset : ParserCharset
  noBackslashEscapes : Bool
  deriving DecidableEq, Repr

/-- The session of a new connection. -/
def defaultSession : LexSession := ⟨.utf8mb4, false⟩

/-- The value of a backslash and the byte behind it. -/
def escapeValue (c : UInt8) : Text :=
  if c == 0x6E then [0x0A]
  else if c == 0x74 then [0x09]
  else if c == 0x72 then [0x0D]
  else if c == 0x62 then [0x08]
  else if c == 0x30 then [0x00]
  else if c == 0x5A then [0x1A]
  else if c == 0x5F || c == 0x25 then [byteBackslash, c]
  else [c]

/-- The loop of `my_unescape`. -/
def unescapeLoop (session : LexSession) (sep : UInt8) : ℕ → Text → Text
  | 0, _ => []
  | _ + 1, [] => []
  | turns + 1, c :: rest =>
    let l := ismbchar session.charset (c :: rest)
    if l ≠ 0 then (c :: rest).take l ++ unescapeLoop session sep turns ((c :: rest).drop l)
    else if !session.noBackslashEscapes && c == byteBackslash && !rest.isEmpty then
      rest.head?.elim [] escapeValue ++ unescapeLoop session sep turns rest.tail
    -- the second of two quotes is passed over
    else if c == sep then c :: unescapeLoop session sep turns rest.tail
    else c :: unescapeLoop session sep turns rest

/-- `my_unescape`. -/
def myUnescape (session : LexSession) (sep : UInt8) (text : Text) : Text :=
  unescapeLoop session sep text.length text

/-- What the scan of a literal has found so far. -/
structure Scanned where
  foundEscape : Bool
  body : Text
  rest : Text
  deriving DecidableEq, Repr

/-- Some more bytes in front of the body. -/
def Scanned.add (escape : Bool) (bytes : Text) (s : Scanned) : Scanned :=
  { s with foundEscape := escape || s.foundEscape, body := bytes ++ s.body }

/-- The loop of `get_text` over the text behind the opening quote; `none` where the text ends
    before the literal. -/
def getTextLoop (session : LexSession) (sep : UInt8) : ℕ → Text → Option Scanned
  | 0, _ => none
  | _ + 1, [] => none
  | turns + 1, c :: rest =>
    let l := ismbchar session.charset (c :: rest)
    if l ≠ 0 then
      (getTextLoop session sep turns ((c :: rest).drop l)).map (.add false ((c :: rest).take l))
    else if c == byteBackslash && !session.noBackslashEscapes then
      match rest.head? with
      | none => none
      | some d => (getTextLoop session sep turns rest.tail).map (.add true [c, d])
    else if c == sep then
      if rest.head? = some sep then
        (getTextLoop session sep turns rest.tail).map (.add true [c, sep])
      else some ⟨false, [], rest⟩
    else (getTextLoop session sep turns rest).map (.add false [c])

/-- `get_text`: the value of the literal and the text behind it. -/
def getText (session : LexSession) (sep : UInt8) (text : Text) : Option (Text × Text) :=
  (getTextLoop session sep text.length text).map fun s =>
    (if s.foundEscape then myUnescape session sep s.body else s.body, s.rest)

/-! ### Turns of the loops -/

section

variable {session : LexSession} {sep c : UInt8} {turns : ℕ} {body rest : Text}

theorem unescapeLoop_char (h : ismbchar session.charset (body ++ rest) = body.length)
    (hne : body ≠ []) :
    unescapeLoop session sep (turns + 1) (body ++ rest)
      = body ++ unescapeLoop session sep turns rest := by
  obtain ⟨b, body, rfl⟩ := exists_cons_of_ne_nil hne
  rw [cons_append] at h ⊢
  rw [unescapeLoop, h, if_pos (by simp), ← cons_append, take_left, drop_left]

theorem unescapeLoop_escape {d : UInt8}
    (h : ismbchar session.charset (byteBackslash :: d :: rest) = 0)
    (hescapes : session.noBackslashEscapes = false) :
    unescapeLoop session sep (turns + 1) (byteBackslash :: d :: rest)
      = escapeValue d ++ unescapeLoop session sep turns rest := by
  rw [unescapeLoop, h, if_neg (by simp), if_pos (by simp [hescapes])]
  rfl

theorem unescapeLoop_plain (h : ismbchar session.charset (c :: rest) = 0)
    (hback : c = byteBackslash → session.noBackslashEscapes = true) (hsep : c ≠ sep) :
    unescapeLoop session sep (turns + 1) (c :: rest)
      = c :: unescapeLoop session sep turns rest := by
  have hescape : ¬(!session.noBackslashEscapes && c == byteBackslash && !rest.isEmpty) = true := by
    by_cases hc : c = byteBackslash
    · simp [hback hc]
    · simp [hc]
  rw [unescapeLoop, h, if_neg (by simp), if_neg hescape, if_neg (by simp [hsep])]

theorem unescapeLoop_doubled (h : ismbchar session.charset (sep :: sep :: rest) = 0)
    (hback : sep ≠ byteBackslash) :
    unescapeLoop session sep (turns + 1) (sep :: sep :: rest)
      = sep :: unescapeLoop session sep turns rest := by
  rw [unescapeLoop, h, if_neg (by simp), if_neg (by simp [hback]), if_pos (by simp)]
  rfl

theorem getTextLoop_char (h : ismbchar session.charset (body ++ rest) = body.length)
    (hne : body ≠ []) :
    getTextLoop session sep (turns + 1) (body ++ rest)
      = (getTextLoop session sep turns rest).map (.add false body) := by
  obtain ⟨b, body, rfl⟩ := exists_cons_of_ne_nil hne
  rw [cons_append] at h ⊢
  rw [getTextLoop, h, if_pos (by simp), ← cons_append, take_left, drop_left]

theorem getTextLoop_escape {d : UInt8}
    (h : ismbchar session.charset (byteBackslash :: d :: rest) = 0)
    (hescapes : session.noBackslashEscapes = false) :
    getTextLoop session sep (turns + 1) (byteBackslash :: d :: rest)
      = (getTextLoop session sep turns rest).map (.add true [byteBackslash, d]) := by
  rw [getTextLoop, h, if_neg (by simp), if_pos (by simp [hescapes])]
  rfl

theorem getTextLoop_plain (h : ismbchar session.charset (c :: rest) = 0)
    (hback : c = byteBackslash → session.noBackslashEscapes = true) (hsep : c ≠ sep) :
    getTextLoop session sep (turns + 1) (c :: rest)
      = (getTextLoop session sep turns rest).map (.add false [c]) := by
  rw [getTextLoop, h, if_neg (by simp), if_neg (by simpa using hback), if_neg (by simp [hsep])]

theorem getTextLoop_doubled (h : ismbchar session.charset (sep :: sep :: rest) = 0)
    (hback : sep ≠ byteBackslash) :
    getTextLoop session sep (turns + 1) (sep :: sep :: rest)
      = (getTextLoop session sep turns rest).map (.add true [sep, sep]) := by
  rw [getTextLoop, h, if_neg (by simp), if_neg (by simp [hback]), if_pos (by simp),
    if_pos (by rfl)]
  rfl

theorem getTextLoop_end (h : ismbchar session.charset (sep :: rest) = 0)
    (hback : sep ≠ byteBackslash) (hrest : rest.head? ≠ some sep) :
    getTextLoop session sep (turns + 1) (sep :: rest) = some ⟨false, [], rest⟩ := by
  rw [getTextLoop, h, if_neg (by simp), if_neg (by simp [hback]), if_pos (by simp), if_neg hrest]

end

/-! ### Bodies of literals -/

/-- The bytes between the quotes of a literal, its value, and whether a byte in it is escaped.  What
    is one character to the lexer depends on the text `post` behind the body. -/
inductive LiteralBody (session : LexSession) (sep : UInt8) (post : Text) :
    Text → Text → Bool → Prop
  | nil : LiteralBody session sep post [] [] false
  | char {body rest value : Text} {found : Bool} (hne : body ≠ [])
      (hchar : ismbchar session.charset (body ++ (rest ++ post)) = body.length)
      (hrest : LiteralBody session sep post rest value found) :
      LiteralBody session sep post (body ++ rest) (body ++ value) found
  | escape {d : UInt8} {rest value : Text} {found : Bool}
      (hescapes : session.noBackslashEscapes = false)
      (hchar : ismbchar session.charset (byteBackslash :: d :: (rest ++ post)) = 0)
      (hrest : LiteralBody session sep post rest value found) :
      LiteralBody session sep post (byteBackslash :: d :: rest) (escapeValue d ++ value) true
  | doubled {rest value : Text} {found : Bool}
      (hchar : ismbchar session.charset (sep :: sep :: (rest ++ post)) = 0)
      (hrest : LiteralBody session sep post rest value found) :
      LiteralBody session sep post (sep :: sep :: rest) (sep :: value) true
  | plain {c : UInt8} {rest value : Text} {found : Bool} (hsep : c ≠ sep)
      (hback : c = byteBackslash → session.noBackslashEscapes = true)
      (hchar : ismbchar session.charset (c :: (rest ++ post)) = 0)
      (hrest : LiteralBody session sep post rest value found) :
      LiteralBody session sep post (c :: rest) (c :: value) found

namespace LiteralBody

variable {session : LexSession} {sep : UInt8} {post body value : Text} {found : Bool}

/-- A body without escapes is its value. -/
theorem eq_of_not_found (h : LiteralBody session sep post body value found)
    (hfound : found = false) : body = value := by
  induction h with
  | nil => rfl
  | char _ _ _ ih => rw [ih hfound]
  | escape | doubled => cases hfound
  | plain _ _ _ _ ih => rw [ih hfound]

/-- `my_unescape` gives the value. -/
theorem unescapeLoop_eq (h : LiteralBody session sep post body value found)
    (hback : sep ≠ byteBackslash) {turns : ℕ} (hturns : body.length ≤ turns) :
    unescapeLoop session sep turns body = value := by
  induction h generalizing turns with
  | nil => cases turns <;> rfl
  | @char body rest value found hne hchar _ ih =>
    have hpos := length_pos_iff.mpr hne
    rw [length_append] at hturns
    obtain _ | turns := turns
    · omega
    rw [unescapeLoop_char (ismbchar_of_append hchar hne rest) hne, ih (by omega)]
  | escape hescapes hchar _ ih =>
    rw [length_cons, length_cons] at hturns
    obtain _ | turns := turns
    · omega
    rw [unescapeLoop_escape (ismbchar_eq_zero_of_append hchar) hescapes, ih (by omega)]
  | doubled hchar _ ih =>
    rw [length_cons, length_cons] at hturns
    obtain _ | turns := turns
    · omega
    rw [unescapeLoop_doubled (ismbchar_eq_zero_of_append hchar) hback, ih (by omega)]
  | plain hsep hplain hchar _ ih =>
    rw [length_cons] at hturns
    obtain _ | turns := turns
    · omega
    rw [unescapeLoop_plain (ismbchar_eq_zero_of_append hchar) hplain hsep, ih (by omega)]

/-- `get_text` finds the end of the body. -/
theorem getTextLoop_eq {tail : Text} (h : LiteralBody session sep (sep :: tail) body value found)
    (hback : sep ≠ byteBackslash) (hend : ismbchar session.charset (sep :: tail) = 0)
    (htail : tail.head? ≠ some sep) {turns : ℕ} (hturns : body.length < turns) :
    getTextLoop session sep turns (body ++ sep :: tail) = some ⟨found, body, tail⟩ := by
  induction h generalizing turns with
  | nil =>
    obtain _ | turns := turns
    · omega
    exact getTextLoop_end hend hback htail
  | @char body rest value found hne hchar _ ih =>
    have hpos := length_pos_iff.mpr hne
    rw [length_append] at hturns
    obtain _ | turns := turns
    · omega
    rw [append_assoc, getTextLoop_char hchar hne, ih (by omega)]
    rfl
  | escape hescapes hchar _ ih =>
    rw [length_cons, length_cons] at hturns
    obtain _ | turns := turns
    · omega
    rw [cons_append, cons_append, getTextLoop_escape hchar hescapes, ih (by omega)]
    rfl
  | doubled hchar _ ih =>
    rw [length_cons, length_cons] at hturns
    obtain _ | turns := turns
    · omega
    rw [cons_append, cons_append, getTextLoop_doubled hchar hback, ih (by omega)]
    rfl
  | plain hsep hplain hchar _ ih =>
    rw [length_cons] at hturns
    obtain _ | turns := turns
    · omega
    rw [cons_append, getTextLoop_plain hchar hplain hsep, ih (by omega)]
    rfl

/-- **Bodies.** The lexer reads the body up to its closing quote, with its value. -/
theorem getText_eq {tail : Text} (h : LiteralBody session sep (sep :: tail) body value found)
    (hback : sep ≠ byteBackslash) (hend : ismbchar session.charset (sep :: tail) = 0)
    (htail : tail.head? ≠ some sep) :
    getText session sep (body ++ sep :: tail) = some (value, tail) := by
  have hturns : body.length < (body ++ sep :: tail).length := by
    rw [length_append, length_cons]
    omega
  rw [getText, h.getTextLoop_eq hback hend htail hturns]
  cases hfound : found with
  | false =>
    show some (body, tail) = some (value, tail)
    rw [h.eq_of_not_found hfound]
  | true =>
    show some (myUnescape session sep body, tail) = some (value, tail)
    rw [myUnescape, h.unescapeLoop_eq hback (Nat.le_refl _)]

end LiteralBody

/-! ### Values written byte by byte -/

/-- A byte between single quotes: as it is, escaped, or doubled. -/
def EncodesByte (session : LexSession) (c : UInt8) (bytes : Text) : Prop :=
  (bytes = [c] ∧ c ≠ byteQuote ∧ (c = byteBackslash → session.noBackslashEscapes = true)) ∨
    (∃ d, bytes = [byteBackslash, d] ∧ escapeValue d = [c] ∧ session.noBackslashEscapes = false) ∨
    bytes = [byteQuote, byteQuote] ∧ c = byteQuote

section Bytes

variable {session : LexSession} {encode : UInt8 → Text}

/-- Plain bytes at the head of an encoded text, with what follows the text not being plain, are
    bytes of the value. -/
theorem exists_of_append_flatMap (hencode : ∀ c, EncodesByte session c (encode c))
    {body rest s post : Text} (heq : body ++ rest = s.flatMap encode ++ post)
    (hbody : ∀ b ∈ body, isPlainTail b = true)
    (hpost : ∀ b ∈ post.head?, isPlainTail b = false) :
    ∃ s', s = body ++ s' ∧ s.flatMap encode = body ++ s'.flatMap encode := by
  induction body generalizing s with
  | nil => exact ⟨s, rfl, rfl⟩
  | cons b body ih =>
    have hb : isPlainTail b = true := hbody b mem_cons_self
    cases s with
    | nil =>
      -- the byte would be the first one behind the text
      have hhead : post.head? = some b := by
        rw [← show b :: (body ++ rest) = post from heq]
        rfl
      rw [hpost b hhead] at hb
      cases hb
    | cons c s =>
      rw [flatMap_cons] at heq ⊢
      rcases hencode c with ⟨hc, -, -⟩ | ⟨d, hc, -, -⟩ | ⟨hc, -⟩
      · rw [hc] at heq ⊢
        obtain ⟨rfl, htail⟩ := List.cons.inj heq
        obtain ⟨s', rfl, hs'⟩ := ih htail fun d hd => hbody d (mem_cons_of_mem b hd)
        exact ⟨s', rfl, congrArg (b :: ·) hs'⟩
      · -- the byte would be a backslash
        rw [hc] at heq
        obtain rfl : b = byteBackslash := (List.cons.inj heq).1
        cases hb
      · rw [hc] at heq
        obtain rfl : b = byteQuote := (List.cons.inj heq).1
        cases hb

/-- **Byte by byte.** In a set that keeps escapes apart, the encoded bytes of a value are the body
    of a literal with that value. -/
theorem literalBody_flatMap (hcs : session.charset.keepsEscapes = true)
    (hencode : ∀ c, EncodesByte session c (encode c)) (tail s : Text) :
    ∃ found, LiteralBody session byteQuote (byteQuote :: tail) (s.flatMap encode) s found := by
  have hquote : ∀ b ∈ (byteQuote :: tail).head?, isPlainTail b = false := by
    intro b hb
    obtain rfl : byteQuote = b := Option.some.inj hb
    rfl
  induction hn : s.length using Nat.strong_induction_on generalizing s with
  | _ n ih =>
    cases s with
    | nil => exact ⟨false, .nil⟩
    | cons c s =>
      rw [length_cons] at hn
      rw [flatMap_cons]
      rcases ismbchar_cases hcs (encode c ++ s.flatMap encode ++ byteQuote :: tail) with
        hzero | ⟨c', body, rest, heq, hlen, hhigh, hbody⟩
      · obtain ⟨found, hrest⟩ := ih s.length (by omega) s rfl
        rcases hencode c with ⟨hc, hsep, hback⟩ | ⟨d, hc, hvalue, hescapes⟩ | ⟨hc, rfl⟩
        · rw [hc] at hzero ⊢
          exact ⟨found, .plain hsep hback hzero hrest⟩
        · rw [hc] at hzero ⊢
          have hescape := LiteralBody.escape hescapes hzero hrest
          rw [hvalue] at hescape
          exact ⟨true, hescape⟩
        · rw [hc] at hzero ⊢
          exact ⟨true, .doubled hzero hrest⟩
      · -- a multi-byte character is made of bytes that stand for themselves
        rcases hencode c with ⟨hc, -, -⟩ | ⟨d, hc, -, -⟩ | ⟨hc, -⟩
        · rw [hc] at heq hlen ⊢
          obtain ⟨rfl, htail⟩ := List.cons.inj heq
          obtain ⟨s', rfl, hs'⟩ := exists_of_append_flatMap hencode htail.symm hbody hquote
          rw [length_append] at hn
          obtain ⟨found, hrest⟩ := ih s'.length (by omega) s' rfl
          rw [hs'] at hlen ⊢
          rw [append_assoc, singleton_append, append_assoc, ← cons_append] at hlen
          have hwhole := LiteralBody.char (cons_ne_nil c body) hlen hrest
          exact ⟨found, hwhole⟩
        · rw [hc] at heq
          obtain rfl : byteBackslash = c' := (List.cons.inj heq).1
          exact absurd hhigh (by decide)
        · rw [hc] at heq
          obtain rfl : byteQuote = c' := (List.cons.inj heq).1
          exact absurd hhigh (by decide)

/-- The lexer reads a value that is written byte by byte. -/
theorem getText_flatMap (hcs : session.charset.keepsEscapes = true)
    (hencode : ∀ c, EncodesByte session c (encode c)) (s : Text) {tail : Text}
    (htail : tail.head? ≠ some byteQuote) :
    getText session byteQuote (s.flatMap encode ++ byteQuote :: tail) = some (s, tail) := by
  obtain ⟨found, hbody⟩ := literalBody_flatMap hcs hencode tail s
  exact hbody.getText_eq (by decide) (ismbchar_ascii _ (by decide) tail) htail

end Bytes

end MyLite.MariaDB

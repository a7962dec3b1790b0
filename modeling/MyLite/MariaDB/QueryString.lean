import Mathlib.Algebra.Group.Nat.Defs
import MyLite.MariaDB.Lexer

namespace MyLite.MariaDB

open MyLite.Sql List

/-!
# Literals rendered by the server

`append_query_string` of `mylite_log_event_server_disabled.cc` appends a literal for a byte string
to a `String`: between quotes, with `escape_string_for_mysql` or with doubled quotes, or in
hexadecimal digits for the character sets in which a backslash may be part of a character.

* `put`, `putAll`, `putNul` — writes into the space that `reserve` has made; `none` is a write
  behind it.
* `StringBuffer` — what the functions read and change of a `String`.
* `appendQueryString` — with its parts.
* `lexLiteral` — the lexer at a literal.
* `renders_appendQueryString` — the literal is read back, and it fits.

Sizes are natural numbers: no string in memory is so long that twice its length leaves a `size_t`.
-/

/-! ### Writes -/

/-- A byte written behind the output, if there is room for it. -/
def put (room : ℕ) (b : UInt8) (out : Text) : Option Text :=
  if out.length < room then some (out ++ [b]) else none

/-- Some bytes, one behind the other. -/
def putAll (room : ℕ) : Text → Text → Option Text
  | [], out => some out
  | b :: bytes, out => (put room b out).bind (putAll room bytes)

/-- A zero behind the output that does not become part of it. -/
def putNul (room : ℕ) (out : Text) : Option Text := if out.length < room then some out else none

variable {room : ℕ} {out : Text}

theorem put_eq (h : out.length < room) (b : UInt8) :
    put room b out = some (out ++ [b]) := if_pos h

theorem putNul_eq (h : out.length < room) :
    putNul room out = some out := if_pos h

theorem putAll_eq {bytes : Text} (h : out.length + bytes.length ≤ room) :
    putAll room bytes out = some (out ++ bytes) := by
  induction bytes generalizing out with
  | nil => rw [putAll, append_nil]
  | cons b bytes ih =>
    rw [length_cons] at h
    rw [putAll, put_eq (by omega), Option.bind_some, ih, append_assoc, singleton_append]
    rw [length_append, length_singleton]
    omega

/-! ### Buffers -/

/-- `String`: its bytes and `Alloced_length`, which is 0 where they are not its own. -/
structure StringBuffer where
  content : Text
  allocedLength : ℕ
  content_lt : content.length < 2 ^ 32
  allocedLength_lt : allocedLength < 2 ^ 32

/-- `ALIGN_SIZE`. -/
def alignSize (n : ℕ) : ℕ := (n + 7) / 8 * 8

namespace StringBuffer

/-- `Binary_string::realloc_raw`, where `allocates` says whether there is memory; `none` is
    `TRUE`. -/
def reallocRaw (s : StringBuffer) (allocLength : ℕ) (allocates : Bool) : Option StringBuffer :=
  if s.allocedLength < allocLength then
    let len := alignSize (allocLength + 1) % 2 ^ 32
    if len ≤ allocLength then none
    else if allocates then some { s with
      allocedLength := len, allocedLength_lt := Nat.mod_lt _ (by decide) }
    else none
  else some s

/-- `Binary_string::reserve`, with `realloc`. -/
def reserve (s : StringBuffer) (spaceNeeded : ℕ) (allocates : Bool) : Option StringBuffer :=
  s.reallocRaw (s.content.length + spaceNeeded + 1) allocates

/-- `length`, with the bytes that have been written behind the content. -/
def setLength (s : StringBuffer) (written : Text) (length : ℕ) : StringBuffer where
  content := (s.content ++ written).take (length % 2 ^ 32)
  allocedLength := s.allocedLength
  content_lt := by
    refine Nat.lt_of_le_of_lt (length_take_le _ _) (Nat.mod_lt _ (by decide))
  allocedLength_lt := s.allocedLength_lt

end StringBuffer

/-! ### Hexadecimal digits -/

/-- `_dig_vec_upper`. -/
def digVecUpper (n : UInt8) : UInt8 := if n < 10 then 0x30 + n else 0x41 + (n - 10)

/-- `octet2hex`. -/
def octet2hex (room : ℕ) : Text → Text → Option Text
  | [], out => putNul room out
  | b :: str, out =>
    (put room (digVecUpper (b >>> 4)) out).bind fun out =>
      (put room (digVecUpper (b &&& 0x0F)) out).bind (octet2hex room str)

/-- `str_to_hex`. -/
def strToHex (room : ℕ) (str out : Text) : Option Text :=
  if str.isEmpty then (putAll room (ascii "\"\"") out).bind (putNul room)
  else
    (put room 0x58 out).bind fun out =>
      (put room byteQuote out).bind fun out =>
        (octet2hex room str out).bind fun out =>
          (put room byteQuote out).bind (putNul room)

/-! ### Quotes -/

/-- The loop of `append_query_string` without backslash escapes. -/
def doubleQuotes (room : ℕ) : Text → Text → Option Text
  | [], out => some out
  | b :: str, out =>
    (if b == byteQuote then put room b out else some out).bind fun out =>
      (put room b out).bind (doubleQuotes room str)

/-- The bytes outside ASCII that are characters of one byte. -/
def isSingleByteChar : ParserCharset → UInt8 → Bool
  | .singleByte, _ => true
  | .cp932, b | .sjis, b => isSjisKata b
  | _, _ => false

/-- `my_ci_charlen`; a wrong or cut character counts as 0. -/
def charlen (cs : ParserCharset) : Text → ℕ
  | [] => 0
  | c :: rest =>
    let l := ismbchar cs (c :: rest)
    if l ≠ 0 then l else if c < 0x80 || isSingleByteChar cs c then 1 else 0

/-- The `switch` of `escape_string_for_mysql`. -/
def specialEscape (c : UInt8) : Option UInt8 :=
  if c == 0x00 then some 0x30
  else if c == 0x0A then some 0x6E
  else if c == 0x0D then some 0x72
  else if c == byteBackslash then some byteBackslash
  else if c == byteQuote then some byteQuote
  else if c == byteDoubleQuote then some byteDoubleQuote
  else if c == 0x1A then some 0x5A
  else none

/-- `escape`, where it is not zero. -/
def escapeOf (l : ℕ) (c : UInt8) : Option UInt8 :=
  -- a bad byte stands behind the backslash as it is
  if l < 1 then if c == 0x00 then none else some c else specialEscape c

/-- What `escape_string_for_mysql` writes for the next character, and what is left. -/
def escapePiece (cs : ParserCharset) (c : UInt8) (rest : Text) : Text × Text :=
  let l := charlen cs (c :: rest)
  if 1 < l then ((c :: rest).take l, (c :: rest).drop l)
  else match escapeOf l c with
    | some escape => ([byteBackslash, escape], rest)
    | none => ([c], rest)

/-- The loop of `escape_string_for_mysql`, with `*overflow`.  Every turn reads a byte. -/
def escapeLoop (cs : ParserCharset) (room toEnd : ℕ) : ℕ → Text → Text → Option (Text × Bool)
  | 0, _, out => some (out, false)
  | _ + 1, [], out => some (out, false)
  | turns + 1, c :: rest, out =>
    let piece := escapePiece cs c rest
    if toEnd < out.length + piece.1.length then some (out, true)
    else (putAll room piece.1 out).bind (escapeLoop cs room toEnd turns piece.2)

/-- `escape_string_for_mysql`: the output behind it. -/
def escapeStringForMysql (cs : ParserCharset) (room toLength : ℕ) (str out : Text) : Option Text :=
  let toEnd := out.length + if toLength ≠ 0 then toLength - 1 else 2 * str.length
  (escapeLoop cs room toEnd str.length str out).bind fun escaped => putNul room escaped.1

/-- `escape_with_backslash_is_dangerous`. -/
def escapeWithBackslashIsDangerous : ParserCharset → Bool
  | .big5 | .cp932 | .gbk | .sjis => true
  | _ => false

/-- What `append_query_string` writes behind the content. -/
def queryString (csinfo : ParserCharset) (room : ℕ) (str : Text) (noBackslash : Bool) :
    Option Text :=
  if escapeWithBackslashIsDangerous csinfo then strToHex room str []
  else
    (put room byteQuote []).bind fun out =>
      (if !noBackslash then escapeStringForMysql csinfo room 0 str out
        else doubleQuotes room str out).bind fun out =>
          put room byteQuote out

/-- `append_query_string`: what it returns and the buffer then; `none` where a byte is written
    behind the reserved space. -/
def appendQueryString (csinfo : ParserCharset) (buffer : StringBuffer) (str : Text)
    (noBackslash allocates : Bool) : Option (ℕ × StringBuffer) :=
  let origLen := buffer.content.length
  let space := origLen + str.length * 2 + 4
  match buffer.reserve space allocates with
  | none => some (1, buffer)
  | some buffer =>
    (queryString csinfo space str noBackslash).map fun out =>
      (0, buffer.setLength out (origLen + out.length))

/-! ### The lexer at a literal -/

/-- A literal with its value: `TEXT_STRING` and `HEX_STRING`. -/
inductive LiteralToken
  | text (value : Text)
  | hex (value : Text)
  deriving DecidableEq

/-- `char_val`. -/
def charVal (x : UInt8) : UInt8 :=
  if 0x30 ≤ x && x ≤ 0x39 then x - 0x30
  else if 0x41 ≤ x && x ≤ 0x5A then x - 0x41 + 10
  else x - 0x61 + 10

/-- The loop of `hex_string_init`. -/
def hexPairs : Text → Text
  | a :: b :: rest => (charVal a * 16 + charVal b) :: hexPairs rest
  | _ => []

/-- `hex_string_init`. -/
def hexStringInit (str : Text) : Text :=
  if str.length % 2 = 1 then charVal (str.headD 0) :: hexPairs str.tail else hexPairs str

/-- `MY_LEX_HEX_NUMBER` behind the letter and the quote. -/
def hexNumber (s : Text) : Option (LiteralToken × Text) :=
  let digits := s.takeWhile isHexDigit
  match s.dropWhile isHexDigit with
  | c :: rest =>
    if c ≠ byteQuote then none
    else if digits.length % 2 = 1 then none
    else some (.hex (hexStringInit digits), rest)
  | [] => none

variable (session : LexSession)

/-- The lexer at a literal, without `ANSI_QUOTES`: the literal and the text behind it. -/
def lexLiteral : Text → Option (LiteralToken × Text)
  | [] => none
  | c :: rest =>
    match stateMap c with
    | .string => (getText session c rest).map fun r => (.text r.1, r.2)
    | .identOrHex => if peek rest = byteQuote then hexNumber rest.tail else none
    | _ => none

/-- A text behind a literal that does not go on with another quote. -/
def EndsLiteral (tail : Text) : Prop :=
  tail.head? ≠ some byteQuote ∧ tail.head? ≠ some byteDoubleQuote

/-- The literal that is rendered: digits where a backslash is unsafe, unless the value is empty. -/
def renderedLiteral (cs : ParserCharset) (value : Text) : LiteralToken :=
  if escapeWithBackslashIsDangerous cs && !value.isEmpty then .hex value else .text value

/-- In the session, a text is read as the literal for the value. -/
def ReadsBack (literal value : Text) : Prop :=
  ∀ tail, EndsLiteral tail →
    lexLiteral session (literal ++ tail) = some (renderedLiteral session.charset value, tail)

/-! ### What is reserved -/

/-- A buffer with the space that was asked for, which its length can count. -/
theorem StringBuffer.reserve_eq {s s' : StringBuffer} {space : ℕ} {allocates : Bool}
    (h : s.reserve space allocates = some s') :
    s'.content = s.content ∧ s.content.length + space < 2 ^ 32 := by
  have hlt := s.allocedLength_lt
  unfold reserve reallocRaw at h
  dsimp only at h
  split at h
  · split at h
    · cases h
    · next hlen =>
      split at h
      · obtain rfl := Option.some.inj h
        exact ⟨rfl, by omega⟩
      · cases h
  · obtain rfl := Option.some.inj h
    exact ⟨rfl, by omega⟩

/-- With enough memory, a buffer that its length can count is reserved. -/
theorem StringBuffer.reserve_isSome (s : StringBuffer) {space : ℕ}
    (h : s.content.length + space + 9 < 2 ^ 32) : (s.reserve space true).isSome := by
  have halign : s.content.length + space + 1 < alignSize (s.content.length + space + 1 + 1) ∧
      alignSize (s.content.length + space + 1 + 1) < 2 ^ 32 := by
    unfold alignSize
    omega
  have hmod : ¬alignSize (s.content.length + space + 1 + 1) % 2 ^ 32 ≤
      s.content.length + space + 1 := by
    rw [Nat.mod_eq_of_lt halign.2]
    omega
  unfold reserve reallocRaw
  dsimp only
  rw [if_neg hmod]
  split <;> rfl

theorem StringBuffer.content_setLength (s : StringBuffer) {written : Text}
    (h : s.content.length + written.length < 2 ^ 32) :
    (s.setLength written (s.content.length + written.length)).content = s.content ++ written := by
  show (s.content ++ written).take ((s.content.length + written.length) % 2 ^ 32) = _
  rw [Nat.mod_eq_of_lt h, ← length_append, take_length]

/-! ### Digits read back -/

/-- The two digits of a byte. -/
def hexDigits (b : UInt8) : Text := [digVecUpper (b >>> 4), digVecUpper (b &&& 0x0F)]

variable {str : Text}

theorem octet2hex_eq (h : out.length + 2 * str.length < room) :
    octet2hex room str out = some (out ++ str.flatMap hexDigits) := by
  induction str generalizing out with
  | nil => rw [octet2hex, putNul_eq h, flatMap_nil, append_nil]
  | cons b str ih =>
    rw [length_cons] at h
    rw [octet2hex, put_eq (by omega), Option.bind_some, put_eq, Option.bind_some, ih,
      flatMap_cons]
    · simp [hexDigits]
    · simp only [length_append, length_singleton]
      omega
    · rw [length_append, length_singleton]
      omega

theorem length_flatMap_hexDigits (str : Text) :
    (str.flatMap hexDigits).length = 2 * str.length := by
  induction str with
  | nil => rfl
  | cons b str ih =>
    rw [flatMap_cons, length_append, ih, length_cons, hexDigits]
    simp only [length_cons, length_nil]
    omega

/-- The letter, two quotes, the digits and a zero: the space is used up. -/
theorem strToHex_eq (hne : str ≠ []) (h : 2 * str.length + 4 ≤ room) :
    strToHex room str [] =
      some (0x58 :: byteQuote :: (str.flatMap hexDigits ++ [byteQuote])) := by
  have hdigits := length_flatMap_hexDigits str
  rw [strToHex, if_neg (by simpa using hne), put_eq (by simp; omega), Option.bind_some,
    put_eq (by simp; omega), Option.bind_some, octet2hex_eq (by simp; omega), Option.bind_some,
    put_eq (by simp [hdigits]; omega), Option.bind_some, putNul_eq (by simp [hdigits]; omega)]
  rfl

theorem strToHex_nil (h : 4 ≤ room) :
    strToHex room [] [] = some [byteDoubleQuote, byteDoubleQuote] := by
  have hquotes : putAll room (ascii "\"\"") [] = some [byteDoubleQuote, byteDoubleQuote] :=
    putAll_eq (show 0 + 2 ≤ room by omega)
  rw [strToHex, if_pos isEmpty_nil, hquotes, Option.bind_some]
  exact putNul_eq (show 2 < room by omega)

theorem hexPairs_flatMap (str : Text) : hexPairs (str.flatMap hexDigits) = str := by
  have hbyte : ∀ b : UInt8,
      charVal (digVecUpper (b >>> 4)) * 16 + charVal (digVecUpper (b &&& 0x0F)) = b := by
    decide +kernel
  induction str with
  | nil => rfl
  | cons b str ih =>
    show (_ :: hexPairs (str.flatMap hexDigits)) = _
    rw [hbyte, ih]

theorem isHexDigit_hexDigits (str : Text) : ∀ d ∈ str.flatMap hexDigits, isHexDigit d = true := by
  have hbyte : ∀ b : UInt8, (hexDigits b).all isHexDigit = true := by decide +kernel
  intro d hd
  obtain ⟨b, -, hb⟩ := mem_flatMap.mp hd
  exact all_eq_true.mp (hbyte b) d hb

/-- The lexer reads the digits of a value. -/
theorem lexLiteral_hexDigits (str tail : Text) :
    lexLiteral session (0x58 :: byteQuote :: (str.flatMap hexDigits ++ [byteQuote]) ++ tail) =
      some (.hex str, tail) := by
  have htake : (str.flatMap hexDigits ++ byteQuote :: tail).takeWhile isHexDigit =
      str.flatMap hexDigits := by
    rw [takeWhile_append_of_pos (isHexDigit_hexDigits str)]
    exact append_nil _
  have hdrop : (str.flatMap hexDigits ++ byteQuote :: tail).dropWhile isHexDigit =
      byteQuote :: tail := by
    rw [dropWhile_append_of_pos (isHexDigit_hexDigits str)]
    rfl
  have heven : ¬(str.flatMap hexDigits).length % 2 = 1 := by
    rw [length_flatMap_hexDigits]
    omega
  have hnumber : hexNumber (str.flatMap hexDigits ++ byteQuote :: tail) =
      some (.hex str, tail) := by
    simp only [hexNumber, htake, hdrop, ne_eq, not_true_eq_false, if_false, if_neg heven,
      hexStringInit, hexPairs_flatMap]
  rw [cons_append, cons_append, append_assoc, singleton_append]
  exact hnumber

/-! ### Quotes read back -/

/-- A byte with its quotes doubled. -/
def doubleQuote (b : UInt8) : Text := if b == byteQuote then [b, b] else [b]

theorem length_doubleQuote_le (b : UInt8) : (doubleQuote b).length ≤ 2 := by
  rw [doubleQuote]
  split <;> simp

theorem doubleQuotes_cons (room : ℕ) (b : UInt8) (str out : Text) :
    doubleQuotes room (b :: str) out =
      (putAll room (doubleQuote b) out).bind (doubleQuotes room str) := by
  rw [doubleQuotes, doubleQuote]
  split
  · simp only [putAll, Option.bind_assoc, Option.bind_some]
  · simp only [putAll, Option.bind_assoc, Option.bind_some]

theorem doubleQuotes_eq (h : out.length + 2 * str.length ≤ room) :
    doubleQuotes room str out = some (out ++ str.flatMap doubleQuote) := by
  induction str generalizing out with
  | nil => exact congrArg some (append_nil out).symm
  | cons b str ih =>
    have hb := length_doubleQuote_le b
    rw [length_cons] at h
    have hnext : (out ++ doubleQuote b).length + 2 * str.length ≤ room := by
      rw [length_append]
      omega
    rw [doubleQuotes_cons, putAll_eq (by omega), Option.bind_some, ih hnext, flatMap_cons,
      append_assoc]

theorem length_flatMap_doubleQuote_le (str : Text) :
    (str.flatMap doubleQuote).length ≤ 2 * str.length := by
  induction str with
  | nil => exact Nat.le_refl 0
  | cons b str ih =>
    have hb := length_doubleQuote_le b
    rw [flatMap_cons, length_append, length_cons]
    omega

/-- Without backslash escapes, a quote is doubled and every other byte stands for itself. -/
theorem encodesByte_doubleQuote (cs : ParserCharset) (c : UInt8) :
    EncodesByte ⟨cs, true⟩ c (doubleQuote c) := by
  rw [doubleQuote]
  by_cases hc : c = byteQuote
  · subst hc
    exact .inr (.inr ⟨rfl, rfl⟩)
  · rw [if_neg (by simpa using hc)]
    exact .inl ⟨rfl, hc, fun _ => rfl⟩

/-! ### Escapes read back -/

variable {cs : ParserCharset}

theorem escapeValue_of_specialEscape {c e : UInt8} (h : specialEscape c = some e) :
    escapeValue e = [c] := by
  have hall : ∀ c : UInt8, (specialEscape c).all (fun e => escapeValue e == [c]) = true := by
    decide +kernel
  have hc := hall c
  rw [h, Option.all_some, beq_iff_eq] at hc
  exact hc

theorem isPlainTail_of_specialEscape :
    ∀ c : UInt8, specialEscape c = none → isPlainTail c = true := by
  decide +kernel

/-- A byte outside ASCII behind a backslash is read as itself. -/
theorem escapeValue_of_high : ∀ c : UInt8, ¬c < 0x80 → escapeValue c = [c] := by
  decide +kernel

/-- The next character is copied, escaped, or a plain byte, and the lexer sees the same. -/
theorem escapePiece_cases (hcs : cs.keepsEscapes = true) (c : UInt8) (rest : Text) :
    (∃ body rest', c :: rest = body ++ rest' ∧ 1 < body.length ∧
        escapePiece cs c rest = (body, rest') ∧ ∀ r, ismbchar cs (body ++ r) = body.length) ∨
      (∃ e, escapePiece cs c rest = ([byteBackslash, e], rest) ∧ escapeValue e = [c]) ∨
      escapePiece cs c rest = ([c], rest) ∧ isPlainTail c = true ∧
        ∀ r, ismbchar cs (c :: r) = 0 := by
  rcases settledChar_ismbchar cs (c :: rest) with hzero | ⟨body, rest', heq, hlen, hbody⟩
  · by_cases hone : (c < 0x80 || isSingleByteChar cs c) = true
    · -- a character of one byte
      have hcharlen : charlen cs (c :: rest) = 1 := by
        rw [charlen, hzero, if_neg (by simp), if_pos hone]
      have hsingle : ∀ r, ismbchar cs (c :: r) = 0 := by
        intro r
        rw [Bool.or_eq_true, decide_eq_true_eq] at hone
        rcases hone with hascii | hsingle
        · exact ismbchar_ascii _ hascii r
        · cases cs <;> first | rfl | cases hsingle | cases hcs
      cases hc : specialEscape c with
      | some e =>
        refine .inr (.inl ⟨e, ?_, escapeValue_of_specialEscape hc⟩)
        rw [escapePiece, hcharlen]
        simp only [Nat.lt_irrefl, if_false, escapeOf, hc]
      | none =>
        refine .inr (.inr ⟨?_, isPlainTail_of_specialEscape c hc, hsingle⟩)
        rw [escapePiece, hcharlen]
        simp only [Nat.lt_irrefl, if_false, escapeOf, hc]
    · -- a bad byte
      have hcharlen : charlen cs (c :: rest) = 0 := by
        rw [charlen, hzero, if_neg (by simp), if_neg hone]
      rw [Bool.or_eq_true, not_or, decide_eq_true_eq] at hone
      have hnul : ¬(c == 0x00) = true := by
        intro hc
        rw [beq_iff_eq.mp hc] at hone
        exact hone.1 (by decide)
      refine .inr (.inl ⟨c, ?_, escapeValue_of_high c hone.1⟩)
      rw [escapePiece, hcharlen]
      simp only [Nat.not_lt_zero, if_false, escapeOf, Nat.zero_lt_one, if_true, if_neg hnul]
  · have hcharlen : charlen cs (c :: rest) = body.length := by
      have hchar : ismbchar cs (c :: rest) = body.length := by rw [heq, hbody]
      rw [charlen, hchar, if_pos (by omega)]
    refine .inl ⟨body, rest', heq, hlen, ?_, hbody⟩
    rw [escapePiece, hcharlen]
    simp only [if_pos hlen, heq, take_left, drop_left]

/-- The loop of `escape_string_for_mysql` goes through, and writes the body of a literal. -/
theorem escapeLoop_eq (hcs : cs.keepsEscapes = true) {toEnd : ℕ} (htoEnd : toEnd ≤ room) {turns : ℕ}
    (hturns : str.length ≤ turns) (h : out.length + 2 * str.length ≤ toEnd) :
    ∃ body, escapeLoop cs room toEnd turns str out = some (out ++ body, false) ∧
      body.length ≤ 2 * str.length ∧
      ∀ tail, ∃ found, LiteralBody ⟨cs, false⟩ byteQuote (byteQuote :: tail) body str found := by
  induction turns generalizing str out with
  | zero =>
    obtain rfl : str = [] := length_eq_zero_iff.mp (by omega)
    exact ⟨[], by rw [escapeLoop, append_nil], Nat.zero_le _, fun _ => ⟨false, .nil⟩⟩
  | succ turns ih =>
    cases str with
    | nil =>
      exact ⟨[], by rw [escapeLoop, append_nil], Nat.zero_le _, fun _ => ⟨false, .nil⟩⟩
    | cons c rest =>
      obtain ⟨piece, rest', hpiece, hlen, hless, hreads⟩ : ∃ piece rest',
          escapePiece cs c rest = (piece, rest') ∧
          piece.length + 2 * rest'.length ≤ 2 * (c :: rest).length ∧
          rest'.length < (c :: rest).length ∧ ∀ tail body found,
            LiteralBody ⟨cs, false⟩ byteQuote (byteQuote :: tail) body rest' found →
            ∃ found', LiteralBody ⟨cs, false⟩ byteQuote (byteQuote :: tail) (piece ++ body)
              (c :: rest) found' := by
        rcases escapePiece_cases hcs c rest with
          ⟨char, rest', heq, hlen, hpiece, hchar⟩ | ⟨e, hpiece, hvalue⟩ | ⟨hpiece, hplain, hchar⟩
        · have hsplit : (c :: rest).length = char.length + rest'.length := by
            rw [heq, length_append]
          refine ⟨char, rest', hpiece, by omega, by omega, fun tail body found hrest => ?_⟩
          rw [heq]
          exact ⟨found, .char (ne_nil_of_length_pos (by omega)) (hchar _) hrest⟩
        · refine ⟨_, rest, hpiece, by simp; omega, by simp, fun tail body found hrest => ?_⟩
          have hescape := LiteralBody.escape (d := e) rfl
            (ismbchar_ascii _ (by decide : byteBackslash < 0x80) _) hrest
          rw [hvalue] at hescape
          exact ⟨true, hescape⟩
        · rw [isPlainTail, Bool.and_eq_true, bne_iff_ne, bne_iff_ne] at hplain
          exact ⟨_, rest, hpiece, by simp; omega, by simp, fun tail body found hrest =>
            ⟨found, .plain hplain.2 (fun hback => absurd hback hplain.1) (hchar _) hrest⟩⟩
      have hroom : (out ++ piece).length + 2 * rest'.length ≤ toEnd := by
        rw [length_append]
        omega
      obtain ⟨body, hloop, hbody, hrest⟩ := ih (by omega) hroom
      refine ⟨piece ++ body, ?_, by rw [length_append]; omega, fun tail => ?_⟩
      · rw [escapeLoop, hpiece]
        dsimp only
        rw [if_neg (by omega), putAll_eq (by omega), Option.bind_some, hloop, append_assoc]
      · obtain ⟨found, hfound⟩ := hrest tail
        exact hreads tail body found hfound

/-! ### The literal -/

theorem keepsEscapes_of_not_dangerous (h : escapeWithBackslashIsDangerous cs = false) :
    cs.keepsEscapes = true := by
  cases cs <;> first | rfl | cases h

/-- What stands between single quotes is read as the value of its body. -/
theorem readsBack_of_literalBody {session : LexSession} {body value : Text}
    (hcs : escapeWithBackslashIsDangerous session.charset = false)
    (h : ∀ tail, ∃ found, LiteralBody session byteQuote (byteQuote :: tail) body value found) :
    ReadsBack session (byteQuote :: (body ++ [byteQuote])) value := by
  intro tail htail
  obtain ⟨found, hbody⟩ := h tail
  have htext := hbody.getText_eq (by decide) (ismbchar_ascii _ (by decide) tail) htail.1
  have hlex : lexLiteral session (byteQuote :: (body ++ byteQuote :: tail)) =
      some (.text value, tail) := by
    show (getText session byteQuote (body ++ byteQuote :: tail)).map _ = _
    rw [htext]
    rfl
  rw [cons_append, append_assoc, singleton_append, hlex, renderedLiteral, hcs]
  rfl

/-- The digits, or the two double quotes of the empty value. -/
theorem strToHex_reads {session : LexSession}
    (hcs : escapeWithBackslashIsDangerous session.charset = true) (str : Text)
    (h : 2 * str.length + 4 ≤ room) :
    ∃ literal, strToHex room str [] = some literal ∧ literal.length ≤ 2 * str.length + 3 ∧
      ReadsBack session literal str := by
  by_cases hne : str = []
  · subst hne
    refine ⟨_, strToHex_nil h, by decide, fun tail htail => ?_⟩
    have hbody : LiteralBody session byteDoubleQuote (byteDoubleQuote :: tail) [] [] false := .nil
    have htext := hbody.getText_eq (by decide) (ismbchar_ascii _ (by decide) tail) htail.2
    show (getText session byteDoubleQuote ([] ++ byteDoubleQuote :: tail)).map _ = _
    rw [htext, renderedLiteral, hcs]
    rfl
  · refine ⟨_, strToHex_eq hne h, ?_, fun tail _ => ?_⟩
    · have hdigits := length_flatMap_hexDigits str
      simp only [length_cons, length_append, length_nil]
      omega
    · rw [lexLiteral_hexDigits, renderedLiteral, hcs, isEmpty_eq_false_iff.mpr hne]
      rfl

/-- The space behind the content is enough for the literal and the zeros behind its parts. -/
theorem queryString_reads (str : Text) (h : 2 * str.length + 4 ≤ room) :
    ∃ literal, queryString session.charset room str session.noBackslashEscapes = some literal ∧
      literal.length ≤ 2 * str.length + 3 ∧ ReadsBack session literal str := by
  obtain ⟨cs, noBackslash⟩ := session
  cases hcs : escapeWithBackslashIsDangerous cs with
  | true =>
    rw [queryString, if_pos hcs]
    exact strToHex_reads hcs str h
  | false =>
    have hkeeps := keepsEscapes_of_not_dangerous hcs
    have hopen : put room byteQuote [] = some [byteQuote] := put_eq (show 0 < room by omega) _
    -- the closing quote, behind a body of at most two bytes for each one
    have hclose : ∀ body : Text, body.length ≤ 2 * str.length →
        put room byteQuote ([byteQuote] ++ body) = some (byteQuote :: (body ++ [byteQuote])) := by
      intro body hbody
      refine put_eq ?_ _
      rw [length_append, length_singleton]
      omega
    have hlength : ∀ body : Text, body.length ≤ 2 * str.length →
        (byteQuote :: (body ++ [byteQuote])).length ≤ 2 * str.length + 3 := by
      intro body hbody
      simp only [length_cons, length_append, length_nil]
      omega
    rw [queryString, hcs]
    simp only [Bool.false_eq_true, if_false, hopen, Option.bind_some]
    cases noBackslash with
    | true =>
      have hbody := length_flatMap_doubleQuote_le str
      have hloop : doubleQuotes room str [byteQuote] =
          some ([byteQuote] ++ str.flatMap doubleQuote) :=
        doubleQuotes_eq (by rw [length_singleton]; omega)
      refine ⟨_, ?_, hlength _ hbody, readsBack_of_literalBody hcs fun tail => ?_⟩
      · show (doubleQuotes room str [byteQuote]).bind _ = _
        rw [hloop, Option.bind_some, hclose _ hbody]
      · exact literalBody_flatMap hkeeps (encodesByte_doubleQuote cs) tail str
    | false =>
      have htoEnd : [byteQuote].length + 2 * str.length ≤ room := by
        rw [length_singleton]
        omega
      obtain ⟨body, hloop, hbody, hreads⟩ :=
        escapeLoop_eq hkeeps htoEnd (Nat.le_refl str.length) (Nat.le_refl _)
      refine ⟨_, ?_, hlength _ hbody, readsBack_of_literalBody hcs hreads⟩
      have hescape : escapeStringForMysql cs room 0 str [byteQuote] =
          some ([byteQuote] ++ body) := by
        show (escapeLoop cs room ([byteQuote].length + 2 * str.length) str.length str
          [byteQuote]).bind _ = _
        rw [hloop, Option.bind_some]
        refine putNul_eq ?_
        rw [length_append, length_singleton]
        omega
      show (escapeStringForMysql cs room 0 str [byteQuote]).bind _ = _
      rw [hescape, Option.bind_some, hclose _ hbody]

/-- What a call leaves: nothing is written behind the reserved space, and the buffer is as it was,
    behind an error, or has the literal behind its content. -/
def Renders (buffer : StringBuffer) (str : Text) (allocates : Bool) : Prop :=
  ∃ code buffer',
    appendQueryString session.charset buffer str session.noBackslashEscapes allocates =
      some (code, buffer') ∧
    (code = 1 ∧ buffer' = buffer ∧
        (allocates = true → 2 ^ 32 ≤ 2 * buffer.content.length + 2 * str.length + 13) ∨
      code = 0 ∧ ∃ literal, buffer'.content = buffer.content ++ literal ∧
        ReadsBack session literal str)

/-- **Rendering.** For every byte string, buffer and session, `append_query_string` fails for want
    of memory or of numbers for the length, or appends a literal that is read as the value. -/
theorem renders_appendQueryString (session : LexSession) (buffer : StringBuffer) (str : Text)
    (allocates : Bool) : Renders session buffer str allocates := by
  cases hreserve : buffer.reserve (buffer.content.length + str.length * 2 + 4) allocates with
  | none =>
    refine ⟨1, buffer, ?_, .inl ⟨rfl, rfl, ?_⟩⟩
    · simp only [appendQueryString, hreserve]
    · rintro rfl
      by_contra hsmall
      have hspace :
          buffer.content.length + (buffer.content.length + str.length * 2 + 4) + 9 < 2 ^ 32 := by
        omega
      have hsome := buffer.reserve_isSome hspace
      rw [hreserve] at hsome
      cases hsome
  | some reserved =>
    obtain ⟨hcontent, hspace⟩ := StringBuffer.reserve_eq hreserve
    have hroom : 2 * str.length + 4 ≤ buffer.content.length + str.length * 2 + 4 := by omega
    obtain ⟨literal, hliteral, hlength, hreads⟩ := queryString_reads session str hroom
    refine ⟨0, reserved.setLength literal (buffer.content.length + literal.length), ?_,
      .inr ⟨rfl, literal, ?_, hreads⟩⟩
    · simp only [appendQueryString, hreserve, hliteral, Option.map_some]
    · rw [← hcontent]
      exact reserved.content_setLength (by rw [hcontent]; omega)

end MyLite.MariaDB

import MyLite.Sql.Bytes

namespace MyLite.MariaDB

open MyLite.Sql

/-!
# Character sets of a client

The character sets `SET NAMES` accepts are those with one-byte ASCII characters
(`is_supported_parser_charset`).  The lexer asks them one thing, `my_ismbchar`: how many bytes the
multi-byte character at the head of a text has, and 0 where there is none.  The sets with
single-byte characters only are one case here.

* `ismbchar` — `my_ismbchar` of every such set, from the `charlen` functions of `strings/`.
* `KeepsEscapes` — the sets in which a backslash or a quote is never part of a multi-byte
  character, and `ismbchar_cases`, what a character looks like in them.
-/

/-- A client's character set. -/
inductive ParserCharset
  | singleByte | utf8mb3 | utf8mb4 | big5 | cp932 | euckr | eucjpms | gb2312 | gbk | sjis | ujis
  deriving DecidableEq, Repr

/-- A byte between two others. -/
def inRange (lo hi b : UInt8) : Bool := lo ≤ b && b ≤ hi

/-! ### Asian sets -/

variable (is8bit : UInt8 → Bool) (isMb2 : UInt8 → UInt8 → Bool)
  (isMb3 : UInt8 → UInt8 → UInt8 → Bool)

/-- `charlen` of `ctype-mb.inl`, read as `my_ismbchar` reads it: no character and a single byte
    both count as 0. -/
def charlenMb : Text → ℕ
  | b0 :: b1 :: rest =>
    if b0 < 0x80 || is8bit b0 then 0
    else if isMb2 b0 b1 then 2
    else match rest with
      | b2 :: _ => if isMb3 b0 b1 b2 then 3 else 0
      | [] => 0
  | _ => 0

/-- No character of three bytes. -/
def noMb3 (_ _ _ : UInt8) : Bool := false

/-- `isbig5head`, `isbig5tail`. -/
def isBig5 (b0 b1 : UInt8) : Bool :=
  inRange 0xA1 0xF9 b0 && (inRange 0x40 0x7E b1 || inRange 0xA1 0xFE b1)

/-- `isgbkhead`, `isgbktail`. -/
def isGbk (b0 b1 : UInt8) : Bool :=
  inRange 0x81 0xFE b0 && (inRange 0x40 0x7E b1 || inRange 0x80 0xFE b1)

/-- `issjishead`, `issjistail`; `iscp932head` and `iscp932tail` are the same. -/
def isSjis (b0 b1 : UInt8) : Bool :=
  (inRange 0x81 0x9F b0 || inRange 0xE0 0xFC b0) && (inRange 0x40 0x7E b1 || inRange 0x80 0xFC b1)

/-- `issjiskata`, `iscp932kata`: half-width kana of one byte. -/
def isSjisKata (b : UInt8) : Bool := inRange 0xA1 0xDF b

/-- `iseuc_kr_head`, `iseuc_kr_tail`. -/
def isEucKr (b0 b1 : UInt8) : Bool :=
  inRange 0x81 0xFE b0 && (inRange 0x41 0x5A b1 || inRange 0x61 0x7A b1 || inRange 0x81 0xFE b1)

/-- `isgb2312head`, `isgb2312tail`. -/
def isGb2312 (b0 b1 : UInt8) : Bool := inRange 0xA1 0xF7 b0 && inRange 0xA1 0xFE b1

/-- `IS_MB2_JIS` of `ujis` and `eucjpms`. -/
def isMb2Jis (b0 b1 : UInt8) : Bool := inRange 0xA1 0xFE b0 && inRange 0xA1 0xFE b1

/-- `IS_MB2_CHAR` of `ujis` and `eucjpms`. -/
def isUjis2 (b0 b1 : UInt8) : Bool := (b0 == 0x8E && inRange 0xA1 0xDF b1) || isMb2Jis b0 b1

/-- `IS_MB3_CHAR` of `ujis` and `eucjpms`. -/
def isUjis3 (b0 b1 b2 : UInt8) : Bool := b0 == 0x8F && isMb2Jis b1 b2

/-! ### Unicode -/

/-- `IS_CONTINUATION_BYTE`. -/
def isContinuationByte (b : UInt8) : Bool := inRange 0x80 0xBF b

/-- `my_valid_mbcharlen_utf8mb3`. -/
def validMbcharlenUtf8mb3 : Text → ℕ
  | b0 :: b1 :: rest =>
    if b0 < 0xC2 then 0
    else if b0 < 0xE0 then if isContinuationByte b1 then 2 else 0
    else match rest with
      | b2 :: _ =>
        if isContinuationByte b1 && isContinuationByte b2 && (0xE1 ≤ b0 || 0xA0 ≤ b1) then 3 else 0
      | [] => 0
  | _ => 0

variable (text : Text)

/-- `my_charlen_utf8mb3`. -/
def charlenUtf8mb3 : ℕ :=
  match text with
  | b0 :: _ => if b0 < 0xF0 then validMbcharlenUtf8mb3 text else 0
  | [] => 0

/-- `my_charlen_utf8mb4`. -/
def charlenUtf8mb4 : ℕ :=
  match text with
  | b0 :: rest =>
    if b0 < 0xF0 then validMbcharlenUtf8mb3 text
    else if b0 < 0xF5 then
      match rest with
      | b1 :: b2 :: b3 :: _ =>
        if isContinuationByte b1 && isContinuationByte b2 && isContinuationByte b3 &&
            (0xF1 ≤ b0 || 0x90 ≤ b1) && (b0 ≤ 0xF3 || b1 ≤ 0x8F) then 4 else 0
      | _ => 0
    else 0
  | [] => 0

/-- `my_ismbchar`. -/
def ismbchar : ParserCharset → Text → ℕ
  | .singleByte, _ => 0
  | .utf8mb3, text => charlenUtf8mb3 text
  | .utf8mb4, text => charlenUtf8mb4 text
  | .big5, text => charlenMb (fun _ => false) isBig5 noMb3 text
  | .gbk, text => charlenMb (fun _ => false) isGbk noMb3 text
  | .cp932, text => charlenMb isSjisKata isSjis noMb3 text
  | .sjis, text => charlenMb isSjisKata isSjis noMb3 text
  | .euckr, text => charlenMb (fun _ => false) isEucKr noMb3 text
  | .gb2312, text => charlenMb (fun _ => false) isGb2312 noMb3 text
  | .ujis, text => charlenMb (fun _ => false) isUjis2 isUjis3 text
  | .eucjpms, text => charlenMb (fun _ => false) isUjis2 isUjis3 text

/-! ### Sets that keep escapes apart -/

/-- The sets without a multi-byte character that ends in a backslash. -/
def ParserCharset.keepsEscapes : ParserCharset → Bool
  | .big5 | .cp932 | .gbk | .sjis => false
  | _ => true

/-- A byte that may follow in a multi-byte character without being taken for an escape or an end
    of a literal. -/
def isPlainTail (b : UInt8) : Bool := b != byteBackslash && b != byteQuote

/-- A multi-byte character of `n` bytes at the head of a text, with plain bytes behind the
    first. -/
def StartsChar (n : ℕ) : Prop :=
  ∃ c body rest, text = c :: (body ++ rest) ∧ n = body.length + 1 ∧ 0x80 ≤ c ∧
    ∀ b ∈ body, isPlainTail b = true

theorem isPlainTail_of_isContinuationByte :
    ∀ b : UInt8, isContinuationByte b = true → isPlainTail b = true := by
  decide +kernel

theorem isPlainTail_of_inRange : ∀ b : UInt8, inRange 0xA1 0xFE b = true →
    isPlainTail b = true := by
  decide +kernel

theorem isPlainTail_of_kata : ∀ b : UInt8, inRange 0xA1 0xDF b = true → isPlainTail b = true := by
  decide +kernel

variable {b0 b1 : UInt8}

theorem isPlainTail_of_isEucKr (h : isEucKr b0 b1 = true) : isPlainTail b1 = true := by
  have hbyte : ∀ b : UInt8, (inRange 0x41 0x5A b || inRange 0x61 0x7A b || inRange 0x81 0xFE b)
      = true → isPlainTail b = true := by
    decide +kernel
  rw [isEucKr, Bool.and_eq_true] at h
  exact hbyte b1 h.2

theorem isPlainTail_of_isGb2312 (h : isGb2312 b0 b1 = true) : isPlainTail b1 = true := by
  rw [isGb2312, Bool.and_eq_true] at h
  exact isPlainTail_of_inRange b1 h.2

theorem isPlainTail_of_isMb2Jis (h : isMb2Jis b0 b1 = true) :
    isPlainTail b0 = true ∧ isPlainTail b1 = true := by
  rw [isMb2Jis, Bool.and_eq_true] at h
  exact ⟨isPlainTail_of_inRange b0 h.1, isPlainTail_of_inRange b1 h.2⟩

theorem isPlainTail_of_isUjis2 (h : isUjis2 b0 b1 = true) : isPlainTail b1 = true := by
  rw [isUjis2, Bool.or_eq_true, Bool.and_eq_true] at h
  rcases h with ⟨-, hkata⟩ | hjis
  · exact isPlainTail_of_kata b1 hkata
  · exact (isPlainTail_of_isMb2Jis hjis).2

theorem isPlainTail_of_isUjis3 {b2 : UInt8} (h : isUjis3 b0 b1 b2 = true) :
    isPlainTail b1 = true ∧ isPlainTail b2 = true := by
  rw [isUjis3, Bool.and_eq_true] at h
  exact isPlainTail_of_isMb2Jis h.2

variable {rest : Text}

theorem startsChar_two (h0 : 0x80 ≤ b0) (h1 : isPlainTail b1 = true) :
    StartsChar (b0 :: b1 :: rest) 2 := by
  refine ⟨b0, [b1], rest, rfl, rfl, h0, ?_⟩
  intro b hb
  rwa [List.mem_singleton.mp hb]

theorem startsChar_three {b2 : UInt8} (h0 : 0x80 ≤ b0) (h1 : isPlainTail b1 = true)
    (h2 : isPlainTail b2 = true) : StartsChar (b0 :: b1 :: b2 :: rest) 3 := by
  refine ⟨b0, [b1, b2], rest, rfl, rfl, h0, ?_⟩
  intro b hb
  rcases List.mem_pair.mp hb with rfl | rfl
  · exact h1
  · exact h2

/-- What `charlenMb` finds, when its tails are plain. -/
theorem charlenMb_cases {is8bit : UInt8 → Bool} {isMb2 : UInt8 → UInt8 → Bool}
    {isMb3 : UInt8 → UInt8 → UInt8 → Bool}
    (h2 : ∀ b0 b1, isMb2 b0 b1 = true → isPlainTail b1 = true)
    (h3 : ∀ b0 b1 b2, isMb3 b0 b1 b2 = true → isPlainTail b1 = true ∧ isPlainTail b2 = true)
    (text : Text) :
    charlenMb is8bit isMb2 isMb3 text = 0 ∨
      StartsChar text (charlenMb is8bit isMb2 isMb3 text) := by
  fun_cases charlenMb is8bit isMb2 isMb3 text
  · exact .inl rfl
  · next b0 b1 rest hsmall hmb2 =>
    rw [Bool.or_eq_true, not_or, decide_eq_true_eq, UInt8.not_lt] at hsmall
    exact .inr (startsChar_two hsmall.1 (h2 b0 b1 hmb2))
  · next b0 b1 hsmall hmb2 b2 rest hmb3 =>
    rw [Bool.or_eq_true, not_or, decide_eq_true_eq, UInt8.not_lt] at hsmall
    obtain ⟨ht1, ht2⟩ := h3 b0 b1 b2 hmb3
    exact .inr (startsChar_three hsmall.1 ht1 ht2)
  · exact .inl rfl
  · exact .inl rfl
  · exact .inl rfl

theorem validMbcharlenUtf8mb3_cases :
    validMbcharlenUtf8mb3 text = 0 ∨ StartsChar text (validMbcharlenUtf8mb3 text) := by
  have hhigh : ∀ b : UInt8, ¬b < 0xC2 → 0x80 ≤ b := by decide +kernel
  fun_cases validMbcharlenUtf8mb3 text
  · exact .inl rfl
  · next b0 b1 rest hlow hmid hcont =>
    exact .inr (startsChar_two (hhigh b0 hlow) (isPlainTail_of_isContinuationByte b1 hcont))
  · exact .inl rfl
  · next b0 b1 hlow hmid b2 rest hcont =>
    rw [Bool.and_eq_true, Bool.and_eq_true] at hcont
    exact .inr (startsChar_three (hhigh b0 hlow) (isPlainTail_of_isContinuationByte b1 hcont.1.1)
      (isPlainTail_of_isContinuationByte b2 hcont.1.2))
  · exact .inl rfl
  · exact .inl rfl
  · exact .inl rfl

theorem charlenUtf8mb3_cases : charlenUtf8mb3 text = 0 ∨ StartsChar text (charlenUtf8mb3 text) := by
  fun_cases charlenUtf8mb3 text
  · exact validMbcharlenUtf8mb3_cases _
  · exact .inl rfl
  · exact .inl rfl

theorem charlenUtf8mb4_cases : charlenUtf8mb4 text = 0 ∨ StartsChar text (charlenUtf8mb4 text) := by
  have hhigh : ∀ b : UInt8, ¬b < 0xF0 → 0x80 ≤ b := by decide +kernel
  fun_cases charlenUtf8mb4 text
  · exact validMbcharlenUtf8mb3_cases _
  · next b0 hlow hmid b1 b2 b3 rest hcont =>
    simp only [Bool.and_eq_true] at hcont
    obtain ⟨⟨⟨⟨h1, h2⟩, h3⟩, -⟩, -⟩ := hcont
    refine .inr ⟨b0, [b1, b2, b3], rest, rfl, rfl, hhigh b0 hlow, ?_⟩
    intro b hb
    simp only [List.mem_cons, List.not_mem_nil, or_false] at hb
    rcases hb with rfl | rfl | rfl
    · exact isPlainTail_of_isContinuationByte b h1
    · exact isPlainTail_of_isContinuationByte b h2
    · exact isPlainTail_of_isContinuationByte b h3
  · exact .inl rfl
  · exact .inl rfl
  · exact .inl rfl
  · exact .inl rfl

variable {cs : ParserCharset}

/-- **Characters.** In a set that keeps escapes apart, a multi-byte character begins with a byte
    outside ASCII and holds neither a backslash nor a quote. -/
theorem ismbchar_cases (h : cs.keepsEscapes = true) (text : Text) :
    ismbchar cs text = 0 ∨ StartsChar text (ismbchar cs text) := by
  have hno : ∀ b0 b1 b2, noMb3 b0 b1 b2 = true → isPlainTail b1 = true ∧ isPlainTail b2 = true :=
    nofun
  cases cs with
  | singleByte => exact .inl rfl
  | utf8mb3 => exact charlenUtf8mb3_cases text
  | utf8mb4 => exact charlenUtf8mb4_cases text
  | euckr => exact charlenMb_cases (fun _ _ => isPlainTail_of_isEucKr) hno text
  | gb2312 => exact charlenMb_cases (fun _ _ => isPlainTail_of_isGb2312) hno text
  | ujis | eucjpms =>
    exact charlenMb_cases (fun _ _ => isPlainTail_of_isUjis2)
      (fun _ _ _ => isPlainTail_of_isUjis3) text
  | big5 | cp932 | gbk | sjis => cases h

theorem charlenMb_ascii {c : UInt8} (hc : c < 0x80) (rest : Text) :
    charlenMb is8bit isMb2 isMb3 (c :: rest) = 0 := by
  cases rest with
  | nil => rfl
  | cons b rest => exact if_pos (by simp [hc])

/-- No multi-byte character begins with an ASCII byte. -/
theorem ismbchar_ascii (cs : ParserCharset) {c : UInt8} (hc : c < 0x80) (rest : Text) :
    ismbchar cs (c :: rest) = 0 := by
  cases hcs : cs.keepsEscapes with
  | true =>
    rcases ismbchar_cases hcs (c :: rest) with hzero | ⟨c', body, rest', heq, -, hhigh, -⟩
    · exact hzero
    · obtain rfl : c = c' := (List.cons.inj heq).1
      exact absurd hc (UInt8.not_lt.mpr hhigh)
  | false =>
    cases cs with
    | big5 | cp932 | gbk | sjis => exact charlenMb_ascii _ _ _ hc rest
    | singleByte | utf8mb3 | utf8mb4 | euckr | eucjpms | gb2312 | ujis => cases hcs

/-! ### Characters and what follows them -/

/-- There is no multi-byte character at the head, or it is one whatever follows. -/
def SettledChar (charlen : Text → ℕ) (text : Text) : Prop :=
  charlen text = 0 ∨ ∃ body rest, text = body ++ rest ∧ 1 < body.length ∧
    ∀ rest', charlen (body ++ rest') = body.length

theorem settledChar_charlenMb (text : Text) : SettledChar (charlenMb is8bit isMb2 isMb3) text := by
  rw [SettledChar]
  fun_cases charlenMb is8bit isMb2 isMb3 text
  · exact .inl rfl
  · next b0 b1 rest hsmall hmb2 =>
    refine .inr ⟨[b0, b1], rest, rfl, by simp, fun rest' => ?_⟩
    show charlenMb is8bit isMb2 isMb3 (b0 :: b1 :: rest') = 2
    simp only [charlenMb, if_neg hsmall, if_pos hmb2]
  · next b0 b1 hsmall hmb2 b2 rest hmb3 =>
    refine .inr ⟨[b0, b1, b2], rest, rfl, by simp, fun rest' => ?_⟩
    show charlenMb is8bit isMb2 isMb3 (b0 :: b1 :: b2 :: rest') = 3
    simp only [charlenMb, if_neg hsmall, if_neg hmb2, if_pos hmb3]
  · exact .inl rfl
  · exact .inl rfl
  · exact .inl rfl

theorem settledChar_validMbcharlenUtf8mb3 : SettledChar validMbcharlenUtf8mb3 text := by
  rw [SettledChar]
  fun_cases validMbcharlenUtf8mb3 text
  · exact .inl rfl
  · next b0 b1 rest hlow hmid hcont =>
    refine .inr ⟨[b0, b1], rest, rfl, by simp, fun rest' => ?_⟩
    show validMbcharlenUtf8mb3 (b0 :: b1 :: rest') = 2
    simp only [validMbcharlenUtf8mb3, if_neg hlow, if_pos hmid, if_pos hcont]
  · exact .inl rfl
  · next b0 b1 hlow hmid b2 rest hcont =>
    refine .inr ⟨[b0, b1, b2], rest, rfl, by simp, fun rest' => ?_⟩
    show validMbcharlenUtf8mb3 (b0 :: b1 :: b2 :: rest') = 3
    simp only [validMbcharlenUtf8mb3, if_neg hlow, if_neg hmid, if_pos hcont]
  · exact .inl rfl
  · exact .inl rfl
  · exact .inl rfl

/-- A set that takes over the short characters of another, by their first byte. -/
theorem SettledChar.of_head {charlen charlen' : Text → ℕ}
    (hhead : ∀ rest, charlen' (b0 :: rest) = charlen (b0 :: rest))
    (h : SettledChar charlen (b0 :: rest)) : SettledChar charlen' (b0 :: rest) := by
  rcases h with hzero | ⟨body, rest', heq, hlen, hbody⟩
  · exact .inl ((hhead rest).trans hzero)
  · refine .inr ⟨body, rest', heq, hlen, fun rest'' => ?_⟩
    obtain ⟨b, body, rfl⟩ := List.exists_cons_of_length_pos (by omega : 0 < body.length)
    obtain rfl : b0 = b := (List.cons.inj heq).1
    exact (hhead (body ++ rest'')).trans (hbody rest'')

theorem settledChar_charlenUtf8mb3 : SettledChar charlenUtf8mb3 text := by
  cases text with
  | nil => exact .inl rfl
  | cons b0 rest =>
    by_cases hb0 : b0 < 0xF0
    · exact (settledChar_validMbcharlenUtf8mb3 (b0 :: rest)).of_head fun rest => if_pos hb0
    · exact .inl (if_neg hb0)

theorem settledChar_charlenUtf8mb4 : SettledChar charlenUtf8mb4 text := by
  rw [SettledChar]
  fun_cases charlenUtf8mb4 text
  · next b0 rest hb0 =>
    have hhead : ∀ rest, charlenUtf8mb4 (b0 :: rest) = validMbcharlenUtf8mb3 (b0 :: rest) :=
      fun rest => by simp only [charlenUtf8mb4, if_pos hb0]
    have hsettled := (settledChar_validMbcharlenUtf8mb3 (b0 :: rest)).of_head hhead
    rwa [SettledChar, hhead] at hsettled
  · next b0 hlow hmid b1 b2 b3 rest hcont =>
    refine .inr ⟨[b0, b1, b2, b3], rest, rfl, by simp, fun rest' => ?_⟩
    show charlenUtf8mb4 (b0 :: b1 :: b2 :: b3 :: rest') = 4
    simp only [charlenUtf8mb4, if_neg hlow, if_pos hmid, if_pos hcont]
  · exact .inl rfl
  · exact .inl rfl
  · exact .inl rfl
  · exact .inl rfl

/-- **Characters.** A multi-byte character does not depend on what follows it. -/
theorem settledChar_ismbchar (cs : ParserCharset) (text : Text) :
    SettledChar (ismbchar cs) text := by
  cases cs with
  | singleByte => exact .inl rfl
  | utf8mb3 => exact settledChar_charlenUtf8mb3 text
  | utf8mb4 => exact settledChar_charlenUtf8mb4 text
  | big5 | cp932 | euckr | eucjpms | gb2312 | gbk | sjis | ujis =>
    exact settledChar_charlenMb _ _ _ text

/-- A character that is whole in one text is whole in every other. -/
theorem ismbchar_of_append {body post : Text} (h : ismbchar cs (body ++ post) = body.length)
    (hne : body ≠ []) (rest : Text) : ismbchar cs (body ++ rest) = body.length := by
  rcases settledChar_ismbchar cs (body ++ post) with hzero | ⟨body', rest', heq, -, hbody⟩
  · rw [hzero] at h
    exact absurd (List.length_eq_zero_iff.mp h.symm) hne
  · have hlen : body.length = body'.length := by rw [← h, heq, hbody]
    obtain ⟨rfl, -⟩ := List.append_inj heq hlen
    exact hbody rest

/-- A text without a character at its head has none when it is cut. -/
theorem ismbchar_eq_zero_of_append {text post : Text} (h : ismbchar cs (text ++ post) = 0) :
    ismbchar cs text = 0 := by
  rcases settledChar_ismbchar cs text with hzero | ⟨body, rest, rfl, hlen, hbody⟩
  · exact hzero
  · rw [List.append_assoc, hbody] at h
    omega

end MyLite.MariaDB

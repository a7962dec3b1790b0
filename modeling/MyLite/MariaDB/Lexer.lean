import MyLite.MariaDB.ExecutableComment
import MyLite.MariaDB.StringLiteral

namespace MyLite.MariaDB

open MyLite.Sql

/-!
# MariaDB's lexer

`Lex_input_stream::lex_one_token` of `sql_lex.cc` in a `utf8mb4` session with the default
`sql_mode`, as far as it decides what becomes of every byte of a statement.  A turn of its loop
reads the bytes of one token, or passes over something that is no token; the result is a list of
*cells* that together are the text.  Which keyword a word is does not move the lexer and is left
out, and so is the text the lexer prepares for the binary log.

A position is the suffix that starts at it.  The buffer ends with a NUL, so looking at the end of
the text gives one (`peek`).

* `lexTurn` — one turn of the loop, in the state the last token left.
* `lexCells` — the cells of a text that the lexer reads to `END_OF_INPUT`.
-/

/-! ### Character classes

The `ctype` and `ident_map` tables of `utf8mb4`.  They are indexed by single bytes; a byte from
0x80 to 0xFE counts as a letter. -/

/-- `my_isspace`. -/
def isSpace (b : UInt8) : Bool := b == 0x20 || (0x09 ≤ b && b ≤ 0x0D)

/-- `my_iscntrl`. -/
def isControl (b : UInt8) : Bool := b ≤ 0x1F || b == 0x7F

/-- `ident_map`: the bytes an unquoted name goes on with. -/
def isIdentByte (b : UInt8) : Bool :=
  isSqlIdentifierChar b || b == 0x24 || (0x80 ≤ b && b ≤ 0xFE)

theorem isIdentByte_of_isSqlIdentifierChar {b : UInt8} (h : isSqlIdentifierChar b = true) :
    isIdentByte b = true := by
  simp [isIdentByte, h]

/-! ### Cells -/

/-- What a stretch of text is for the lexer. -/
inductive Cell
  /-- A byte of a token outside a string literal and a quoted name. -/
  | executed (b : UInt8)
  | blank (b : UInt8)
  | lineComment (bytes : Text)
  /-- A comment that is passed over with what is in it. -/
  | comment (bytes : Text)
  /-- The start of a comment whose content is executed. -/
  | marker (bytes : Text)
  /-- The end of such a comment. -/
  | closer
  | string (bytes : Text)
  /-- A string literal that the text ends in. -/
  | openString (bytes : Text)
  /-- A name in backticks. -/
  | name (bytes : Text)
  /-- A NUL at the end of the text. -/
  | terminator
  deriving DecidableEq, Repr

/-- The bytes of a cell. -/
def Cell.bytes : Cell → Text
  | .executed b => [b]
  | .blank b => [b]
  | .lineComment bytes => bytes
  | .comment bytes => bytes
  | .marker bytes => bytes
  | .closer => [byteStar, byteSlash]
  | .string bytes => bytes
  | .openString bytes => bytes
  | .name bytes => bytes
  | .terminator => [byteNul]

/-- A byte that is executed. -/
def Cell.isExecuted : Cell → Bool
  | .executed _ => true
  | _ => false

/-- The text of several cells. -/
def cellsText (cells : List Cell) : Text := cells.flatMap Cell.bytes

/-! ### Character classes -/

/-- `yyPeek`. -/
def peek (s : Text) : UInt8 := s.headD byteNul

/-- `charlen` of `utf8mb4`, with 0 for no character. -/
def charLength (s : Text) : ℕ := if peek s < 0x80 then 1 else charlenUtf8mb4 s

variable (b : UInt8)

/-- `my_isxdigit`. -/
def isHexDigit : Bool :=
  isDigit b || (0x41 ≤ b && b ≤ 0x46) || (0x61 ≤ b && b ≤ 0x66)

/-- A binary digit. -/
def isBinaryDigit : Bool := b == 0x30 || b == 0x31

/-- The exponent letter of a number. -/
def isExponent : Bool := b == 0x65 || b == 0x45

/-- The sign of an exponent. -/
def isSign : Bool := b == 0x2B || b == byteDash

/-- The bytes of a host name: `my_isalnum`, a dot, `_` and `$`. -/
def isHostByte : Bool := isIdentByte b || b == byteDot

/-- The entries of `state_map` that differ in what the lexer reads. -/
inductive LexState
  | char | ident | numberIdent | skip | string | realOrPoint | cmpOp | longCmpOp | bool | comment
  | setVar | eol | escape | longComment | endLongComment | userEnd | userVariableDelimiter
  | minusOrComment | identOrHex | identOrBin | identOrNchar
  deriving DecidableEq, Repr

/-- `state_map` (`init_state_maps`).  A semicolon, a comma and a placeholder are single bytes like
    any other, and without `ANSI_QUOTES` a double quote starts a string. -/
def stateMap : LexState :=
  if b == 0x78 || b == 0x58 then .identOrHex
  else if b == 0x62 || b == 0x42 then .identOrBin
  else if b == 0x6E || b == 0x4E then .identOrNchar
  else if isDigit b then .numberIdent
  else if isIdentByte b then .ident
  else if isSpace b then .skip
  else if b == byteQuote || b == byteDoubleQuote then .string
  else if b == byteDot then .realOrPoint
  else if b == 0x3E || b == byteEqual || b == byteBang then .cmpOp
  else if b == 0x3C then .longCmpOp
  else if b == 0x26 || b == 0x7C then .bool
  else if b == byteHash then .comment
  else if b == 0x3A then .setVar
  else if b == byteNul then .eol
  else if b == byteBackslash then .escape
  else if b == byteSlash then .longComment
  else if b == byteStar then .endLongComment
  else if b == byteAt then .userEnd
  else if b == byteBacktick then .userVariableDelimiter
  else if b == byteDash then .minusOrComment
  else .char

/-! ### Names and numbers -/

/-- The loop of `scan_ident_start` and `scan_ident_middle`: whole characters as long as they belong
    to a name. -/
def identEnd : ℕ → Text → Text
  | 0, s => s
  | _ + 1, [] => []
  | turns + 1, c :: rest =>
    if isIdentByte c then
      match charLength (c :: rest) with
      | 0 => c :: rest
      | l + 1 => identEnd turns (rest.drop l)
    else c :: rest

/-- The loop of `scan_ident_delimited` behind the backtick; `none` where the text ends, or a NUL
    stands, before the name is closed. -/
def delimitedEnd : ℕ → Text → Option Text
  | 0, _ => none
  | _ + 1, [] => none
  | turns + 1, c :: rest =>
    if c == byteNul then none
    else match charLength (c :: rest) with
      | 0 => delimitedEnd turns rest
      | 1 =>
        if c == byteBacktick then
          if peek rest != byteBacktick then some rest else delimitedEnd turns rest.tail
        else delimitedEnd turns rest
      | l + 2 => delimitedEnd turns (rest.drop (l + 1))

/-- `MY_LEX_REAL` behind the point; `none` for an exponent without a digit. -/
def realEnd (s : Text) : Option Text :=
  let u := s.dropWhile isDigit
  if isExponent (peek u) then
    let v := if isSign (peek u.tail) then u.tail.tail else u.tail
    if isDigit (peek v) then some (v.dropWhile isDigit) else none
  else some u

/-- The end of a number, or of the name that the digits turn out to begin. -/
inductive NumberEnd
  | number (rest : Text)
  | ident (rest : Text)
  | abort

/-- `MY_LEX_NUMBER_IDENT` behind the first digit `c`. -/
def numberEnd (c : UInt8) (s : Text) : NumberEnd :=
  let based (isBaseDigit : UInt8 → Bool) : NumberEnd :=
    let u := s.tail.dropWhile isBaseDigit
    if u.length < s.tail.length && !isIdentByte (peek u) then .number u
    else .ident (identEnd u.length u)
  if c == 0x30 && peek s == 0x78 then based isHexDigit
  else if c == 0x30 && peek s == 0x62 then based isBinaryDigit
  else
    let u := s.dropWhile isDigit
    if !isIdentByte (peek u) then
      -- `MY_LEX_INT_OR_REAL`; two dots are the range of a `FOR` loop
      if peek u != byteDot || peek u.tail == byteDot then .number u
      else match realEnd u.tail with
        | some rest => .number rest
        | none => .abort
    else if isExponent (peek u) then
      if isDigit (peek u.tail) then .number (u.tail.dropWhile isDigit)
      else if isSign (peek u.tail) && isDigit (peek u.tail.tail) then
        .number (u.tail.tail.dropWhile isDigit)
      else .ident (identEnd u.tail.length u.tail)
    else .ident (identEnd u.length u)

/-- The operators of more than one byte in `symbols`. -/
def isOperator (w : Text) : Bool :=
  (["<=", "<>", "!=", ">=", "<<", ">>", "<=>"].map ascii).contains w

/-- A byte of a comparison. -/
def isCompareByte : Bool := stateMap b == .cmpOp || stateMap b == .longCmpOp

/-- `MY_LEX_CMP_OP` behind the first byte `c`. -/
def cmpOpEnd (c : UInt8) (s : Text) : Text :=
  if isCompareByte (peek s) && isOperator [c, peek s] then s.tail else s

/-- `MY_LEX_LONG_CMP_OP` behind the first byte `c`. -/
def longCmpOpEnd (c : UInt8) (s : Text) : Text :=
  if isCompareByte (peek s) && stateMap (peek s.tail) == .cmpOp &&
      isOperator [c, peek s, peek s.tail] then s.tail.tail
  else cmpOpEnd c s

/-! ### Comments -/

/-- `consume_comment`: the text behind the end of a comment, in which one more level of comments
    may be `nested`; `none` where the text ends first. -/
def consumeComment (nested : Bool) : ℕ → Text → Option Text
  | 0, _ => none
  | _ + 1, [] => none
  | turns + 1, c :: rest =>
    if nested && c == byteSlash && peek rest == byteStar then
      match consumeComment false turns rest.tail with
      | none => none
      | some r => consumeComment nested turns r
    else if c == byteStar && peek rest == byteSlash then some rest.tail
    else consumeComment nested turns rest

/-- The digits of a version: five or six. -/
def versionDigits (s : Text) : Text :=
  if (s.take 5).length == 5 && (s.take 5).all isDigit then
    if isDigit (peek (s.drop 5)) then s.take 6 else s.take 5
  else []

/-! ### Turns of the loop -/

/-- `next_state`, and the state in which a turn begins. -/
inductive NextState
  | start | identSep | identOrKeyword | hostname | systemVar
  deriving DecidableEq, Repr

/-- A turn of the lexer's loop. -/
inductive Turn
  /-- `ABORT_SYM`. -/
  | abort
  | endOfInput (cells : List Cell)
  | read (cells : List Cell) (next : NextState) (inComment : Bool) (rest : Text)
  deriving DecidableEq, Repr

/-- What has been read of a text when `rest` is left. -/
def readBytes (s rest : Text) : Text := s.take (s.length - rest.length)

/-- A token. -/
def Turn.token (s rest : Text) (next : NextState) (inComment : Bool) : Turn :=
  .read ((readBytes s rest).map .executed) next inComment rest

/-- What follows a name. -/
def afterIdent (rest : Text) : NextState :=
  if peek rest == byteDot && isIdentByte (peek rest.tail) then .identSep else .start

/-- What follows the dot behind a name. -/
def afterDot (rest : Text) : NextState :=
  if isIdentByte (peek rest) then .identOrKeyword else .start

/-- `get_text` behind the quote `sep`, with the cells `before` already read. -/
def stringTurn (before : List Cell) (inComment : Bool) (sep : UInt8) (s : Text) : Turn :=
  match getTextLoop defaultSession sep s.length s with
  | some found =>
    .read (before ++ [.string (sep :: (found.body ++ [sep]))]) .start inComment found.rest
  -- the lexer is at the end of the text and returns one byte as a token
  | none => .read (before ++ [.openString (sep :: s)]) .start inComment []

/-- `MY_LEX_HEX_NUMBER` and `MY_LEX_BIN_NUMBER` behind the letter `c` and the quote. -/
def basedStringTurn (isBaseDigit : UInt8 → Bool) (oddAllowed inComment : Bool) (c : UInt8)
    (s : Text) : Turn :=
  let rest := s.dropWhile isBaseDigit
  if peek rest != byteQuote then .abort
  else if !oddAllowed && (s.length - rest.length) % 2 == 1 then .abort
  else .read [.executed c, .string (byteQuote :: (readBytes s rest ++ [byteQuote]))] .start
    inComment rest.tail

variable (inComment : Bool) (c : UInt8) (s : Text)

/-- `MY_LEX_IDENT` behind the first byte `c`: a byte that starts no character is a token. -/
def identTurn : Turn :=
  match charLength (c :: s) with
  | 0 => .token (c :: s) s .start inComment
  | l + 1 =>
    let rest := identEnd s.length (s.drop l)
    .token (c :: s) rest (afterIdent rest) inComment

/-- `MY_LEX_COMMENT` behind the first byte `c`: up to the newline, or up to a NUL. -/
def commentTurn : Turn :=
  let rest := s.dropWhile fun b => b != byteNewline && b != byteNul
  .read [.lineComment (readBytes (c :: s) rest)] .start inComment rest

/-- A comment that is passed over; `body` is the text behind the slash and the star. -/
def discardTurn (inComment nested : Bool) (body : Text) (content : Text) : Turn :=
  match consumeComment nested content.length content with
  | none => .abort
  | some rest =>
    .read [.comment (byteSlash :: byteStar :: readBytes body rest)] .start inComment rest

/-- Behind the slash and the star of a comment: it is one that a server executes. -/
def opensExecutable (body : Text) : Bool :=
  peek body == byteBang || (peek body == 0x4D && peek body.tail == byteBang)

/-- `MY_LEX_LONG_COMMENT` behind the slash and the star. -/
def longCommentTurn (body : Text) : Turn :=
  if opensExecutable body then
    let maria := peek body == 0x4D
    let content := if maria then body.tail.tail else body.tail
    let version := versionDigits content
    if version == [] || acceptsVersion maria version then
      let rest := content.drop version.length
      .read [.marker (byteSlash :: byteStar :: readBytes body rest)] .start true rest
    else discardTurn inComment true body content
  else discardTurn inComment false body body

/-- The turn that begins with the byte `c`. -/
def startTurn : Turn :=
  match stateMap c with
  | .skip => .read [.blank c] .start inComment s
  | .char => .token (c :: s) s .start inComment
  | .escape => .token (c :: s) s.tail .start inComment
  | .minusOrComment =>
    if peek s == byteDash && (isSpace (peek s.tail) || isControl (peek s.tail)) then
      commentTurn inComment c s
    else .token (c :: s) s .start inComment
  | .comment => commentTurn inComment c s
  | .longComment =>
    if peek s == byteStar then longCommentTurn inComment s.tail
    else .token (c :: s) s .start inComment
  | .endLongComment =>
    if inComment && peek s == byteSlash then .read [.closer] .start false s.tail
    else .token (c :: s) s .start inComment
  | .string => stringTurn [] inComment c s
  | .userVariableDelimiter =>
    match delimitedEnd s.length s with
    | some rest => .read [.name (readBytes (c :: s) rest)] .start inComment rest
    -- the quote is returned as a token
    | none => .token (c :: s) s .start inComment
  | .identOrNchar =>
    if peek s == byteQuote then stringTurn [.executed c] inComment byteQuote s.tail
    else identTurn inComment c s
  | .identOrHex =>
    if peek s == byteQuote then basedStringTurn isHexDigit false inComment c s.tail
    else identTurn inComment c s
  | .identOrBin =>
    if peek s == byteQuote then basedStringTurn isBinaryDigit true inComment c s.tail
    else identTurn inComment c s
  | .ident => identTurn inComment c s
  | .numberIdent =>
    match numberEnd c s with
    | .number rest => .token (c :: s) rest .start inComment
    | .ident rest => .token (c :: s) rest (afterIdent rest) inComment
    | .abort => .abort
  | .realOrPoint =>
    if isDigit (peek s) then
      match realEnd s with
      | some rest => .token (c :: s) rest .start inComment
      | none => .abort
    else if peek s == byteDot then .token (c :: s) s.tail .start inComment
    else .token (c :: s) s (afterDot s) inComment
  | .cmpOp => .token (c :: s) (cmpOpEnd c s) .start inComment
  | .longCmpOp => .token (c :: s) (longCmpOpEnd c s) .start inComment
  | .bool => .token (c :: s) (if peek s == c then s.tail else s) .start inComment
  | .setVar => .token (c :: s) (if peek s == byteEqual then s.tail else s) .start inComment
  | .eol =>
    if s.isEmpty then if inComment then .abort else .endOfInput [.terminator]
    else .token (c :: s) s .start inComment
  | .userEnd =>
    let next : NextState := match stateMap (peek s) with
      | .string | .userVariableDelimiter => .start
      | .userEnd => .systemVar
      | _ => .hostname
    .token (c :: s) s next inComment

/-- One turn of the loop of `lex_one_token`, or the one turn of a state that is entered through
    `next_state`.  A host name may be empty, a name behind `@@` or a dot may not. -/
def lexTurn (next : NextState) (inComment : Bool) (s : Text) : Turn :=
  match next with
  | .start =>
    match s with
    | [] => if inComment then .abort else .endOfInput []
    | c :: rest => startTurn inComment c rest
  | .identSep => .token s s.tail (afterDot s.tail) inComment
  | .identOrKeyword =>
    let rest := s.dropWhile isIdentByte
    if rest.length == s.length then .abort
    else .token s rest (if peek rest == byteDot then .identSep else .start) inComment
  | .hostname => .token s (s.dropWhile isHostByte) .start inComment
  | .systemVar =>
    .token s s.tail (if peek s.tail == byteBacktick then .start else .identOrKeyword) inComment

/-- The cells up to `END_OF_INPUT`. -/
def lexLoop : ℕ → NextState → Bool → Text → Option (List Cell)
  | 0, _, _, _ => none
  | turns + 1, next, inComment, s =>
    match lexTurn next inComment s with
    | .abort => none
    | .endOfInput cells => some cells
    | .read cells next' inComment' rest =>
      (lexLoop turns next' inComment' rest).map (cells ++ ·)

/-- The turns that may pass, from a state on, without a byte being read. -/
def NextState.turns : NextState → ℕ
  | .start => 1
  | .systemVar => 3
  | _ => 2

/-- The turns that a text needs at most. -/
def lexTurns (next : NextState) (s : Text) : ℕ := 3 * s.length + next.turns

/-- The cells of a text that the lexer accepts to its end. -/
def lexCells (sql : Text) : Option (List Cell) := lexLoop (lexTurns .start sql) .start false sql

end MyLite.MariaDB

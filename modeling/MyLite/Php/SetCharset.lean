import MyLite.MariaDB.LexTokens
import MyLite.Php.EntryPoints
import MyLite.Php.MysqliLink

namespace MyLite.Php

open MyLite.Sql MyLite.MariaDB MyLite.Policy

/-!
# The argument of `set_charset`

`php_mylite_mysqli_set_charset_impl` puts its argument behind `SET NAMES` as it is and keeps it as
the link's character set.  What the server makes of it is decided by the rules `set_param` and
`option_value_no_option_type`: a name, a literal or `DEFAULT`, a collation, and further assignments
behind a comma.

* `setNames` — `SET NAMES` over the tokens of the lexer.
* `changesOnlyCharset_iff` — the arguments that only change the character set.
-/

/-! ### Character sets -/

/-- The character sets a client can have. -/
def clientCharsets : List String :=
  ["utf8mb4", "utf8mb3", "big5", "cp932", "euckr", "eucjpms", "gb2312", "gbk", "sjis", "ujis"] ++
    singleByteNames

/-- `get_charset_by_csname` for a client: letters match in either case, and `utf8` is an alias that
    `UTF8_IS_UTF8MB3` of `@@old_mode` decides. -/
def charsetByCsname (utf8IsMb3 : Bool) (name : Text) : Option String :=
  if tokenEquals name "utf8" then some (if utf8IsMb3 then "utf8mb3" else "utf8mb4")
  else clientCharsets.find? (tokenEquals name)

/-- The names of character sets are words that do not begin with a digit. -/
theorem clientCharsets_words : ∀ name ∈ "utf8" :: clientCharsets,
    (fold (ascii name)).all isSqlIdentifierChar = true ∧
      (fold (ascii name)).head?.map isDigit = some false := by
  decide

variable {utf8IsMb3 : Bool} {name : Text} {charset : String}

theorem exists_tokenEquals_of_charsetByCsname (h : charsetByCsname utf8IsMb3 name = some charset) :
    ∃ known ∈ "utf8" :: clientCharsets, tokenEquals name known = true := by
  by_cases halias : tokenEquals name "utf8" = true
  · exact ⟨"utf8", List.mem_cons_self, halias⟩
  · rw [charsetByCsname, if_neg halias] at h
    exact ⟨charset, List.mem_cons_of_mem _ (List.mem_of_find?_eq_some h), List.find?_some h⟩

/-- A name of a character set is read as one word. -/
theorem exists_cons_of_charsetByCsname (h : charsetByCsname utf8IsMb3 name = some charset) :
    ∃ c w, name = c :: w ∧ isDigit c = false ∧ ∀ b ∈ c :: w, isSqlIdentifierChar b = true := by
  have hdigit : ∀ b : UInt8, isDigit (upperByte b) = isDigit b := by decide +kernel
  obtain ⟨known, hmem, hequals⟩ := exists_tokenEquals_of_charsetByCsname h
  obtain ⟨hchars, hhead⟩ := clientCharsets_words known hmem
  have hword := isSqlIdentifierChar_of_tokenEquals hequals hchars
  rw [← tokenEquals_iff.mp hequals] at hhead
  cases name with
  | nil => cases hhead
  | cons c w => exact ⟨c, w, rfl, hdigit c ▸ Option.some.inj hhead, hword⟩

/-! ### The server -/

/-- The part of a session that `SET NAMES` is for, and the other variables. -/
structure NamesSession (σ : Type) where
  /-- `@@character_set_client`, and `connection` and `results` with it. -/
  client : String
  /-- `@@collation_connection`, where it is not the character set's own. -/
  collation : Option Text
  /-- Every other session and global variable. -/
  other : σ

/-- What the server does around `SET NAMES`. -/
structure SetServer (σ : Type) where
  /-- `UTF8_IS_UTF8MB3` of `@@old_mode`. -/
  utf8IsMb3 : Bool
  /-- `@@global.character_set_client`. -/
  defaultCharset : String
  /-- The lexer, with the character set and the modes of the session. -/
  lex : NamesSession σ → Text → Option (List LexToken)
  /-- The value of a string literal. -/
  literal : NamesSession σ → Text → Option Text
  /-- `merge_collation_override`: the collation for a character set, if it belongs to it. -/
  collation : String → LexToken → Option (Option Text)
  /-- The assignments of `option_value_list`. -/
  assign : NamesSession σ → List LexToken → Option (NamesSession σ)
  /-- Words and spaces are ASCII in the character set of every client. -/
  lex_words : ∀ session sql, (∀ b ∈ sql, isSqlIdentifierChar b = true ∨ b = byteSpace) →
    lex session sql = lexTokens sql

section

variable {σ : Type} (server : SetServer σ) (session : NamesSession σ)

/-- `charset_name_or_default`. -/
def charsetNameOrDefault : LexToken → Option String
  | .plain word =>
    if tokenEquals word "DEFAULT" then some server.defaultCharset
    else charsetByCsname server.utf8IsMb3 word
  | .delimited name => charsetByCsname server.utf8IsMb3 name
  | .string bytes => (server.literal session bytes).bind (charsetByCsname server.utf8IsMb3)

/-- What stands behind the first assignment: the end of the statement, or the others. -/
def setParamTail : List LexToken → Option (NamesSession σ)
  | [] => some session
  | .plain symbol :: others =>
    if symbol = ascii "," then server.assign session others
    else if symbol = ascii ";" && others.isEmpty then some session
    else none
  | _ => none

/-- `NAMES_SYM charset_name_or_default`, with or without `COLLATE_SYM`. -/
def setNames : List LexToken → Option (NamesSession σ)
  | charset :: .plain word :: tail =>
    (charsetNameOrDefault server session charset).bind fun client =>
      if tokenEquals word "COLLATE" then
        match tail with
        | name :: tail =>
          (server.collation client name).bind fun collation =>
            setParamTail server { session with client := client, collation := collation } tail
        | [] => none
      else
        setParamTail server { session with client := client, collation := none }
          (.plain word :: tail)
  | [charset] =>
    (charsetNameOrDefault server session charset).bind fun client =>
      some { session with client := client, collation := none }
  | _ => none

/-- The statement `SET NAMES …`. -/
def setStatement : List LexToken → Option (NamesSession σ)
  | .plain set :: .plain names :: rest =>
    if tokenEquals set "SET" && tokenEquals names "NAMES" then setNames server session rest
    else none
  | _ => none

/-! ### The call -/

/-- A link with its session. -/
structure CharsetLink (σ : Type) where
  currentSchema : Text
  session : NamesSession σ
  /-- `link->charset`. -/
  recorded : Text

/-- `php_mylite_mysqli_set_charset_impl`: the link after a call that succeeds. -/
def setCharset (link : CharsetLink σ) (charset : Text) : Option (CharsetLink σ) :=
  (execText link.currentSchema (setCharsetSql charset)).bind fun sql =>
    (server.lex link.session sql).bind fun tokens =>
      (setStatement server link.session tokens).map fun session =>
        { link with session := session, recorded := charset }

/-- The statement is `SET NAMES` with the argument as its only one, no other variable changes, and
    what the link keeps names the character set of the client. -/
structure ChangesOnlyCharset (link : CharsetLink σ) (charset : Text) (link' : CharsetLink σ) :
    Prop where
  statement : server.lex link.session (cString (setCharsetSql charset)) =
    some [.plain (ascii "SET"), .plain (ascii "NAMES"), .plain charset]
  collation : link'.session.collation = none
  other : link'.session.other = link.session.other
  recorded : charsetByCsname server.utf8IsMb3 link'.recorded = some link'.session.client

variable {server}

variable {charset : Text} {client : String}

/-- With a word for its argument, the statement is read as three words. -/
theorem lexTokens_setCharsetSql {c : UInt8} {w : Text} (hdigit : isDigit c = false)
    (hw : ∀ b ∈ c :: w, isSqlIdentifierChar b = true) :
    lexTokens (setCharsetSql (c :: w)) =
      some [.plain (ascii "SET"), .plain (ascii "NAMES"), .plain (c :: w)] := by
  have hsql : setCharsetSql (c :: w) =
      0x53 :: [0x45, 0x54] ++ byteSpace :: (0x4E :: [0x41, 0x4D, 0x45, 0x53] ++
        byteSpace :: (c :: w ++ [])) := by
    have hlead : ascii "SET NAMES " =
        0x53 :: [0x45, 0x54] ++ byteSpace :: (0x4E :: [0x41, 0x4D, 0x45, 0x53] ++ [byteSpace]) := by
      decide
    rw [setCharsetSql, hlead]
    simp
  have hset : (0x53 :: [0x45, 0x54] : Text).all isSqlIdentifierChar = true := by decide
  have hnames : (0x4E :: [0x41, 0x4D, 0x45, 0x53] : Text).all isSqlIdentifierChar = true := by
    decide
  have hsetWord : (0x53 :: [0x45, 0x54] : Text) = ascii "SET" := by decide
  have hnamesWord : (0x4E :: [0x41, 0x4D, 0x45, 0x53] : Text) = ascii "NAMES" := by decide
  -- Six turns: three words, two spaces and the end of the text.
  obtain ⟨n, hn⟩ : ∃ n, lexTurns .start (setCharsetSql (c :: w)) = n + 1 + 1 + 1 + 1 + 1 + 1 := by
    refine ⟨3 * (setCharsetSql (c :: w)).length - 5, ?_⟩
    have hlen : 2 ≤ (setCharsetSql (c :: w)).length := by
      rw [hsql]
      simp
    show 3 * (setCharsetSql (c :: w)).length + 1 = _
    omega
  rw [lexTokens, hn, hsql,
    lexTokensLoop_word _ (by decide) (List.all_eq_true.mp hset) (.inr ⟨_, rfl⟩),
    lexTokensLoop_space,
    lexTokensLoop_word _ (by decide) (List.all_eq_true.mp hnames) (.inr ⟨_, rfl⟩),
    lexTokensLoop_space, lexTokensLoop_word _ hdigit hw (.inl rfl), lexTokensLoop_nil, hsetWord,
    hnamesWord]
  rfl

/-- The bytes of the statement for a word. -/
theorem setCharsetSql_words {word : Text} (hw : ∀ b ∈ word, isSqlIdentifierChar b = true) :
    ∀ b ∈ setCharsetSql word, isSqlIdentifierChar b = true ∨ b = byteSpace := by
  have hlead : (ascii "SET NAMES ").all
      (fun b => isSqlIdentifierChar b || b == byteSpace) = true := by decide
  intro b hb
  rcases List.mem_append.mp hb with hb | hb
  · simpa using List.all_eq_true.mp hlead b hb
  · exact .inl (hw b hb)

/-- A name of a character set is the only argument of its statement. -/
theorem lex_setCharsetSql (h : charsetByCsname server.utf8IsMb3 charset = some client)
    (session : NamesSession σ) :
    cString (setCharsetSql charset) = setCharsetSql charset ∧
      server.lex session (setCharsetSql charset) =
        some [.plain (ascii "SET"), .plain (ascii "NAMES"), .plain charset] := by
  obtain ⟨c, w, rfl, hdigit, hw⟩ := exists_cons_of_charsetByCsname h
  have hbytes := setCharsetSql_words hw
  constructor
  · apply cString_eq_self_iff.mpr
    intro hnul
    rcases hbytes _ hnul with hb | hb
    · exact absurd hb (by decide)
    · exact absurd hb (by decide)
  · rw [server.lex_words session _ hbytes]
    exact lexTokens_setCharsetSql hdigit hw

/-- `SET NAMES` with a name of a character set. -/
theorem setStatement_charset (h : charsetByCsname server.utf8IsMb3 charset = some client)
    (session : NamesSession σ) :
    setStatement server session
        [.plain (ascii "SET"), .plain (ascii "NAMES"), .plain charset] =
      some { session with client := client, collation := none } := by
  have hdefault : tokenEquals charset "DEFAULT" = false := by
    have hknown : ∀ known ∈ "utf8" :: clientCharsets,
        tokenEquals (ascii known) "DEFAULT" = false := by decide
    obtain ⟨known, hmem, hequals⟩ := exists_tokenEquals_of_charsetByCsname h
    rw [tokenEquals_congr (tokenEquals_iff.mp hequals)]
    exact hknown known hmem
  have hwords : (tokenEquals (ascii "SET") "SET" && tokenEquals (ascii "NAMES") "NAMES") =
      true := by
    decide
  rw [setStatement, if_pos hwords, setNames, charsetNameOrDefault, hdefault,
    if_neg Bool.false_ne_true, h]
  rfl

/-- What a successful call leaves. -/
theorem exists_of_setCharset {link link' : CharsetLink σ}
    (h : setCharset server link charset = some link') :
    ∃ tokens session,
      server.lex link.session (cString (setCharsetSql charset)) = some tokens ∧
        setStatement server link.session tokens = some session ∧
        link' = { link with session := session, recorded := charset } := by
  rw [setCharset, Option.bind_eq_some_iff] at h
  obtain ⟨sql, hsql, h⟩ := h
  rw [Option.bind_eq_some_iff] at h
  obtain ⟨tokens, htokens, h⟩ := h
  obtain ⟨session, hsession, rfl⟩ := Option.map_eq_some_iff.mp h
  rw [execText] at hsql
  split_ifs at hsql with hgate
  obtain rfl : cString (setCharsetSql charset) = sql := Option.some.inj hsql
  exact ⟨tokens, session, htokens, hsession, rfl⟩

/-- **Arguments of `set_charset`.** A call that succeeds changes the character set and nothing
    else exactly when its argument is the name of one. -/
theorem changesOnlyCharset_iff (server : SetServer σ) (link link' : CharsetLink σ) (charset : Text)
    (h : setCharset server link charset = some link') :
    ChangesOnlyCharset server link charset link' ↔
      (charsetByCsname server.utf8IsMb3 charset).isSome = true := by
  obtain ⟨tokens, session, htokens, hsession, rfl⟩ := exists_of_setCharset h
  constructor
  · intro hchanges
    exact Option.isSome_iff_exists.mpr ⟨_, hchanges.recorded⟩
  · intro hname
    obtain ⟨client, hclient⟩ := Option.isSome_iff_exists.mp hname
    obtain ⟨hwhole, hlex⟩ := lex_setCharsetSql hclient link.session
    have hstatement := hlex
    rw [← hwhole] at hstatement
    obtain rfl := Option.some.inj (htokens.symm.trans hstatement)
    rw [setStatement_charset hclient] at hsession
    obtain rfl := Option.some.inj hsession
    exact ⟨hstatement, rfl, rfl, hclient⟩

end

/-! ### A server with `sql_mode` -/

/-- A server whose only other variable is `sql_mode`, assigned from a literal in quotes. -/
def modeServer : SetServer SqlMode where
  utf8IsMb3 := true
  defaultCharset := "latin1"
  lex _ sql := lexTokens sql
  literal _ bytes := some bytes.tail.dropLast
  collation _ _ := none
  assign session
    | [.plain name, .plain sign, .string bytes] =>
      if tokenEquals name "sql_mode" && sign == ascii "=" then
        (sqlModeOfString bytes.tail.dropLast).map fun mode =>
          { session with other := expandSqlMode mode }
      else none
    | _ => none
  lex_words _ _ _ := rfl

/-- A link that has just been opened. -/
def modeLink : CharsetLink SqlMode :=
  ⟨[], ⟨"utf8mb4", none, Link.connected.sqlMode⟩, ascii "utf8mb4"⟩

/-- `set_charset('latin1')` in a new link. -/
theorem changesOnlyCharset_latin1 :
    ChangesOnlyCharset modeServer modeLink (ascii "latin1")
        { modeLink with
          session := ⟨"latin1", none, Link.connected.sqlMode⟩, recorded := ascii "latin1" } ↔
      (charsetByCsname true (ascii "latin1")).isSome = true := by
  apply changesOnlyCharset_iff
  have hgate : rejects [] (cString (setCharsetSql (ascii "latin1"))) = false := by
    rw [rejects_of_unassigned rfl (by decide)]
    decide
  have hclient : charsetByCsname true (ascii "latin1") = some "latin1" := by decide
  obtain ⟨hwhole, hlex⟩ := @lex_setCharsetSql _ modeServer _ _ hclient modeLink.session
  rw [setCharset, execText, show modeLink.currentSchema = [] from rfl, hgate,
    if_neg Bool.false_ne_true, hwhole, Option.bind_some, hlex, Option.bind_some,
    @setStatement_charset _ modeServer _ _ hclient]
  rfl

/-- The argument `utf8mb4, sql_mode = ''` passes the gate and takes the modes of the session
    away. -/
theorem not_changesOnlyCharset_sqlMode :
    setCharset modeServer modeLink (ascii "utf8mb4, sql_mode = ''") =
        some { modeLink with
          session := ⟨"utf8mb4", none, []⟩, recorded := ascii "utf8mb4, sql_mode = ''" } ∧
      ¬ChangesOnlyCharset modeServer modeLink (ascii "utf8mb4, sql_mode = ''")
        { modeLink with
          session := ⟨"utf8mb4", none, []⟩, recorded := ascii "utf8mb4, sql_mode = ''" } := by
  constructor
  · have hgate : rejects [] (cString (setCharsetSql (ascii "utf8mb4, sql_mode = ''"))) = false := by
      rw [rejects_of_unassigned rfl (by decide)]
      decide
    have htokens : modeServer.lex modeLink.session
        (cString (setCharsetSql (ascii "utf8mb4, sql_mode = ''"))) = some
          [.plain (ascii "SET"), .plain (ascii "NAMES"), .plain (ascii "utf8mb4"),
            .plain (ascii ","), .plain (ascii "sql_mode"), .plain (ascii "="),
            .string (ascii "''")] := by
      decide
    have hset : setStatement modeServer modeLink.session
        [.plain (ascii "SET"), .plain (ascii "NAMES"), .plain (ascii "utf8mb4"),
          .plain (ascii ","), .plain (ascii "sql_mode"), .plain (ascii "="),
          .string (ascii "''")] = some ⟨"utf8mb4", none, []⟩ := by
      rfl
    rw [setCharset, execText, show modeLink.currentSchema = [] from rfl, hgate,
      if_neg Bool.false_ne_true, Option.bind_some, htokens, Option.bind_some, hset]
    rfl
  · intro h
    have hother : ([] : SqlMode) = [21, 26, 30, 28] := h.other
    cases hother

end MyLite.Php

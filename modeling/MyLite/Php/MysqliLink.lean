import MyLite.MariaDB.SqlMode
import MyLite.Php.Escape
import MyLite.Policy.SetGate

namespace MyLite.Php

open MyLite.Sql MyLite.MariaDB MyLite.Policy

/-!
# Escaping in the sessions of a `mysqli` link

`real_escape_string` does not look at the session, while the lexer's reading of a literal depends
on the session's character set and on `NO_BACKSLASH_ESCAPES`.  Both can be changed through a link:
`set_charset` runs `SET NAMES` with its argument, and the gate lets `SET sql_mode` through unless
it sees `ORACLE`.

* `Link.call` — the two ways to change the session.
* `consumed_iff` — the sessions in which every escaped value is read as one literal.
-/

/-! ### The session of a link -/

/-- What a link knows of its session. -/
structure Link where
  currentSchema : Text
  charset : ParserCharset
  sqlMode : SqlMode
  deriving DecidableEq, Repr

/-- A new link: `utf8mb4` and the default modes. -/
def Link.connected : Link := ⟨[], .utf8mb4, [21, 26, 30, 28]⟩

/-- The session as the lexer sees it. -/
def Link.lexSession (link : Link) : LexSession :=
  ⟨link.charset, link.sqlMode.contains modeNoBackslashEscapes⟩

/-- The character sets with single-byte characters only. -/
def singleByteNames : List String :=
  ["dec8", "cp850", "hp8", "koi8r", "latin1", "latin2", "swe7", "ascii", "hebrew", "tis620",
    "koi8u", "greek", "cp1250", "latin5", "armscii8", "cp866", "keybcs2", "macce", "macroman",
    "cp852", "latin7", "cp1251", "cp1256", "cp1257", "binary", "geostd8"]

/-- The character set `SET NAMES` finds under a name, if the parser supports it. -/
def charsetByName (name : Text) : Option ParserCharset :=
  if tokenEquals name "utf8mb4" then some .utf8mb4
  else if tokenIn name ["utf8mb3", "utf8"] then some .utf8mb3
  else if tokenEquals name "big5" then some .big5
  else if tokenEquals name "cp932" then some .cp932
  else if tokenEquals name "euckr" then some .euckr
  else if tokenEquals name "eucjpms" then some .eucjpms
  else if tokenEquals name "gb2312" then some .gb2312
  else if tokenEquals name "gbk" then some .gbk
  else if tokenEquals name "sjis" then some .sjis
  else if tokenEquals name "ujis" then some .ujis
  else if tokenIn name singleByteNames then some .singleByte
  else none

/-- A call that may change the session. -/
inductive LinkCall
  /-- `set_charset`. -/
  | setCharset (name : Text)
  /-- A query `SET sql_mode = '…'`, with the text between the quotes. -/
  | setSqlMode (literal : Text)

/-- `php_mylite_mysqli_set_charset_sql`. -/
def setCharsetSql (name : Text) : Text := ascii "SET NAMES " ++ name

/-- The text of `SET sql_mode`. -/
def setSqlModeSql (literal : Text) : Text :=
  ascii "SET sql_mode = " ++ byteQuote :: (literal ++ [byteQuote])

/-- The session after a call: unchanged if the gate or the server refuses. -/
def Link.call (link : Link) : LinkCall → Link
  | .setCharset name =>
    if rejects link.currentSchema (setCharsetSql name) then link
    else
      match charsetByName name with
      | some charset => { link with charset := charset }
      | none => link
  | .setSqlMode literal =>
    if rejects link.currentSchema (setSqlModeSql literal) then link
    else
      match getText link.lexSession byteQuote (literal ++ [byteQuote]) with
      | some (value, []) =>
        match sqlModeOfString value with
        | some mode => { link with sqlMode := expandSqlMode mode }
        | none => link
      | _ => link

/-! ### Literals -/

/-- The lexer takes the escaped value in single quotes as one literal up to the last quote. -/
def Consumed (session : LexSession) (s : Text) : Prop :=
  ∀ tail : Text, tail.head? ≠ some byteQuote →
    ∃ value, getText session byteQuote (phpMyliteMysqliEscapeSql s ++ byteQuote :: tail)
      = some (value, tail)

/-- Backslash escapes are on, and the character set keeps them apart. -/
def EscapesRead (link : Link) : Prop :=
  modeNoBackslashEscapes ∉ link.sqlMode ∧ link.charset.keepsEscapes = true

/-- Without backslash escapes a quote in the value is not escaped. -/
theorem not_consumed_of_noBackslashEscapes (cs : ParserCharset) :
    ¬Consumed ⟨cs, true⟩ [byteQuote] := by
  intro h
  obtain ⟨value, hvalue⟩ := h [] (by decide)
  have hnone : getText ⟨cs, true⟩ byteQuote
      (phpMyliteMysqliEscapeSql [byteQuote] ++ [byteQuote]) = none := by
    cases cs <;> decide
  rw [hnone] at hvalue
  cases hvalue

/-- Where a character may end in a backslash, a lead byte takes the escape away from the quote
    behind it. -/
theorem not_consumed_of_not_keepsEscapes {cs : ParserCharset} (hcs : cs.keepsEscapes = false) :
    ¬Consumed ⟨cs, false⟩ [0xE0, byteQuote] := by
  intro h
  obtain ⟨value, hvalue⟩ := h [] (by decide)
  have hnone : getText ⟨cs, false⟩ byteQuote
      (phpMyliteMysqliEscapeSql [0xE0, byteQuote] ++ [byteQuote]) = none := by
    cases cs <;> first | exact absurd hcs (by decide) | decide
  rw [hnone] at hvalue
  cases hvalue

/-- **Escaping.** Every escaped value is read as one literal exactly in the sessions that read
    the escapes. -/
theorem consumed_iff (link : Link) :
    (∀ s, Consumed link.lexSession s) ↔ EscapesRead link := by
  constructor
  · intro h
    have hmode : modeNoBackslashEscapes ∉ link.sqlMode := by
      intro hmem
      apply not_consumed_of_noBackslashEscapes link.charset
      have hs := h [byteQuote]
      rwa [Link.lexSession, List.contains_iff_mem.mpr hmem] at hs
    refine ⟨hmode, ?_⟩
    by_contra hcs
    apply not_consumed_of_not_keepsEscapes (Bool.eq_false_iff.mpr hcs)
    have hs := h [0xE0, byteQuote]
    have hflag : link.sqlMode.contains modeNoBackslashEscapes = false := by
      rw [Bool.eq_false_iff, Ne, List.contains_iff_mem]
      exact hmode
    rwa [Link.lexSession, hflag] at hs
  · rintro ⟨hmode, hcs⟩ s tail htail
    have hflag : link.sqlMode.contains modeNoBackslashEscapes = false := by
      rw [Bool.eq_false_iff, Ne, List.contains_iff_mem]
      exact hmode
    refine ⟨s, ?_⟩
    rw [Link.lexSession, hflag]
    exact getText_escapeSql hcs s htail

/-- An accepted `SET sql_mode` makes the value `' OR 1` end its literal at once. -/
theorem not_consumed_after_setSqlMode :
    let link := Link.connected.call (.setSqlMode (ascii "NO_BACKSLASH_ESCAPES"))
    rejects Link.connected.currentSchema (setSqlModeSql (ascii "NO_BACKSLASH_ESCAPES")) = false ∧
      getText link.lexSession byteQuote
          (phpMyliteMysqliEscapeSql (ascii "' OR 1") ++ [byteQuote])
        = some ([byteBackslash], ascii " OR 1'") ∧
      ¬Consumed link.lexSession (ascii "' OR 1") := by
  intro link
  have hgate : rejects Link.connected.currentSchema (setSqlModeSql (ascii "NO_BACKSLASH_ESCAPES"))
      = false := by
    rw [rejects_of_mode rfl (by decide)]
    decide
  have hsession : link.lexSession = ⟨Link.connected.charset, true⟩ := by
    show (Link.connected.call _).lexSession = _
    rw [Link.call, hgate]
    decide
  have hearly : getText link.lexSession byteQuote
      (phpMyliteMysqliEscapeSql (ascii "' OR 1") ++ [byteQuote])
      = some ([byteBackslash], ascii " OR 1'") := by
    rw [hsession]
    decide
  refine ⟨hgate, hearly, fun h => ?_⟩
  obtain ⟨value, hvalue⟩ := h [] (by decide)
  rw [hearly] at hvalue
  cases hvalue

end MyLite.Php

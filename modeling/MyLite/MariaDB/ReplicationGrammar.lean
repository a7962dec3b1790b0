import Mathlib.Computability.Language
import MyLite.Policy.Tokens

namespace MyLite.Lib

open Computability

/-!
# Grammar rules as languages

A grammar rule without recursion is a `Language` over its tokens: concatenation is `*`, choice
is `+`, the empty derivation is `1` and a repetition is `∗`.  What holds of every terminal holds of
every token of the language (`AllTokens`).
-/

variable {α : Type*} {p : α → Prop} {l m : Language α}

/-- The rule `/* empty */ | l`. -/
def opt (l : Language α) : Language α := 1 + l

theorem mem_opt {ts : List α} : ts ∈ opt l ↔ ts = [] ∨ ts ∈ l := by
  rw [opt, Language.mem_add, Language.mem_one]

/-- Every token of every derivation satisfies `p`. -/
def AllTokens (p : α → Prop) (l : Language α) : Prop := ∀ ts ∈ l, ∀ t ∈ ts, p t

theorem AllTokens.one : AllTokens p 1 := by
  intro ts hts t ht
  rw [Language.mem_one] at hts
  simp [hts] at ht

theorem AllTokens.add (hl : AllTokens p l) (hm : AllTokens p m) : AllTokens p (l + m) := by
  intro ts hts
  rcases (Language.mem_add _ _ _).mp hts with h | h
  · exact hl ts h
  · exact hm ts h

theorem AllTokens.mul (hl : AllTokens p l) (hm : AllTokens p m) : AllTokens p (l * m) := by
  intro ts hts t ht
  obtain ⟨a, ha, b, hb, rfl⟩ := Language.mem_mul.mp hts
  rcases List.mem_append.mp ht with h | h
  · exact hl a ha t h
  · exact hm b hb t h

theorem AllTokens.kstar (hl : AllTokens p l) : AllTokens p (l∗) := by
  intro ts hts t ht
  obtain ⟨L, rfl, hL⟩ := Language.mem_kstar.mp hts
  obtain ⟨a, ha, hta⟩ := List.mem_flatten.mp ht
  exact hl a (hL a ha) t hta

theorem AllTokens.opt (hl : AllTokens p l) : AllTokens p (opt l) := .add .one hl

end MyLite.Lib

namespace MyLite.MariaDB

open Computability MyLite.Lib MyLite.Sql MyLite.Policy

/-!
# The replication statements of MariaDB's grammar

The rules `slave` and the log, event, host and status alternatives of `show_param` in
`sql_yacc.yy`, as languages over the tokens the policy sees.  None of them is recursive beyond
a comma-separated list, so each rule is a `Language` written with concatenation `*`, choice
`+`, the empty derivation `1` and repetition `∗`, alternative by alternative.

A terminal is the set of token lists it can be spelled with.  A keyword is one token in any
letter case (`lex.h` gives `SLAVE` and `REPLICA` the same symbol); a string or a quoted name
with a doubled quote inside, a name with a `$` and a number with a point are several tokens.
-/

/-! ### Terminals -/

/-- One token that is one of the keywords. -/
def keyword (names : List String) : Language Text := {ts | ∃ t, ts = [t] ∧ tokenIn t names = true}

/-- `TEXT_STRING_sys`: one string literal; a doubled quote in it starts a further token. -/
def textStringSys : Language Text :=
  {ts | ts ≠ [] ∧ ∃ quote, (quote = byteQuote ∨ quote = byteDoubleQuote) ∧
    ∀ t ∈ ts, t.head? = some quote}

/-- A token that can be a part of a number literal: digits (also `0x1F` and `1e5`), the point,
    an exponent behind a bare point, and the signs. -/
def isNumberToken (t : Text) : Bool :=
  t.head?.any isDigit || t == [byteDot] || t == ascii "+" || t == [byteDash] ||
    (t.head?.any fun b => upperByte b == 0x45) && t.tail.all isDigit

/-- `ulonglong_num`, `ulong_num` and the number alternatives of `limit_option`. -/
def number : Language Text := {ts | ts ≠ [] ∧ ∀ t ∈ ts, isNumberToken t = true}

/-- A token that can be a part of a name: a word, a backtick-quoted piece, or one of the other
    bytes MariaDB takes into a plain identifier. -/
def isNameToken (t : Text) : Bool :=
  isSqlIdentifierToken t || t.head? == some byteBacktick || t == [0x24] ||
    t.length == 1 && t.head?.any (0x80 ≤ ·)

/-- `ident_cli`. -/
def identCli : Language Text := {ts | ts ≠ [] ∧ ∀ t ∈ ts, isNameToken t = true}

/-! ### `slave` -/

/-- `optional_connection_name`. -/
def optionalConnectionName : Language Text := opt textStringSys

/-- `optional_for_channel`. -/
def optionalForChannel : Language Text :=
  opt (keyword ["FOR"] * keyword ["CHANNEL"] * textStringSys)

/-- `slave_thread_opt`, which may be empty also between two commas. -/
def slaveThreadOpt : Language Text :=
  1 + keyword ["SQL_THREAD"] + keyword ["RELAY_THREAD", "IO_THREAD"]

/-- `slave_thread_opts`. -/
def slaveThreadOpts : Language Text := slaveThreadOpt * (keyword [","] * slaveThreadOpt)∗

/-- `bool`. -/
def boolValue : Language Text := number + keyword ["TRUE"] + keyword ["FALSE"]

/-- `master_file_def`. -/
def masterFileDef : Language Text :=
  keyword ["MASTER_LOG_FILE"] * keyword ["="] * textStringSys +
  keyword ["MASTER_LOG_POS"] * keyword ["="] * number +
  keyword ["RELAY_LOG_FILE"] * keyword ["="] * textStringSys +
  keyword ["RELAY_LOG_POS"] * keyword ["="] * number +
  keyword ["MASTER_USE_GTID"] * keyword ["="] *
    keyword ["CURRENT_POS", "SLAVE_POS", "REPLICA_POS", "NO"] +
  keyword ["MASTER_DEMOTE_TO_SLAVE", "MASTER_DEMOTE_TO_REPLICA"] * keyword ["="] * boolValue

/-- `slave_until`. -/
def slaveUntil : Language Text :=
  opt (keyword ["UNTIL"] *
    (masterFileDef * (keyword [","] * masterFileDef)∗ +
      keyword ["MASTER_GTID_POS", "SQL_AFTER_GTIDS", "SQL_BEFORE_GTIDS"] * keyword ["="] *
        textStringSys))

/-- `START SLAVE` with its options. -/
def startSlave : Language Text :=
  keyword ["START"] * (keyword ["SLAVE", "REPLICA"] *
    (optionalConnectionName * slaveThreadOpts * optionalForChannel * slaveUntil))

/-- `STOP SLAVE` with its options. -/
def stopSlave : Language Text :=
  keyword ["STOP"] * (keyword ["SLAVE", "REPLICA"] *
    (optionalConnectionName * slaveThreadOpts * optionalForChannel))

/-- `START ALL SLAVES` and `STOP ALL SLAVES`. -/
def allSlaves : Language Text :=
  keyword ["START", "STOP"] * (keyword ["ALL"] * (keyword ["SLAVES", "REPLICAS"] *
    slaveThreadOpts))

/-- `slave`. -/
def slave : Language Text := startSlave + stopSlave + allSlaves

/-! ### `LIMIT` -/

/-- `limit_option`. -/
def limitOption : Language Text :=
  identCli + identCli * keyword ["."] * identCli + keyword ["?"] + number

/-- `limit_options`. -/
def limitOptions : Language Text :=
  limitOption + limitOption * keyword [","] * limitOption +
    limitOption * keyword ["OFFSET"] * limitOption

/-- `first_or_next`. -/
def firstOrNext : Language Text := keyword ["FIRST", "NEXT"]

/-- `row_or_rows`. -/
def rowOrRows : Language Text := keyword ["ROW", "ROWS"]

/-- `only_or_with_ties`. -/
def onlyOrWithTies : Language Text :=
  keyword ["ONLY"] + keyword ["WITH"] * keyword ["TIES"]

/-- `fetch_first_clause`. -/
def fetchFirstClause : Language Text :=
  keyword ["FETCH"] * firstOrNext * opt limitOption * rowOrRows * onlyOrWithTies +
  keyword ["OFFSET"] * limitOption * rowOrRows * keyword ["FETCH"] * firstOrNext *
    opt limitOption * rowOrRows * onlyOrWithTies +
  keyword ["OFFSET"] * limitOption * rowOrRows

/-- `opt_global_limit_clause`. -/
def optGlobalLimitClause : Language Text :=
  opt (keyword ["LIMIT"] * limitOptions +
    keyword ["LIMIT"] * limitOptions * keyword ["ROWS"] * keyword ["EXAMINED"] * limitOption +
    keyword ["LIMIT"] * keyword ["ROWS"] * keyword ["EXAMINED"] * limitOption +
    fetchFirstClause)

/-! ### `show_param` -/

/-- `binlog_in binlog_from opt_global_limit_clause`. -/
def eventRange : Language Text :=
  opt (keyword ["IN"] * textStringSys) * opt (keyword ["FROM"] * number) * optGlobalLimitClause

/-- `master_or_binary LOGS_SYM`, with the first keyword taken from `names`. -/
def showLogs (names : List String) : Language Text := keyword names * keyword ["LOGS"]

/-- `SLAVE HOSTS_SYM`. -/
def showSlaveHosts : Language Text := keyword ["SLAVE", "REPLICA"] * keyword ["HOSTS"]

/-- `BINLOG_SYM EVENTS_SYM …`. -/
def showBinlogEvents : Language Text := keyword ["BINLOG"] * (keyword ["EVENTS"] * eventRange)

/-- `RELAYLOG_SYM optional_connection_name EVENTS_SYM …`. -/
def showRelaylogEvents : Language Text :=
  keyword ["RELAYLOG"] * (optionalConnectionName * (keyword ["EVENTS"] *
    (eventRange * optionalForChannel)))

/-- `BINLOG_SYM STATUS_SYM`. -/
def showBinlogStatus : Language Text := keyword ["BINLOG"] * keyword ["STATUS"]

/-- `MASTER_SYM STATUS_SYM`. -/
def showMasterStatus : Language Text := keyword ["MASTER"] * keyword ["STATUS"]

/-- `ALL SLAVES STATUS_SYM`. -/
def showAllSlavesStatus : Language Text :=
  keyword ["ALL"] * (keyword ["SLAVES", "REPLICAS"] * keyword ["STATUS"])

/-- `SLAVE optional_connection_name STATUS_SYM optional_for_channel`, with the connection name
    taken from `name`. -/
def showSlaveStatus (name : Language Text) : Language Text :=
  keyword ["SLAVE", "REPLICA"] * (name * (keyword ["STATUS"] * optionalForChannel))

/-- The alternatives of `show_param` for replication logs, events, hosts and status. -/
def showReplicationParam : Language Text :=
  showLogs ["MASTER", "BINARY"] + showSlaveHosts + showBinlogEvents + showRelaylogEvents +
    showBinlogStatus + showMasterStatus + showAllSlavesStatus +
    showSlaveStatus optionalConnectionName

/-- The statements of the family. -/
def replicationFamily : Language Text := slave + keyword ["SHOW"] * showReplicationParam

end MyLite.MariaDB

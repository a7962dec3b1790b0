import MyLite.Sql.Tokenizer

namespace MyLite.MariaDB

open MyLite.Sql List

/-!
# Executable comments

The comments whose content MariaDB executes (`MY_LEX_LONG_COMMENT` in `sql_lex.cc`): `/*!` and
`/*M!`, with a version of five or six digits behind it or not.
-/

/-- `MYSQL_VERSION_ID` of the embedded server. -/
def mysqlVersionId : ℕ := 110806

/-- The number some digits denote. -/
def versionNumber (digits : Text) : ℕ := digits.foldl (fun n b => 10 * n + (b.toNat - 0x30)) 0

/-- A version whose comments are executed: not a later one, and for `/*!` none of those that
    belong to MySQL 5.7 and later. -/
def acceptsVersion (maria : Bool) (digits : Text) : Bool :=
  let version := versionNumber digits
  digits.all isDigit && (digits.length == 5 || digits.length == 6) &&
    decide (version ≤ mysqlVersionId) &&
    (decide (version < 50700) || decide (99999 < version) || maria)

/-- The start of an executable comment. -/
structure Opener where
  maria : Bool
  version : Text
  accepted : version = [] ∨ acceptsVersion maria version = true

namespace Opener

variable (o : Opener) (s : Text)

/-- The bytes of the marker. -/
def bytes : Text :=
  byteSlash :: byteStar :: ((if o.maria then [0x4D] else []) ++ byteBang :: o.version)

theorem all_isDigit_version : ∀ b ∈ o.version, isDigit b = true := by
  rcases o.accepted with h | h
  · rw [h]
    intro b hb
    cases hb
  · unfold acceptsVersion at h
    simp only [Bool.and_eq_true] at h
    exact all_eq_true.mp h.1.1.1

/-- The tokenizer steps over the marker, and over every digit that follows. -/
theorem enterExecutableSqlComment_bytes :
    enterExecutableSqlComment (o.bytes ++ s) = some (s.dropWhile isDigit) := by
  have hdrop : (o.version ++ s).dropWhile isDigit = s.dropWhile isDigit :=
    dropWhile_append_of_pos o.all_isDigit_version
  unfold bytes
  rw [cons_append, cons_append, enterExecutableSqlComment_cons, if_pos ⟨rfl, rfl⟩]
  cases o.maria with
  | false => exact congrArg some hdrop
  | true =>
    rw [if_pos rfl, append_assoc, singleton_append, cons_append, executableBody,
      if_neg (by decide), if_pos ⟨.inl rfl, rfl⟩]
    exact congrArg some hdrop

theorem sqlTokens_bytes : sqlTokens (o.bytes ++ s) = sqlTokens (s.dropWhile isDigit) := by
  refine sqlTokens_congr ?_
  refine skipSqlSpacingAndComments_comment (by decide) ?_
  show skipSqlComment (o.bytes ++ s) = some (s.dropWhile isDigit)
  rw [skipSqlComment, o.enterExecutableSqlComment_bytes]
  rfl

end Opener

/-! ### Token boundaries -/

/-- Between `before` and `after` is a token boundary at which bytes that begin with `c` can be put:
    what the tokenizer reads in front of it does not depend on what follows. -/
def Boundary (c : UInt8) (before after : Text) : Prop :=
  ∀ s, s = after ∨ s.head? = some c → sqlTokens (before ++ s) = sqlTokens before ++ sqlTokens s

/-- A text is a word, possibly empty, and a rest that does not go on with it. -/
theorem exists_word_append (s : Text) : ∃ w m, s = w ++ m ∧
    (∀ b ∈ w, isSqlIdentifierChar b = true) ∧ ∀ b ∈ m.head?, isSqlIdentifierChar b = false := by
  refine ⟨s.takeWhile isSqlIdentifierChar, s.dropWhile isSqlIdentifierChar,
    (takeWhile_append_dropWhile).symm, fun b hb => all_eq_true.mp all_takeWhile b hb, ?_⟩
  intro b hb
  have hnot := List.head?_dropWhile_not isSqlIdentifierChar s
  rw [Option.mem_def.mp hb] at hnot
  simpa using hnot

theorem dropWhile_isDigit_append {w m : Text}
    (hm : ∀ b ∈ m.head?, isSqlIdentifierChar b = false) :
    (w ++ m).dropWhile isDigit = w.dropWhile isDigit ++ m := by
  have hstop : m.dropWhile isDigit = m := by
    cases m with
    | nil => rfl
    | cons b m =>
      refine dropWhile_cons_of_neg ?_
      intro hb
      exact Bool.false_ne_true ((hm b rfl).symm.trans (isSqlIdentifierChar_of_isDigit hb))
  rw [dropWhile_append]
  split_ifs with hempty
  · rw [hstop, isEmpty_iff.mp hempty, nil_append]
  · rfl

/-- Digits at the front of the text do not matter for the boundary at its end. -/
theorem Boundary.dropWhile_isDigit {c : UInt8} (hc : isSqlIdentifierChar c = false)
    {before after : Text} (h : Boundary c before after) {s : Text} (hs : s.head? = some c) :
    sqlTokens (before.dropWhile isDigit ++ s) =
      sqlTokens (before.dropWhile isDigit) ++ sqlTokens s := by
  obtain ⟨w, m, rfl, hw, hm⟩ := exists_word_append before
  have hms : ∀ b ∈ (m ++ s).head?, isSqlIdentifierChar b = false := by
    intro b hb
    cases m with
    | nil =>
      obtain rfl : c = b := Option.some.inj (hs.symm.trans hb)
      exact hc
    | cons d m => exact hm b hb
  -- Behind the word the boundary is there without it.
  have hrest : sqlTokens (m ++ s) = sqlTokens m ++ sqlTokens s := by
    have hwhole := h s (.inr hs)
    by_cases hne : w = []
    · rwa [hne, nil_append] at hwhole
    · rw [append_assoc, sqlTokens_word hne hw hms, sqlTokens_word hne hw hm,
        cons_append] at hwhole
      exact (List.cons.inj hwhole).2
  have hw' : ∀ b ∈ w.dropWhile isDigit, isSqlIdentifierChar b = true := fun b hb =>
    hw b ((dropWhile_suffix isDigit).subset hb)
  rw [dropWhile_isDigit_append hm, append_assoc]
  by_cases hne : w.dropWhile isDigit = []
  · rw [hne, nil_append, nil_append, hrest]
  · rw [sqlTokens_word hne hw' hms, sqlTokens_word hne hw' hm, hrest, cons_append]

/-! ### Wrapped text -/

/-- A way to wrap some consecutive tokens of a text, or none of them, in an executable comment. -/
structure Wrapping where
  opener : Opener
  before : Text
  inside : Text
  after : Text
  /-- The marker stands at a token boundary. -/
  opens : Boundary byteSlash before (inside ++ after)
  /-- So does the end of the comment. -/
  closes : Boundary byteStar inside after

namespace Wrapping

variable (w : Wrapping)

/-- The text without the comment. -/
def plain : Text := w.before ++ (w.inside ++ w.after)

/-- The text with the comment. -/
def wrapped : Text :=
  w.before ++ (w.opener.bytes ++ (w.inside ++ byteStar :: byteSlash :: w.after))

/-- The tokens in front of the end of the comment: those of the text, without the digits that
    follow the marker. -/
def front : List Text := sqlTokens w.before ++ sqlTokens (w.inside.dropWhile isDigit)

/-- The tokens behind the star that ends the comment. -/
def back : List Text := sqlTokens (byteSlash :: w.after)

/-- **Wrapping.** The marker disappears, and the end of the comment becomes two tokens. -/
theorem sqlTokens_wrapped : sqlTokens w.wrapped = w.front ++ [byteStar] :: w.back := by
  have hdigit : (w.inside ++ byteStar :: byteSlash :: w.after).dropWhile isDigit =
      w.inside.dropWhile isDigit ++ byteStar :: byteSlash :: w.after := by
    rw [dropWhile_append]
    split_ifs with hempty
    · rw [isEmpty_iff.mp hempty]
      rfl
    · rfl
  have hstar : sqlTokens (byteStar :: byteSlash :: w.after) = [byteStar] :: w.back :=
    sqlTokens_cons (s := []) (by decide) rfl
  rw [wrapped, w.opens _ (.inr rfl), w.opener.sqlTokens_bytes, hdigit,
    w.closes.dropWhile_isDigit (by decide) rfl, hstar, front, append_assoc]

end Wrapping

end MyLite.MariaDB

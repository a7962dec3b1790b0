import Mathlib.Logic.Relation
import MyLite.Policy.Alike
import MyLite.Policy.Window
import MyLite.Sql.Boundaries
import MyLite.Sql.LetterCase

namespace MyLite.Policy

open MyLite.Lib MyLite.Sql

/-!
# Layout and letter case

A text is laid out anew by putting spacing and comments between two tokens and by writing letters
in the other case.

* `Relayout` — one such change; any number of them is its reflexive transitive closure.
* `Relayout.tokens` — a change leaves the tokens as they are, up to letter case.
* `rejectUnsupportedSqlPolicy_eq_of_relayout` — so the gate decides alike.
-/

/-- What may stand between two tokens. -/
inductive Filler
  /-- A space, a tab or a newline. -/
  | blank (b : UInt8) (isBlank : b ∈ [0x20, 0x09, byteNewline])
  /-- A block comment, not an executable one. -/
  | block (body : Text) (noEnd : ¬[byteStar, byteSlash] <:+: body)
      (notExecutable : ¬[byteBang] <+: body ∧ ¬[0x4D, byteBang] <+: body ∧
        ¬[0x6D, byteBang] <+: body)
  /-- `--` up to the end of its line. -/
  | dash (body : Text) (oneLine : byteNewline ∉ body)
  /-- `#` up to the end of its line. -/
  | hash (body : Text) (oneLine : byteNewline ∉ body)

/-- The bytes of a filler. -/
def Filler.bytes : Filler → Text
  | blank b _ => [b]
  | block body _ _ => byteSlash :: byteStar :: (body ++ [byteStar, byteSlash])
  | dash body _ => byteDash :: byteDash :: (body ++ [byteNewline])
  | hash body _ => byteHash :: (body ++ [byteNewline])

/-- A gap between two tokens: fillers between two spaces. -/
def gap (fillers : List Filler) : Text := 0x20 :: (fillers.flatMap Filler.bytes ++ [0x20])

/-- One change of layout or letter case. -/
inductive Relayout : Text → Text → Prop
  /-- Behind `token`, which is not the last one, a gap is inserted. -/
  | insert {front token rest : Text} (fillers : List Filler)
      (reached : pieceScanner.Reaches (front ++ (token ++ rest)) (token ++ rest))
      (isToken : nextPiece (token ++ rest) = some (.token token, rest))
      (notLast : sqlTokens rest ≠ []) :
      Relayout (front ++ (token ++ rest)) (front ++ (token ++ (gap fillers ++ rest)))
  /-- Letters are written in another case. -/
  | recase {sql sql' : Text} (sameLetters : fold sql = fold sql') : Relayout sql sql'

theorem Filler.skipped (f : Filler) (s : Text) :
    skipSqlSpacingAndComments (f.bytes ++ s) = skipSqlSpacingAndComments s := by
  cases f with
  | blank b isBlank =>
    have hspace : isSqlSpace b = true := by
      simp only [List.mem_cons, List.not_mem_nil, or_false] at isBlank
      rcases isBlank with rfl | rfl | rfl <;> decide
    exact skipSqlSpacingAndComments_space hspace s
  | block body noEnd notExecutable =>
    obtain ⟨hb, hM, hm⟩ := notExecutable
    simpa [Filler.bytes] using skipSqlSpacingAndComments_block noEnd hb hM hm s
  | dash body oneLine => simpa [Filler.bytes] using skipSqlSpacingAndComments_dash oneLine s
  | hash body oneLine => simpa [Filler.bytes] using skipSqlSpacingAndComments_hash oneLine s

theorem sqlTokens_gap (fillers : List Filler) (s : Text) :
    sqlTokens (gap fillers ++ s) = sqlTokens s := by
  refine sqlTokens_congr ?_
  rw [gap, List.cons_append, skipSqlSpacingAndComments_space (by decide), List.append_assoc]
  induction fillers with
  | nil => exact skipSqlSpacingAndComments_space (by decide) s
  | cons f fillers ih =>
    rw [List.flatMap_cons, List.append_assoc, f.skipped]
    exact ih

/-- **One change.** Token by token the texts agree up to letter case. -/
theorem Relayout.tokens {sql sql' : Text} (h : Relayout sql sql') :
    (sqlTokens sql).map fold = (sqlTokens sql').map fold := by
  cases h with
  | @insert front token rest fillers reached isToken notLast =>
    cases rest with
    | nil => exact absurd rfl notLast
    | cons b r =>
      obtain ⟨ks, hks⟩ := reached
      obtain ⟨hold, hnew⟩ := emits_insert hks isToken (by decide : isSqlSpace 0x20 = true)
        (fillers.flatMap Filler.bytes ++ [0x20] ++ b :: r)
      have hgap : sqlTokens (front ++ (token ++ (gap fillers ++ b :: r)))
          = (ks ++ [Piece.token token]).filterMap Piece.token? ++
            sqlTokens (gap fillers ++ b :: r) :=
        sqlTokens_of_emits hnew
      rw [sqlTokens_of_emits hold, hgap, sqlTokens_gap]
  | recase sameLetters => rw [← sqlTokens_fold, ← sqlTokens_fold, sameLetters]

/-- The gate reads the tokens up to letter case. -/
theorem rejectUnsupportedSqlPolicy_eq_of_tokens {sql sql' : Text}
    (h : (sqlTokens sql).map fold = (sqlTokens sql').map fold) (currentSchema : Text) :
    rejectUnsupportedSqlPolicy currentSchema sql =
      rejectUnsupportedSqlPolicy currentSchema sql' := by
  refine policyError_congr_of_fold ?_ currentSchema
  rw [collectSqlPolicyTokens_eq_take, collectSqlPolicyTokens_eq_take]
  refine List.forall₂_take policyTokenLimit ?_
  rw [← List.forall₂_eq_eq_eq, List.forall₂_map_left_iff, List.forall₂_map_right_iff] at h
  exact h

/-- **Layout.** However a text is laid out and spelled, the gate's decision and its diagnostic are
    the same. -/
theorem rejectUnsupportedSqlPolicy_eq_of_relayout {sql sql' : Text}
    (h : Relation.ReflTransGen Relayout sql sql') (currentSchema : Text) :
    rejectUnsupportedSqlPolicy currentSchema sql'
      = rejectUnsupportedSqlPolicy currentSchema sql := by
  have htokens : (sqlTokens sql).map fold = (sqlTokens sql').map fold := by
    induction h with
    | refl => rfl
    | tail _ change ih => exact ih.trans change.tokens
  exact (rejectUnsupportedSqlPolicy_eq_of_tokens htokens currentSchema).symm

/-- `SELECT SLEEP(1)` with a comment behind its function and in lower case. -/
theorem rejectUnsupportedSqlPolicy_relayout_sleep :
    Relation.ReflTransGen Relayout (ascii "SELECT SLEEP(1)") (ascii "select sleep /* */\n (1)") ∧
      rejectUnsupportedSqlPolicy [] (ascii "select sleep /* */\n (1)")
        = rejectUnsupportedSqlPolicy [] (ascii "SELECT SLEEP(1)") := by
  have hinsert : Relayout (ascii "SELECT SLEEP(1)") (ascii "SELECT SLEEP /* */\n (1)") := by
    refine @Relayout.insert (ascii "SELECT ") (ascii "SLEEP") (ascii "(1)")
      [.block [0x20] (by decide) (by decide), .blank byteNewline (by decide)] ?_ rfl (by decide)
    exact ⟨[.token (ascii "SELECT"), .space], .step rfl (.step rfl (.refl _))⟩
  have hchanges : Relation.ReflTransGen Relayout (ascii "SELECT SLEEP(1)")
      (ascii "select sleep /* */\n (1)") :=
    (Relation.ReflTransGen.single hinsert).tail (.recase (by decide))
  exact ⟨hchanges, rejectUnsupportedSqlPolicy_eq_of_relayout hchanges []⟩

end MyLite.Policy

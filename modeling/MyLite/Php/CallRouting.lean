import MyLite.Php.EntryPoints
import MyLite.Policy.Groups
import MyLite.Sql.Boundaries

namespace MyLite.Php

open MyLite.Lib MyLite.Sql MyLite.Policy List

/-!
# How `mysqli` knows a `CALL`

`mylite_prepare` refuses a statement whose first word is `CALL`, so `mysqli` runs such a statement
through `mylite_exec`.  The two recognise the keyword in different ways: `prepare_impl` takes the
first identifier among the collected tokens, whatever stands around it, and
`php_mylite_mysqli_is_call_query` the first four bytes behind white space.

* `FirstWord` — where the first word of a text stands.
* `isCallStatement_iff`, `isCallQuery_iff` — the two recognisers in terms of the text.
* `routes_iff` — they agree exactly where nothing but white space surrounds the keyword.
-/

/-- `prepare_impl` refuses the statement as a `CALL`. -/
def isCallStatement (sql : Text) : Bool :=
  tokenEquals (identifierTokenAt (collectSqlPolicyTokens sql) 0) "CALL"

theorem prepareText_eq (currentSchema sql : Text) :
    prepareText currentSchema sql =
      if rejects currentSchema sql then none else if isCallStatement sql then none else some sql :=
  rfl

/-! ### The first word -/

/-- `word` stands between `front` and `rest`, and is the first word among the collected tokens. -/
structure FirstWord (sql front word rest : Text) : Prop where
  text : front ++ (word ++ rest) = sql
  next : nextPiece (word ++ rest) = some (.token word, rest)
  isWord : isSqlIdentifierToken word = true
  before : ∃ pieces, pieceScanner.Emits sql pieces (word ++ rest) ∧
    (pieces.filterMap Piece.token?).length < policyTokenLimit ∧
    ∀ t ∈ pieces.filterMap Piece.token?, isSqlIdentifierToken t = false

/-- A token is the text up to what stands behind it. -/
theorem token_append {s token r : Text} (h : nextPiece s = some (.token token, r)) :
    token ++ r = s := by
  cases s with
  | nil => cases h
  | cons c rest =>
    rcases nextPiece_cases h with ⟨-, hk, -⟩ | ⟨-, -, hk⟩ | ⟨-, -, rfl, hk⟩
    · cases hk
    · rcases hk with hk | hk <;> cases hk
    · obtain ⟨w, hw⟩ := (sqlTokenEnd_suffix c rest).trans (suffix_cons c rest)
      generalize sqlTokenEnd (c :: rest) = r at hw hk ⊢
      rw [Piece.token.inj hk, ← hw, length_append, Nat.add_sub_cancel, take_left]

variable {sql front word rest : Text}

/-- The first identifier token of a text in which one is known to stand. -/
theorem FirstWord.identifierTokenAt_eq (h : FirstWord sql front word rest) :
    identifierTokenAt (collectSqlPolicyTokens sql) 0 = word := by
  obtain ⟨pieces, hemits, hcount, hnone⟩ := h.before
  have htokens : sqlTokens sql = pieces.filterMap Piece.token? ++ word :: sqlTokens rest := by
    rw [sqlTokens_of_emits hemits, sqlTokens_of_nextPiece h.next]
    rfl
  obtain ⟨n, hn⟩ : ∃ n, policyTokenLimit - (pieces.filterMap Piece.token?).length = n + 1 :=
    ⟨policyTokenLimit - (pieces.filterMap Piece.token?).length - 1, by omega⟩
  rw [collectSqlPolicyTokens_eq_take, htokens, take_append, take_of_length_le hcount.le,
    hn, take_succ_cons, identifierTokenAt_append hnone, identifierTokenAt_cons_zero h.isWord]

/-- A text whose collected tokens have a word has a first one.  The induction is on the text: a
    token that is no word uses up one of the tokens that are collected. -/
theorem exists_word_of_identifierTokenAt {limit : ℕ}
    (h : identifierTokenAt ((sqlTokens sql).take limit) 0 ≠ []) :
    ∃ pieces word rest, pieceScanner.Emits sql pieces (word ++ rest) ∧
      nextPiece (word ++ rest) = some (.token word, rest) ∧ isSqlIdentifierToken word = true ∧
      (pieces.filterMap Piece.token?).length < limit ∧
      ∀ t ∈ pieces.filterMap Piece.token?, isSqlIdentifierToken t = false := by
  induction hn : sql.length using Nat.strongRecOn generalizing sql limit with
  | _ n ih =>
    subst hn
    cases sql with
    | nil => exact absurd (by simp [sqlTokens, identifierTokenAt, identifierTokens]) h
    | cons c s =>
      obtain ⟨piece, r, hnext⟩ := nextPiece_isSome c s
      have hlt : r.length < (c :: s).length := pieceScanner.next_length hnext
      rw [sqlTokens_of_nextPiece hnext] at h
      cases hpiece : piece.token? with
      | none =>
        -- What is no token is passed, and the limit stays.
        rw [hpiece] at h
        obtain ⟨pieces, word, rest, hemits, hword, hisWord, hcount, hnone⟩ := ih _ hlt h rfl
        refine ⟨piece :: pieces, word, rest, .step hnext hemits, hword, hisWord, ?_, ?_⟩
        · rwa [filterMap_cons_none hpiece]
        · rwa [filterMap_cons_none hpiece]
      | some t =>
        obtain rfl : piece = .token t := by
          cases piece with
          | token u => rw [Option.some.inj hpiece]
          | _ => cases hpiece
        obtain ⟨m, rfl⟩ : ∃ m, limit = m + 1 := by
          cases limit with
          | zero => exact absurd rfl h
          | succ m => exact ⟨m, rfl⟩
        have htake : ((Piece.token t).token?.toList ++ sqlTokens r).take (m + 1)
            = t :: (sqlTokens r).take m := rfl
        rw [htake] at h
        by_cases hword : isSqlIdentifierToken t = true
        · refine ⟨[], t, r, ?_, ?_, hword, Nat.succ_pos m, fun t ht => absurd ht not_mem_nil⟩
          · rw [token_append hnext]
            exact .refl _
          · rw [token_append hnext]
            exact hnext
        · rw [Bool.not_eq_true] at hword
          have hskip : identifierTokenAt (t :: (sqlTokens r).take m) 0
              = identifierTokenAt ((sqlTokens r).take m) 0 :=
            @identifierTokenAt_append [t] (by simpa using hword) _ 0
          rw [hskip] at h
          obtain ⟨pieces, word, rest, hemits, hnext', hisWord, hcount, hnone⟩ := ih _ hlt h rfl
          refine ⟨.token t :: pieces, word, rest, .step hnext hemits, hnext', hisWord,
            Nat.succ_lt_succ hcount, ?_⟩
          intro u hu
          rcases mem_cons.mp hu with rfl | hu
          · exact hword
          · exact hnone u hu

theorem isCallStatement_iff : isCallStatement sql = true ↔
    ∃ front word rest, FirstWord sql front word rest ∧ tokenEquals word "CALL" = true := by
  unfold isCallStatement
  constructor
  · intro h
    have hne : identifierTokenAt (collectSqlPolicyTokens sql) 0 ≠ [] := by
      intro hnil
      rw [hnil] at h
      exact absurd h (by decide)
    rw [collectSqlPolicyTokens_eq_take] at hne
    obtain ⟨pieces, word, rest, hemits, hnext, hisWord, hcount, hnone⟩ :=
      exists_word_of_identifierTokenAt hne
    obtain ⟨front, hfront⟩ := hemits.suffix
    have hfirst : FirstWord sql front word rest :=
      ⟨hfront, hnext, hisWord, pieces, hemits, hcount, hnone⟩
    rw [hfirst.identifierTokenAt_eq] at h
    exact ⟨front, word, rest, hfirst, h⟩
  · rintro ⟨front, word, rest, hfirst, hcall⟩
    rwa [hfirst.identifierTokenAt_eq]

/-- Two runs to a first word end at the same place. -/
theorem emits_word_unique {s u v r r' word' : Text} {pieces pieces' : List Piece}
    (h : pieceScanner.Emits s pieces u) (h' : pieceScanner.Emits s pieces' v)
    (hnext : nextPiece u = some (.token word, r)) (hnext' : nextPiece v = some (.token word', r'))
    (hword : isSqlIdentifierToken word = true) (hword' : isSqlIdentifierToken word' = true)
    (hnone : ∀ t ∈ pieces.filterMap Piece.token?, isSqlIdentifierToken t = false)
    (hnone' : ∀ t ∈ pieces'.filterMap Piece.token?, isSqlIdentifierToken t = false) : u = v := by
  -- The word at the end of one run would be among the pieces of a run that goes on.
  have hstop : ∀ {s r : Text} {t : Text} {k : Piece} {ks : List Piece},
      nextPiece s = some (.token t, r) → isSqlIdentifierToken t = true →
      (∃ r', nextPiece s = some (k, r')) →
      ¬∀ t ∈ (k :: ks).filterMap Piece.token?, isSqlIdentifierToken t = false := by
    rintro s r t k ks hs ht ⟨r', hk⟩ hall
    obtain ⟨rfl, -⟩ := Prod.mk.inj (Option.some.inj (hs.symm.trans hk))
    exact Bool.false_ne_true ((hall t mem_cons_self).symm.trans ht)
  induction h generalizing pieces' with
  | refl s =>
    cases h' with
    | refl => rfl
    | step hk _ => exact absurd hnone' (hstop hnext hword ⟨_, hk⟩)
  | step hk hrest ih =>
    cases h' with
    | refl => exact absurd hnone (hstop hnext' hword' ⟨_, hk⟩)
    | step hk' hrest' =>
      obtain ⟨rfl, rfl⟩ := Prod.mk.inj (Option.some.inj (hk.symm.trans hk'))
      refine ih hrest' hnext ?_ ?_
      · exact fun t ht => hnone t (mem_filterMap.mpr <| by
          obtain ⟨piece, hp, hpt⟩ := mem_filterMap.mp ht
          exact ⟨piece, mem_cons_of_mem _ hp, hpt⟩)
      · exact fun t ht => hnone' t (mem_filterMap.mpr <| by
          obtain ⟨piece, hp, hpt⟩ := mem_filterMap.mp ht
          exact ⟨piece, mem_cons_of_mem _ hp, hpt⟩)

theorem FirstWord.unique {front' word' rest' : Text} (h : FirstWord sql front word rest)
    (h' : FirstWord sql front' word' rest') : front = front' ∧ rest = rest' := by
  obtain ⟨pieces, hemits, -, hnone⟩ := h.before
  obtain ⟨pieces', hemits', -, hnone'⟩ := h'.before
  have hat : word ++ rest = word' ++ rest' :=
    emits_word_unique hemits hemits' h.next h'.next h.isWord h'.isWord hnone hnone'
  have hnext := h'.next
  rw [← hat, h.next] at hnext
  obtain ⟨-, rfl⟩ := Prod.mk.inj (Option.some.inj hnext)
  refine ⟨?_, rfl⟩
  have htext := h.text.trans h'.text.symm
  rw [hat] at htext
  exact append_cancel_right htext

/-! ### The four bytes behind white space -/

/-- Nothing or white space stands at the head of a text. -/
def BeginsWithSpace (s : Text) : Prop := ∀ b, s.head? = some b → isSqlSpace b = true

theorem isCallQuery_iff : isCallQuery sql = true ↔
    ∃ front word rest, front ++ (word ++ rest) = sql ∧ (∀ b ∈ front, isSqlSpace b = true) ∧
      tokenEquals word "CALL" = true ∧ BeginsWithSpace rest := by
  have hkeyword : fold (ascii "CALL") = ascii "CALL" := by decide
  have hbehind : ∀ rest : Text, (rest.head?.map isSqlSpace).getD true = true ↔
      BeginsWithSpace rest := by
    intro rest
    cases rest with
    | nil | cons b rest => simp [BeginsWithSpace]
  constructor
  · intro h
    unfold isCallQuery at h
    split at h
    · next c0 c1 c2 c3 rest hdrop =>
      rw [Bool.and_eq_true, beq_iff_eq] at h
      refine ⟨sql.takeWhile isSqlSpace, [c0, c1, c2, c3], rest, ?_, ?_, ?_, (hbehind rest).mp h.2⟩
      · rw [cons_append, cons_append, cons_append, cons_append,
          nil_append, ← hdrop, takeWhile_append_dropWhile]
      · exact fun b hb => mem_takeWhile_imp hb
      · rw [tokenEquals_iff, h.1, hkeyword]
    · cases h
  · rintro ⟨front, word, rest, rfl, hfront, hcall, hrest⟩
    have hfold := tokenEquals_iff.mp hcall
    rw [hkeyword] at hfold
    -- The keyword has four bytes, and they are no white space.
    have hlen : word.length = 4 := by
      rw [← length_fold, hfold]
      decide
    match word, hlen with
    | [c0, c1, c2, c3], _ =>
      have hc0 : isSqlSpace c0 = false := by
        have hchar := isSqlIdentifierChar_of_tokenEquals hcall (by decide) c0 mem_cons_self
        have hstarts := startsToken_of_isSqlIdentifierChar c0 hchar
        simp only [startsToken, Bool.not_eq_true', Bool.or_eq_false_iff] at hstarts
        exact hstarts.1.1.1
      unfold isCallQuery
      rw [dropWhile_append_of_pos hfront, cons_append,
        dropWhile_cons_of_neg (by simp [hc0])]
      show (fold [c0, c1, c2, c3] == ascii "CALL" && _) = true
      rw [hfold, beq_self_eq_true, Bool.true_and]
      exact (hbehind rest).mpr hrest

theorem emits_spaces (h : ∀ b ∈ front, isSqlSpace b = true) (s : Text) :
    pieceScanner.Emits (front ++ s) (front.map fun _ => .space) s := by
  induction front with
  | nil => exact .refl s
  | cons b front ih =>
    refine .step ?_ (ih fun c hc => h c (mem_cons_of_mem _ hc))
    show nextPiece (b :: (front ++ s)) = _
    rw [nextPiece, if_pos (h b mem_cons_self)]

/-- A keyword between white space is the first word. -/
theorem firstWord_of_space (hfront : ∀ b ∈ front, isSqlSpace b = true)
    (hcall : tokenEquals word "CALL" = true) (hrest : BeginsWithSpace rest) :
    FirstWord (front ++ (word ++ rest)) front word rest := by
  have hchars := isSqlIdentifierChar_of_tokenEquals hcall (by decide)
  have hisWord : isSqlIdentifierToken word = true := by
    rw [isSqlIdentifierToken_congr (tokenEquals_iff.mp hcall)]
    decide
  have hspaces : (front.map fun _ => Piece.space).filterMap Piece.token? = [] := by
    rw [filterMap_map]
    exact filterMap_eq_nil_iff.mpr fun _ _ => rfl
  refine ⟨rfl, ?_, hisWord, front.map fun _ => .space, ?_, ?_, ?_⟩
  · cases word with
    | nil => cases hisWord
    | cons c u =>
      have hc := startsToken_of_isSqlIdentifierChar c (hchars c mem_cons_self)
      simp only [startsToken, Bool.not_eq_true', Bool.or_eq_false_iff, beq_eq_false_iff_ne] at hc
      obtain ⟨⟨⟨hspace, hslash⟩, hdash⟩, hhash⟩ := hc
      refine nextPiece_token hspace ?_ ?_
      · exact skipSqlComment_eq_none hhash (fun h => absurd h hdash) (fun h => absurd h hslash)
      · have hdrop : (u ++ rest).dropWhile isSqlIdentifierChar
            = rest.dropWhile isSqlIdentifierChar :=
          dropWhile_append_of_pos fun b hb => hchars b (mem_cons_of_mem _ hb)
        have hstop : rest.dropWhile isSqlIdentifierChar = rest := by
          cases rest with
          | nil => rfl
          | cons b rest =>
            have hb := (noMore_space (hrest b rfl) byteSpace).word
            refine dropWhile_cons_of_neg ?_
            exact fun hword => absurd (hb hword) (by decide)
        have hchar := hchars c mem_cons_self
        simp only [sqlTokenEnd, not_isQuoteByte_of_isSqlIdentifierChar c hchar, hchar, if_true,
          hdrop, hstop, Bool.false_eq_true, if_false]
  · exact emits_spaces hfront _
  · rw [hspaces]
    decide
  · rw [hspaces]
    exact fun t ht => absurd ht not_mem_nil

/-! ### Agreement -/

/-- If the first word is `CALL`, only white space stands in front of it, and white space or
    nothing directly behind it. -/
def CallStandsAlone (sql : Text) : Prop :=
  ∀ front word rest, FirstWord sql front word rest → tokenEquals word "CALL" = true →
    (∀ b ∈ front, isSqlSpace b = true) ∧ BeginsWithSpace rest

/-- **Routing.** `query` runs an accepted statement directly exactly when `mylite_prepare` would
    refuse it as a `CALL`, if and only if the keyword stands alone. -/
theorem routes_iff (currentSchema sql : Text) :
    (rejects currentSchema sql = false →
      (EntryPoint.mysqliQuery.executesDirectly sql = true ↔ isCallStatement sql = true)) ↔
    (rejects currentSchema sql = false → CallStandsAlone sql) := by
  refine imp_congr_right fun _ => ?_
  show (isCallQuery sql = true ↔ isCallStatement sql = true) ↔ _
  constructor
  · intro h front word rest hfirst hcall
    have hquery := h.mpr (isCallStatement_iff.mpr ⟨front, word, rest, hfirst, hcall⟩)
    obtain ⟨front', word', rest', rfl, hfront, hcall', hrest⟩ := isCallQuery_iff.mp hquery
    obtain ⟨rfl, rfl⟩ := hfirst.unique (firstWord_of_space hfront hcall' hrest)
    exact ⟨hfront, hrest⟩
  · intro h
    constructor
    · intro hquery
      obtain ⟨front, word, rest, rfl, hfront, hcall, hrest⟩ := isCallQuery_iff.mp hquery
      exact isCallStatement_iff.mpr
        ⟨front, word, rest, firstWord_of_space hfront hcall hrest, hcall⟩
    · intro hstatement
      obtain ⟨front, word, rest, hfirst, hcall⟩ := isCallStatement_iff.mp hstatement
      obtain ⟨hfront, hrest⟩ := h front word rest hfirst hcall
      exact isCallQuery_iff.mpr ⟨front, word, rest, hfirst.text, hfront, hcall, hrest⟩

/-- A comment in front of the keyword sends a `CALL` to `mylite_prepare`, which refuses it. -/
theorem not_routes_comment :
    rejects [] (ascii "/* c */ CALL p()") = false ∧
      EntryPoint.mysqliQuery.executesDirectly (ascii "/* c */ CALL p()") = false ∧
      isCallStatement (ascii "/* c */ CALL p()") = true ∧
      EntryPoint.mysqliQuery.handedText [] (ascii "/* c */ CALL p()") = none ∧
      EntryPoint.connectionExec.handedText [] (ascii "/* c */ CALL p()")
        = some (ascii "/* c */ CALL p()") := by
  have hgate : rejects [] (ascii "/* c */ CALL p()") = false := by decide
  have hdirect : EntryPoint.mysqliQuery.executesDirectly (ascii "/* c */ CALL p()") = false := by
    decide
  have hcall : isCallStatement (ascii "/* c */ CALL p()") = true := by decide
  have htext : cString (ascii "/* c */ CALL p()") = ascii "/* c */ CALL p()" := by decide
  refine ⟨hgate, hdirect, hcall, ?_, ?_⟩
  · rw [EntryPoint.handedText, hdirect, if_neg Bool.false_ne_true]
    show prepareText [] (ascii "/* c */ CALL p()") = none
    rw [prepareText_eq, hgate, hcall]
    rfl
  · rw [EntryPoint.handedText, EntryPoint.executesDirectly, if_pos rfl]
    show execText [] (ascii "/* c */ CALL p()") = _
    rw [execText, htext, hgate]
    rfl

end MyLite.Php

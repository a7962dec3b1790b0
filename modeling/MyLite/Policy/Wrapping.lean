import MyLite.MariaDB.ExecutableComment
import MyLite.Policy.Alike
import MyLite.Policy.Length

namespace MyLite.Policy

open MyLite.Lib MyLite.Sql MyLite.MariaDB

/-!
# The gate on executable comments

The tokenizer steps over the marker of an executable comment and leaves its end behind as the
tokens `*` and `/`.  Here the gate's rules are asked about a list of tokens with such a star in it.

* `Apart` — the collected tokens in front of the star and behind it.
* `SeenApart` — what the rules find in the two parts: words in the order of both, neighbours in
  one of them.
* `rejects_wrapped_iff` — when a text stays rejected if some of its tokens are wrapped.
-/

/-- `*` as a token. -/
def starToken : Text := [byteStar]

/-- `tokens` are the tokens `front`, a star and the tokens `back`, or only the first where the star
    is not collected. -/
def Apart (front back tokens : List Text) : Prop :=
  tokens = front ++ starToken :: back ∨ tokens = front ∧ back = []

theorem apart_take (front back : List Text) (k : ℕ) :
    Apart (front.take k) (back.take (k - 1 - front.length))
      ((front ++ starToken :: back).take k) := by
  rcases Nat.lt_or_ge front.length k with h | h
  · left
    obtain ⟨m, hm⟩ : ∃ m, k - front.length = m + 1 := ⟨k - front.length - 1, by omega⟩
    have hm' : k - 1 - front.length = m := by omega
    rw [List.take_append, hm, hm', List.take_succ_cons]
  · right
    have hzero : k - 1 - front.length = 0 := by omega
    rw [List.take_append_of_le_length h, hzero]
    exact ⟨rfl, List.take_zero⟩

section

variable {front back tokens : List Text} (h : Apart front back tokens)

/-! ### Words -/

include h in
theorem Apart.identifierTokens_eq : identifierTokens tokens = identifierTokens (front ++ back) := by
  rcases h with rfl | ⟨rfl, rfl⟩
  · have hstar : isSqlIdentifierToken starToken = false := by decide
    simp [identifierTokens, hstar]
  · rw [List.append_nil]

include h in
theorem Apart.identifierTokenAt_eq (k : ℕ) :
    identifierTokenAt tokens k = identifierTokenAt (front ++ back) k := by
  rw [identifierTokenAt, identifierTokenAt, h.identifierTokens_eq]

include h in
theorem Apart.leadingRule_eq : leadingRule tokens = leadingRule (front ++ back) :=
  AllAlike.leadingRule (h.identifierTokens_eq ▸ List.forall₂_same.mpr fun t _ => .refl t)

/-! ### Neighbours -/

include h in
theorem Apart.separated {f : List Text → Bool} (hf : Separates starToken f) (hnil : f [] = false) :
    f tokens = true ↔ f front = true ∨ f back = true := by
  rw [← Bool.or_eq_true]
  rcases h with rfl | ⟨rfl, rfl⟩
  · rw [hf front back]
  · rw [hnil, Bool.or_false]

include h in
theorem Apart.adjacent {p q : Text → Bool} (hp : p starToken = false) (hq : q starToken = false) :
    Adjacent p q tokens ↔ Adjacent p q front ∨ Adjacent p q back := by
  rcases h with rfl | ⟨rfl, rfl⟩
  · exact adjacent_append_cons hp hq
  · have hnil : ¬Adjacent p q [] := not_adjacent_nil
    exact (or_iff_left hnil).symm

include h in
theorem Apart.adjacent3 {p q r : Text → Bool} (hp : p starToken = false)
    (hq : q starToken = false) (hr : r starToken = false) :
    Adjacent3 p q r tokens ↔ Adjacent3 p q r front ∨ Adjacent3 p q r back := by
  rcases h with rfl | ⟨rfl, rfl⟩
  · exact adjacent3_append_cons hp hq hr
  · have hnil : ¬Adjacent3 p q r [] := not_adjacent3_nil
    exact (or_iff_left hnil).symm

end

theorem separates_hasFunctionCall (names : List String)
    (hstar : names.any (identifierTokenEquals starToken) = false) :
    Separates starToken (hasFunctionCall names) :=
  .of_adjacent hasFunctionCall_iff hstar (by decide)

theorem separates_vectorIndex : Separates starToken isUnsupportedVectorIndexStatement := by
  intro x y
  rw [Bool.eq_iff_iff, Bool.or_eq_true, isUnsupportedVectorIndexStatement_iff,
    isUnsupportedVectorIndexStatement_iff, isUnsupportedVectorIndexStatement_iff,
    adjacent_append_cons (by decide) (by decide),
    adjacent3_append_cons (by decide) (by decide) (by decide)]
  tauto

/-- The rules on calls that are asked of every text. -/
def callRule (tokens : SqlPolicyTokens) : Bool :=
  isUnsupportedVectorRuntimeStatement tokens || isUnsupportedXmlSqlFunctionCall tokens ||
    isUnsupportedDynamicColumnFunctionCall tokens

theorem separates_callRule : Separates starToken callRule :=
  .or (.or (.or (separates_hasFunctionCall _ (by decide)) separates_vectorIndex)
    (separates_hasFunctionCall _ (by decide))) (separates_hasFunctionCall _ (by decide))

variable (currentSchema : Text)

theorem separates_serverSurfaceNearby :
    Separates starToken (serverSurfaceNearby currentSchema) := by
  have hblocked : ∀ name ∈ blockedInformationSchemaTables,
      identifierTokenEquals starToken name = false := by decide
  have hqualified : ∀ name ∈ blockedInformationSchemaTables,
      Separates starToken fun tokens => hasInformationSchemaTable tokens name := fun name hmem =>
    .of_adjacent3 hasInformationSchemaTable_iff (by decide) (by decide) (hblocked name hmem)
  have hunqualified : ∀ name ∈ blockedInformationSchemaTables, Separates starToken fun tokens =>
      hasCurrentSchemaTableReference tokens name currentSchema := by
    intro name hmem
    unfold hasCurrentSchemaTableReference
    exact .const_and _
      (.of_adjacent hasUnqualifiedTableReference_iff (by decide) (hblocked name hmem))
  unfold serverSurfaceNearby mentionsInformationSchemaTable
  exact .or (.or (separates_hasFunctionCall _ (by decide))
    (separates_hasFunctionCall _ (by decide)))
    (.or (.any hqualified) (.any hunqualified))

/-- A rule on neighbours finds them in `part`, for a statement with the words of `tokens`. -/
def NeighboursSeen (tokens part : List Text) : Prop :=
  callRule part = true ∨
    tokenEquals (identifierTokenAt tokens 0) "SELECT" = true ∧
      Adjacent3 (tokenEquals · "PROCEDURE") (tokenEquals · "ANALYSE") (tokenEquals · "(") part ∨
    (!(identifierTokenAt tokens 0).isEmpty) = true ∧
      serverSurfaceNearby currentSchema part = true ∨
    tokenIn (identifierTokenAt tokens 0) ["SELECT", "WITH"] = true ∧
      Adjacent (tokenEquals · "INTO") (tokenIn · ["OUTFILE", "DUMPFILE"]) part

theorem neighbourRule_iff_seen (tokens : SqlPolicyTokens) :
    neighbourRule currentSchema tokens = true ↔ NeighboursSeen currentSchema tokens tokens := by
  rw [neighbourRule_eq, nearbyRule, NeighboursSeen, callRule]
  simp only [Bool.or_eq_true, Bool.and_eq_true, isUnsupportedSelectFileStatement_iff,
    isUnsupportedProcedureAnalyseStatement_iff]
  constructor
  · rintro (((((h | h) | h) | h) | h) | h)
    · exact .inr (.inl h)
    · exact .inl (.inl (.inl h))
    · exact .inl (.inl (.inr h))
    · exact .inl (.inr h)
    · exact .inr (.inr (.inl h))
    · exact .inr (.inr (.inr h))
  · rintro (((h | h) | h) | h | h | h)
    · exact .inl (.inl (.inl (.inl (.inr h))))
    · exact .inl (.inl (.inl (.inr h)))
    · exact .inl (.inl (.inr h))
    · exact .inl (.inl (.inl (.inl (.inl h))))
    · exact .inl (.inr h)
    · exact .inr h

theorem serverSurfaceNearby_nil : serverSurfaceNearby currentSchema [] = false := by
  have hunqualified : ∀ name, hasCurrentSchemaTableReference [] name currentSchema = false := by
    intro name
    exact Bool.and_false _
  have hqualified : ∀ name, hasInformationSchemaTable [] name = false := fun _ => rfl
  have hcall : serverSurfaceFunctionCall [] = false := rfl
  simp [serverSurfaceNearby, mentionsInformationSchemaTable, hunqualified, hqualified, hcall]

theorem Apart.neighbourRule_iff {front back tokens : List Text} (h : Apart front back tokens)
    (currentSchema : Text) :
    neighbourRule currentSchema tokens = true ↔
      NeighboursSeen currentSchema (front ++ back) front ∨
        NeighboursSeen currentSchema (front ++ back) back := by
  rw [neighbourRule_iff_seen]
  unfold NeighboursSeen
  rw [h.identifierTokenAt_eq 0, h.separated separates_callRule (by decide),
    h.separated (separates_serverSurfaceNearby currentSchema) (serverSurfaceNearby_nil _),
    h.adjacent3 (by decide) (by decide) (by decide), h.adjacent (by decide) (by decide)]
  simp only [and_or_left]
  exact iff_of_eq (by ac_rfl)

/-! ### Assignments -/

/-- An assignment in front of the star or behind it. -/
def AssignedApart (isName : Text → Bool) (isValue : List Text → Bool) (front back : List Text) :
    Prop :=
  (∃ a n b, front = a ++ n :: equalToken :: b ∧ a ≠ [] ∧ isName n = true ∧
      Qualifies (firstSetAssignmentTokenIndex front) a ∧ isValue (b ++ back) = true) ∨
    ∃ a n b, back = a ++ n :: equalToken :: b ∧ isName n = true ∧
      Qualifies (firstSetAssignmentTokenIndex (front ++ starToken :: back))
        (front ++ starToken :: a) ∧ isValue b = true

/-- A name and its sign stand on one side of the star. -/
theorem split_apart {front back a b : List Text} {n : Text} (hn : n ≠ starToken) :
    front ++ starToken :: back = a ++ n :: equalToken :: b ↔
      (∃ b', front = a ++ n :: equalToken :: b' ∧ b = b' ++ starToken :: back) ∨
        ∃ a', back = a' ++ n :: equalToken :: b ∧ a = front ++ starToken :: a' := by
  constructor
  · intro h
    rcases List.append_eq_append_iff.mp h with ⟨c, rfl, hc⟩ | ⟨c, rfl, hc⟩
    · cases c with
      | nil => exact absurd (List.cons.inj hc).1.symm hn
      | cons s c =>
        obtain ⟨rfl, rfl⟩ := List.cons.inj hc
        exact .inr ⟨c, rfl, rfl⟩
    · match c with
      | [] => exact absurd (List.cons.inj hc).1 hn
      | [m] =>
        have hequal := (List.cons.inj (List.cons.inj hc).2).1
        exact absurd hequal (by decide)
      | m :: e :: c =>
        simp only [List.cons_append, List.cons.injEq] at hc
        obtain ⟨rfl, rfl, rfl⟩ := hc
        exact .inl ⟨c, rfl, rfl⟩
  · rintro (⟨b', rfl, rfl⟩ | ⟨a', rfl, rfl⟩)
    · simp
    · simp

theorem Apart.anyAssigned_iff {front back tokens : List Text} (h : Apart front back tokens)
    {isName : Text → Bool} {isValue : List Text → Bool} (hname : isName starToken = false)
    (hvalue : ∀ x y, isValue (x ++ starToken :: y) = isValue (x ++ y)) :
    anyAssigned isName isValue tokens = true ↔ AssignedApart isName isValue front back := by
  have hne : ∀ {n}, isName n = true → n ≠ starToken := by
    rintro n hn rfl
    exact Bool.false_ne_true (hname.symm.trans hn)
  rw [MyLite.Policy.anyAssigned_iff, AssignedApart]
  rcases h with rfl | ⟨rfl, rfl⟩
  · have hfirst : ∀ {a n b}, a ≠ [] → front = a ++ n :: equalToken :: b →
        firstSetAssignmentTokenIndex front =
          firstSetAssignmentTokenIndex (front ++ starToken :: back) := by
      intro a n b ha hfront
      refine firstSetAssignmentTokenIndex_eq (List.prefix_append _ _) ?_
      have hpos := List.length_pos_of_ne_nil ha
      rw [hfront, List.length_append, List.length_cons, List.length_cons]
      omega
    constructor
    · rintro ⟨a, n, b, hsplit, ha, hn, hq, hb⟩
      rcases (split_apart (hne hn)).mp hsplit with ⟨b', hfront, rfl⟩ | ⟨a', hback, rfl⟩
      · rw [hvalue] at hb
        exact .inl ⟨a, n, b', hfront, ha, hn, (hfirst ha hfront).symm ▸ hq, hb⟩
      · exact .inr ⟨a', n, b, hback, hn, hq, hb⟩
    · rintro (⟨a, n, b, hfront, ha, hn, hq, hb⟩ | ⟨a, n, b, hback, hn, hq, hb⟩)
      · refine ⟨a, n, b ++ starToken :: back, (split_apart (hne hn)).mpr (.inl ⟨b, hfront, rfl⟩),
          ha,
          hn, (hfirst ha hfront) ▸ hq, ?_⟩
        rw [hvalue]
        exact hb
      · exact ⟨front ++ starToken :: a, n, b,
          (split_apart (hne hn)).mpr (.inr ⟨a, hback, rfl⟩), by simp, hn, hq, hb⟩
  · constructor
    · rintro ⟨a, n, b, hsplit, ha, hn, hq, hb⟩
      exact .inl ⟨a, n, b, hsplit, ha, hn, hq, by rwa [List.append_nil]⟩
    · rintro (⟨a, n, b, hsplit, ha, hn, hq, hb⟩ | ⟨a, n, b, hnil, -⟩)
      · rw [List.append_nil] at hb
        exact ⟨a, n, b, hsplit, ha, hn, hq, hb⟩
      · simpa using congrArg List.length hnil

/-- A star in a value is passed over. -/
theorem valueMentionsOracle_star (depth : ℕ) (x y : List Text) :
    valueMentionsOracle depth (x ++ starToken :: y) = valueMentionsOracle depth (x ++ y) := by
  induction x generalizing depth with
  | nil =>
    have hopen : tokenEquals starToken "(" = false := by decide
    have hclose : tokenEquals starToken ")" = false := by decide
    have hcomma : tokenEquals starToken "," = false := by decide
    have hword : tokenContainsSqlModeName starToken "ORACLE" = false := by decide
    rw [List.nil_append, List.nil_append, valueMentionsOracle, hopen, hclose, hcomma, hword]
    simp
  | cons token x ih =>
    rw [List.cons_append, List.cons_append, valueMentionsOracle, valueMentionsOracle, ih, ih, ih]

/-! ### The gate -/

/-- What the rules find in two parts of the collected tokens that a star keeps apart: words in the
    order of both parts, neighbours in one of them, assignments in one of them. -/
def SeenApart (front back : List Text) : Prop :=
  leadingRule (front ++ back) = true ∨
    (NeighboursSeen currentSchema (front ++ back) front ∨
      NeighboursSeen currentSchema (front ++ back) back) ∨
    tokenEquals (identifierTokenAt (front ++ back) 0) "SET" = true ∧
      (AssignedApart (tokenEquals · "SQL_MODE") (valueMentionsOracle 0) front back ∨
        AssignedApart isBlockedVariableToken (fun _ => true) front back)

theorem Apart.rejectsTokens_iff {front back tokens : List Text} (h : Apart front back tokens)
    (currentSchema : Text) :
    rejectsTokens currentSchema tokens = true ↔ SeenApart currentSchema front back := by
  have horacle : anyAssigned (tokenEquals · "SQL_MODE") (valueMentionsOracle 0) tokens = true ↔
      AssignedApart (tokenEquals · "SQL_MODE") (valueMentionsOracle 0) front back :=
    h.anyAssigned_iff (by decide) (valueMentionsOracle_star 0)
  have hblocked : anyAssigned isBlockedVariableToken (fun _ => true) tokens = true ↔
      AssignedApart isBlockedVariableToken (fun _ => true) front back :=
    h.anyAssigned_iff (by decide) (fun _ _ => rfl)
  rw [rejectsTokens_eq, setRule, isUnsupportedOracleSqlModeStatement_eq_anyAssigned,
    setAssigns_eq_anyAssigned, h.leadingRule_eq, h.identifierTokenAt_eq,
    SeenApart]
  simp only [Bool.or_eq_true, Bool.and_eq_true, h.neighbourRule_iff, horacle, hblocked,
    and_or_left, or_assoc]

/-- What some rule looks for stands on one side of the comment's end. -/
def StaysSeen (w : Wrapping) : Prop :=
  SeenApart currentSchema (w.front.take policyTokenLimit)
    (w.back.take (policyTokenLimit - 1 - w.front.length))

/-- **Executable comments.** A rejected text stays rejected with some of its tokens in an executable
    comment exactly when a rule is hit by what stands on one side of the comment's end. -/
theorem rejects_wrapped_iff (currentSchema : Text) (w : Wrapping) :
    (rejects currentSchema w.plain = true → rejects currentSchema w.wrapped = true) ↔
      (rejects currentSchema w.plain = true → StaysSeen currentSchema w) := by
  have hiff : rejects currentSchema w.wrapped = true ↔ StaysSeen currentSchema w := by
    rw [rejects_eq, w.sqlTokens_wrapped]
    exact (apart_take w.front w.back policyTokenLimit).rejectsTokens_iff currentSchema
  rw [hiff]

/-- Behind a word is a token boundary. -/
theorem boundary_selectSleep {c : UInt8} (hc : isSqlIdentifierChar c = false) :
    Boundary c (ascii "SELECT SLEEP") (ascii "(1)") := by
  intro s hs
  have hhead : ∀ b ∈ s.head?, isSqlIdentifierChar b = false := by
    intro b hb
    rcases hs with rfl | hs
    · obtain rfl : 0x28 = b := Option.some.inj hb
      decide
    · obtain rfl : c = b := Option.some.inj (hs.symm.trans hb)
      exact hc
  have hword : ∀ {w : Text}, w.all isSqlIdentifierChar = true →
      ∀ b ∈ w, isSqlIdentifierChar b = true := List.all_eq_true.mp
  have hselect : sqlTokens (ascii "SELECT SLEEP" ++ s) =
      ascii "SELECT" :: sqlTokens (byteSpace :: (ascii "SLEEP" ++ s)) := by
    refine sqlTokens_word (w := ascii "SELECT") (t := byteSpace :: (ascii "SLEEP" ++ s))
      (by decide) (hword (by decide)) ?_
    intro b hb
    obtain rfl : byteSpace = b := Option.some.inj hb
    decide
  have hspace : sqlTokens (byteSpace :: (ascii "SLEEP" ++ s)) = sqlTokens (ascii "SLEEP" ++ s) :=
    sqlTokens_congr (skipSqlSpacingAndComments_space (by decide) _)
  have hplain : sqlTokens (ascii "SELECT SLEEP") = [ascii "SELECT", ascii "SLEEP"] := by decide
  rw [hselect, hspace, sqlTokens_word (by decide) (hword (by decide)) hhead, hplain]
  rfl

/-- An empty comment between the name of a function and its parenthesis. -/
def sleepWrapping : Wrapping where
  opener := ⟨false, [], .inl rfl⟩
  before := ascii "SELECT SLEEP"
  inside := []
  after := ascii "(1)"
  opens := boundary_selectSleep (by decide)
  closes := fun _ _ => rfl

/-- The two tokens of the comment's end stand between a name and its parenthesis. -/
theorem not_rejects_sleepWrapping :
    sleepWrapping.plain = ascii "SELECT SLEEP(1)" ∧
      sleepWrapping.wrapped = ascii "SELECT SLEEP/*!*/(1)" ∧
      rejects [] (ascii "SELECT SLEEP(1)") = true ∧
      rejects [] (ascii "SELECT SLEEP/*!*/(1)") = false := by
  decide

end MyLite.Policy

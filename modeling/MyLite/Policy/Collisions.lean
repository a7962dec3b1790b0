import MyLite.Policy.Tables

namespace MyLite.Policy

open MyLite.Lib MyLite.Sql

/-!
# Neighbours that a rule knows

The rules that look at two or three neighbouring tokens ask for one of five patterns
(`Collides`), and on a query for two more.  None of them looks at what the neighbours are in the
statement, so a name in front of a parenthesis is as good as a call.
-/

/-- The functions that some rule looks for. -/
def blockedFunctions : List String :=
  ["VEC_DISTANCE", "VEC_DISTANCE_COSINE", "VEC_DISTANCE_EUCLIDEAN", "VEC_FROMTEXT",
      "VEC_TOTEXT"] ++
    (["EXTRACTVALUE", "UPDATEXML"] ++
    (["COLUMN_ADD", "COLUMN_CHECK", "COLUMN_CREATE", "COLUMN_DELETE", "COLUMN_EXISTS",
      "COLUMN_GET", "COLUMN_JSON", "COLUMN_LIST"] ++
    (["MASTER_GTID_WAIT", "MASTER_POS_WAIT", "BINLOG_GTID_POS", "WSREP_SYNC_WAIT_UPTO_GTID"] ++
    ["BENCHMARK", "GET_LOCK", "IS_FREE_LOCK", "IS_USED_LOCK", "LOAD_FILE", "RELEASE_ALL_LOCKS",
      "RELEASE_LOCK", "SLEEP", "UUID_SHORT"])))

/-- The name of such a function, plain or in backticks. -/
def isBlockedFunction (token : Text) : Bool := blockedFunctions.any (identifierTokenEquals token)

/-- The patterns the rules on neighbours look for in a statement of any kind. -/
inductive Collides (currentSchema : Text) (tokens : List Text) : Prop
  | call (h : Adjacent isBlockedFunction (tokenEquals · "(") tokens)
  | vectorKey (h : Adjacent (identifierTokenEquals · "VECTOR")
      (fun token => identifierTokenEquals token "KEY" || identifierTokenEquals token "INDEX")
      tokens)
  | vectorColumns (h : Adjacent3 (tokenIn · ["(", ","]) (identifierTokenEquals · "VECTOR")
      (tokenEquals · "(") tokens)
  | qualifiedTable (h : Adjacent3 (identifierTokenEquals · "INFORMATION_SCHEMA")
      (tokenEquals · ".") isBlockedTable tokens)
  | currentTable (hschema : identifierTokenEquals currentSchema "INFORMATION_SCHEMA" = true)
      (h : Adjacent tableReferenceKeyword isBlockedTable tokens)

/-- The two patterns that are looked for in queries only. -/
inductive QueryCollides (tokens : List Text) : Prop
  | analyse (hselect : tokenEquals (identifierTokenAt tokens 0) "SELECT" = true)
      (h : Adjacent3 (tokenEquals · "PROCEDURE") (tokenEquals · "ANALYSE") (tokenEquals · "(")
        tokens)
  | file (hquery : tokenIn (identifierTokenAt tokens 0) ["SELECT", "WITH"] = true)
      (h : Adjacent (tokenEquals · "INTO") (tokenIn · ["OUTFILE", "DUMPFILE"]) tokens)

/-! ### Lists of names -/

theorem hasFunctionCall_append (names names' : List String) (tokens : SqlPolicyTokens) :
    hasFunctionCall (names ++ names') tokens =
      (hasFunctionCall names tokens || hasFunctionCall names' tokens) := by
  rw [Bool.eq_iff_iff, Bool.or_eq_true, hasFunctionCall_iff, hasFunctionCall_iff,
    hasFunctionCall_iff, ← adjacent_or_left]
  simp only [List.any_append]

theorem any_hasInformationSchemaTable_iff {tokens : SqlPolicyTokens} :
    blockedInformationSchemaTables.any (hasInformationSchemaTable tokens) = true ↔
      Adjacent3 (identifierTokenEquals · "INFORMATION_SCHEMA") (tokenEquals · ".") isBlockedTable
        tokens := by
  simp only [List.any_eq_true, hasInformationSchemaTable_iff]
  constructor
  · rintro ⟨name, hmem, a, b, c, habc, ha, hb, hc⟩
    exact ⟨a, b, c, habc, ha, hb, List.any_eq_true.mpr ⟨name, hmem, hc⟩⟩
  · rintro ⟨a, b, c, habc, ha, hb, hc⟩
    obtain ⟨name, hmem, hname⟩ := List.any_eq_true.mp hc
    exact ⟨name, hmem, a, b, c, habc, ha, hb, hname⟩

/-! ### The rules -/

/-- **Neighbours.** On a statement with a word in it the rules on neighbouring tokens fire exactly
    where one of the patterns stands. -/
theorem neighbourRule_iff_collides {tokens : SqlPolicyTokens}
    (hword : (identifierTokenAt tokens 0).isEmpty = false) (currentSchema : Text) :
    neighbourRule currentSchema tokens = true ↔
      Collides currentSchema tokens ∨ QueryCollides tokens := by
  have hcalls : hasFunctionCall blockedFunctions tokens = true ↔
      isUnsupportedVectorSqlFunctionStatement tokens = true ∨
        isUnsupportedXmlSqlFunctionCall tokens = true ∨
        isUnsupportedDynamicColumnFunctionCall tokens = true ∨
        isUnsupportedReplicationFunctionStatement tokens = true ∨
        isUnsupportedServerUtilityFunctionStatement tokens = true := by
    unfold blockedFunctions
    simp only [hasFunctionCall_append, Bool.or_eq_true]
    rfl
  have hcall : hasFunctionCall blockedFunctions tokens = true ↔
      Adjacent isBlockedFunction (tokenEquals · "(") tokens := hasFunctionCall_iff
  unfold neighbourRule isUnsupportedVectorRuntimeStatement serverSurfaceFunctionCall
    mentionsInformationSchemaTable
  simp only [hword, Bool.not_false, Bool.true_and, Bool.or_eq_true,
    isUnsupportedVectorIndexStatement_iff, any_hasInformationSchemaTable_iff,
    any_hasCurrentSchemaTableReference_iff, isUnsupportedProcedureAnalyseStatement_iff,
    isUnsupportedSelectFileStatement_iff]
  constructor
  · rintro ((((h | h | h | h) | h) | h) | ((h | h) | h) | h | h)
    · exact .inr (.analyse h.1 h.2)
    · exact .inl (.call (hcall.mp (hcalls.mpr (.inl h))))
    · exact .inl (.vectorKey h)
    · exact .inl (.vectorColumns h)
    · exact .inl (.call (hcall.mp (hcalls.mpr (.inr (.inl h)))))
    · exact .inl (.call (hcall.mp (hcalls.mpr (.inr (.inr (.inl h))))))
    · exact .inl (.call (hcall.mp (hcalls.mpr (.inr (.inr (.inr (.inl h)))))))
    · exact .inl (.call (hcall.mp (hcalls.mpr (.inr (.inr (.inr (.inr h)))))))
    · exact .inr (.file h.1 h.2)
    · exact .inl (.qualifiedTable h)
    · exact .inl (.currentTable h.1 h.2)
  · rintro ((h | h | h | h | ⟨hs, h⟩) | ⟨hs, h⟩ | ⟨hs, h⟩)
    · rcases hcalls.mp (hcall.mpr h) with h | h | h | h | h
      · exact .inl (.inl (.inl (.inr (.inl h))))
      · exact .inl (.inl (.inr h))
      · exact .inl (.inr h)
      · exact .inr (.inl (.inl (.inl h)))
      · exact .inr (.inl (.inl (.inr h)))
    · exact .inl (.inl (.inl (.inr (.inr (.inl h)))))
    · exact .inl (.inl (.inl (.inr (.inr (.inr h)))))
    · exact .inr (.inr (.inl h))
    · exact .inr (.inr (.inr ⟨hs, h⟩))
    · exact .inl (.inl (.inl (.inl ⟨hs, h⟩)))
    · exact .inr (.inl (.inr ⟨hs, h⟩))

end MyLite.Policy

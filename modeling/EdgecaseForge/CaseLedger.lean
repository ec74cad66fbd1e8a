import EdgecaseForge.CaseRows

namespace EdgecaseForge

open Text Effect Program

section Rows

variable {context : SuiteContext} {key : CaseKey} {input : CaseInput} {expectedCase row : Json}
  {t' : FileTree}

theorem modelOutputError_distinct {source agentRepoSha256 : Sha256.Digest} {error : ProviderError} :
    (modelOutputError key source agentRepoSha256 error).distinct = true := by
  unfold modelOutputError
  refine Json.distinct_object ?_ (by simp [rowHead, untestedFields])
  simp only [rowHead, untestedFields, List.cons_append, List.nil_append, List.map_cons,
    List.map_nil]
  decide

theorem noTestRow_distinct {source agentRepoSha256 : Sha256.Digest} {runDir : Path}
    {artifacts : Str} {findings : Nat} {input : ScanInput} {result : LLMResult} :
    (noTestRow key source agentRepoSha256 runDir artifacts findings
      (accountingFields input result)).distinct = true := by
  unfold noTestRow
  refine Json.distinct_object ?_ (by simp [rowHead, untestedFields, accountingFields])
  simp only [rowHead, untestedFields, accountingFields, List.cons_append, List.nil_append,
    List.map_cons, List.map_nil]
  decide

theorem completedRow_distinct {source agentRepoSha256 : Sha256.Digest} {runDir : Path}
    {test differentialSha256 artifacts : Str} {runs : Executions} {differential : Differential}
    {findings : Nat} {input : ScanInput} {result : LLMResult} :
    (completedRow key source agentRepoSha256 test runDir differentialSha256 artifacts runs
      differential findings (accountingFields input result)).distinct = true := by
  unfold completedRow
  refine Json.distinct_object ?_ (by simp [rowHead, accountingFields])
  simp only [rowHead, accountingFields, List.cons_append, List.nil_append, List.map_cons,
    List.map_nil]
  decide

/-- The texts of a row that the model or its provider chose. -/
def freeTexts (input : CaseInput) : List Str :=
  match input.scan.response with
  | .error (.provider error) =>
    error.message.take 2000 :: (error.modelResponseSha256 ++ error.modelResponseExcerpts ++
      error.accounting.requestIds ++ error.accounting.finishReasons)
  | .ok (_, result) => result.accounting.requestIds ++ result.accounting.finishReasons
  | .error _ => []

/-- The token counts that the provider reported. -/
def reportedUsage (input : CaseInput) : Usage :=
  match input.scan.response with
  | .error (.provider error) => error.accounting.usage
  | .ok (_, result) => result.usage
  | .error _ => {}

/-- What the ledger asks of the texts and numbers that come from outside: no text ends a line
past ASCII, and no token count is negative. -/
structure LedgerSafe (input : CaseInput) : Prop where
  texts : ∀ s ∈ freeTexts input, Json.KeepsLine s
  inputTokens : 0 ≤ (reportedUsage input).inputTokens
  outputTokens : 0 ≤ (reportedUsage input).outputTokens

theorem fileSha256_keepsLine {p : Path} {t : FileTree} {sha256 : Str}
    (h : fileSha256 p t = .ok sha256) : Json.KeepsLine sha256 := by
  obtain ⟨content, -, hs⟩ := Except.bind_eq_ok.mp h
  rw [← Except.ok.inj hs]
  exact digest_keepsLine (Sha256.digest content)

theorem treeSha256_keepsLine {root : Path} {excluded : List Str} {t : FileTree} {sha256 : Str}
    (h : treeSha256 root excluded t = .ok sha256) : Json.KeepsLine sha256 := by
  obtain ⟨stream, -, hs⟩ := Except.bind_eq_ok.mp h
  rw [← Except.ok.inj hs]
  exact digest_keepsLine (Sha256.digest stream)

/-- What the reader and the writer of the ledger rely on in a row. -/
structure LedgerRow (context : SuiteContext) (key : CaseKey) (input : CaseInput) (row : Json) :
    Prop where
  distinct : row.distinct = true
  isObj : row.isObj = true
  version : row.get (lit "evaluation_schema_version") = .str (lit "case-evaluation-v2")
  repetition : row.get (lit "repetition") = .int key.repetition
  caseId : row.get (lit "case_id") = .str key.caseId
  source : ∃ source, sourceHash context key.caseId = .ok source ∧
    row.get (lit "source_sha256") = .str source.text
  lineSafe : row.LineSafe ↔ ∀ s ∈ freeTexts input, Json.KeepsLine s
  shaped : Shaped row ↔
    0 ≤ (reportedUsage input).inputTokens ∧ 0 ≤ (reportedUsage input).outputTokens

theorem differentialNames_ascii (hk : key.caseId ∈ caseIds) (input : CaseInput) :
    Json.KeepsLine (asPosix (differentialNames (runFolder key input))) := by
  have files : (lit "differential").all (fun c => c.val < 0x80) = true ∧
      (lit "differential.json").all (fun c => c.val < 0x80) = true := by decide
  refine asPosix_ascii fun name h => ?_
  rcases List.mem_append.mp h with h | h
  · exact runFolder_ascii hk input name h
  · simp only [List.mem_cons, List.not_mem_nil, or_false] at h
    rcases h with rfl | rfl
    · simpa using List.all_eq_true.mp files.1
    · simpa using List.all_eq_true.mp files.2

theorem CaseRow.ledgerRow (hk : key.caseId ∈ caseIds)
    (h : CaseRow context key input expectedCase row t') : LedgerRow context key input row := by
  have path := asPosix_ascii (runFolder_ascii hk input)
  cases h with
  | modelError error source agent response _ sourced hrow =>
    subst hrow
    refine ⟨modelOutputError_distinct, rfl, ?_, ?_, ?_, ⟨source, sourced, ?_⟩, ?_, ?_⟩
    · simp [modelOutputError, rowHead]
    · simp [modelOutputError, rowHead, List.lookup_cons]
    · simp [modelOutputError, rowHead, List.lookup_cons]
    · simp [modelOutputError, rowHead, List.lookup_cons]
    · rw [modelOutputError_lineSafe hk]
      simp [freeTexts, response, or_imp, forall_and]
    · rw [modelOutputError_shaped, reportedUsage, response]
  | noTest analysis result source agent artifacts accounting before response _ _ sourced hashed
      summarised hrow =>
    rw [reportSummary_payload] at summarised
    cases summarised
    subst hrow
    refine ⟨noTestRow_distinct, rfl, ?_, ?_, ?_, ⟨source, sourced, ?_⟩, ?_, ?_⟩
    · simp [noTestRow, rowHead]
    · simp [noTestRow, rowHead, List.lookup_cons]
    · simp [noTestRow, rowHead, List.lookup_cons]
    · simp [noTestRow, rowHead, List.lookup_cons]
    · refine (noTestRow_lineSafe hk path (treeSha256_keepsLine hashed)).trans ?_
      simp [freeTexts, response, or_imp, forall_and]
    · rw [reportedUsage, response]
      exact noTestRow_shaped
  | tested analysis result agent before scannedTree response scanned run =>
    have summarised := run.summarised
    rw [reportSummary_payload] at summarised
    have hrow := run.row_eq
    rw [← Except.ok.inj summarised] at hrow
    rw [hrow]
    refine ⟨completedRow_distinct, rfl, ?_, ?_, ?_, ⟨run.source, run.sourced, ?_⟩, ?_, ?_⟩
    · simp [completedRow, rowHead]
    · simp [completedRow, rowHead, List.lookup_cons]
    · simp [completedRow, rowHead, List.lookup_cons]
    · simp [completedRow, rowHead, List.lookup_cons]
    · refine (completedRow_lineSafe hk path (differentialNames_ascii hk input)
        (fileSha256_keepsLine run.hashed) (fileSha256_keepsLine run.differentialHashed)
        (treeSha256_keepsLine run.treeHashed)).trans ?_
      simp [freeTexts, response, or_imp, forall_and]
    · rw [reportedUsage, response]
      exact completedRow_shaped

end Rows

end EdgecaseForge

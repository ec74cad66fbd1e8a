import EdgecaseForge.ScanArtifacts

namespace EdgecaseForge

open Text Effect Program

section Run

variable {context : SuiteContext} {key : CaseKey} {input : CaseInput} {expectedCase row report : Json}
  {agentRepoSha256 : Sha256.Digest} {relative : Path} {t t' : FileTree}

/-- The two runs that the evaluation of a test made. -/
def Executed (caseId : Str) (input : CaseInput) (runs : Executions) : Prop :=
  input.clean = .ok runs.clean ∧
    if caseId = cleanControl then runs.mutant = none
    else ∃ mutant, input.mutant = .ok mutant ∧ runs.mutant = some mutant

theorem executeSide_returns {role : String} {evidenceDir : Path} {testSha256 : Str}
    {execution : Except PyError NeutralExecution} {side : NeutralExecution}
    (h : (executeSide role evidenceDir testSha256 execution).Returns t side t') :
    execution = .ok side := by
  obtain ⟨made, _, lifted, h⟩ := returns_bind.mp h
  obtain ⟨_, _, -, h⟩ := returns_bind.mp h
  obtain ⟨rfl, -⟩ := returns_pure.mp h
  exact (returns_lift.mp lifted).1

theorem executeMutant_returns {caseId testSha256 : Str} {evidenceDir : Path}
    {execution : Except PyError NeutralExecution} {side : Option NeutralExecution}
    (h : (executeMutant caseId evidenceDir testSha256 execution).Returns t side t') :
    if caseId = cleanControl then side = none
    else ∃ mutant, execution = .ok mutant ∧ side = some mutant := by
  unfold executeMutant at h
  split at h
  next hc =>
    rw [if_pos hc]
    exact (returns_pure.mp h).1.symm
  next hc =>
    rw [if_neg hc]
    obtain ⟨mutant, _, made, h⟩ := returns_bind.mp h
    exact ⟨mutant, executeSide_returns made, (returns_pure.mp h).1.symm⟩

theorem item_eq_ok {payload value : Json} {name : String} :
    item payload name = .ok value ↔ payload.get? (lit name) = some value := by
  unfold item
  cases payload.get? (lit name) <;> simp

theorem asItems_eq_ok {value : Json} {items : List Json} :
    asItems value = .ok items ↔ value = .list items := by
  cases value <;> simp [asItems]

/-- What the evaluation of a test went through where it returned its row. -/
structure Tested (context : SuiteContext) (key : CaseKey) (input : CaseInput)
    (expectedCase : Json) (agentRepoSha256 : Sha256.Digest) (relative : Path) (report : Json)
    (t : FileTree) (row : Json) (t' : FileTree) where
  testSha256 : Str
  runs : Executions
  findings : List Json
  differentialSha256 : Str
  artifacts : Str
  source : Sha256.Digest
  accounting : Nat × List (String × Json)
  afterClean : FileTree
  afterMutant : FileTree
  hashed : fileSha256 (generatedTestPath (context.suiteDir ++ relative)) t = .ok testSha256
  cleaned : (executeSide "clean" (context.suiteDir ++ relative ++ [lit "differential"]) testSha256
    input.clean).Returns t runs.clean afterClean
  mutated : (executeMutant key.caseId (context.suiteDir ++ relative ++ [lit "differential"])
    testSha256 input.mutant).Returns afterClean runs.mutant afterMutant
  listed : report.get? (lit "findings") = some (.list findings)
  wrote : (writeJsonAtomic
    (context.suiteDir ++ relative ++ [lit "differential"] ++ [lit "differential.json"])
    (differentialPayload (caseDifferential key.caseId runs findings testSha256) runs testSha256
      context.manifestSha256 expectedCase)).Returns afterMutant () t'
  differentialHashed : fileSha256
    (context.suiteDir ++ relative ++ [lit "differential"] ++ [lit "differential.json"]) t' =
    .ok differentialSha256
  treeHashed : treeSha256 (context.suiteDir ++ relative) [] t' = .ok artifacts
  sourced : sourceHash context key.caseId = .ok source
  summarised : reportSummary report = .ok accounting
  row_eq : row = completedRow key source agentRepoSha256 testSha256 relative differentialSha256
    artifacts runs (caseDifferential key.caseId runs findings testSha256) accounting.1 accounting.2

theorem Tested.executed
    (h : Tested context key input expectedCase agentRepoSha256 relative report t row t') :
    Executed key.caseId input h.runs :=
  ⟨executeSide_returns h.cleaned, executeMutant_returns h.mutated⟩

theorem evaluateTest_returns
    (h : (evaluateTest context key input expectedCase agentRepoSha256 relative report).Returns t row
      t') :
    Nonempty (Tested context key input expectedCase agentRepoSha256 relative report t row t') := by
  obtain ⟨testSha256, _, hashed, h⟩ := returns_bind.mp h
  obtain ⟨clean, afterClean, cleaned, h⟩ := returns_bind.mp h
  obtain ⟨mutant, afterMutant, mutated, h⟩ := returns_bind.mp h
  obtain ⟨value, _, listed, h⟩ := returns_bind.mp h
  obtain ⟨findings, _, items, h⟩ := returns_bind.mp h
  obtain ⟨_, _, wrote, h⟩ := returns_bind.mp h
  obtain ⟨differentialSha256, _, differentialHashed, h⟩ := returns_bind.mp h
  obtain ⟨artifacts, _, treeHashed, h⟩ := returns_bind.mp h
  obtain ⟨source, _, sourced, h⟩ := returns_bind.mp h
  obtain ⟨testHash, rfl⟩ := returns_inspect.mp hashed
  obtain ⟨found, rfl⟩ := returns_lift.mp listed
  obtain ⟨isList, rfl⟩ := returns_lift.mp items
  obtain ⟨evidenceHash, rfl⟩ := returns_inspect.mp differentialHashed
  obtain ⟨treeHash, rfl⟩ := returns_inspect.mp treeHashed
  obtain ⟨sourceFound, rfl⟩ := returns_lift.mp sourced
  obtain ⟨completed, rfl⟩ := returns_lift.mp h
  obtain ⟨accounting, summarised, hrow⟩ := Except.bind_eq_ok.mp completed
  cases asItems_eq_ok.mp isList
  exact ⟨⟨testSha256, ⟨clean, mutant⟩, findings, differentialSha256, artifacts, source, accounting,
    afterClean, afterMutant, testHash, cleaned, mutated, item_eq_ok.mp found, wrote, evidenceHash,
    treeHash, sourceFound, summarised, (Except.ok.inj hrow).symm⟩⟩

theorem evaluateNoTest_returns
    (h : (evaluateNoTest context key agentRepoSha256 relative report).Returns t row t') :
    ∃ source artifacts accounting, sourceHash context key.caseId = .ok source ∧
      treeSha256 (context.suiteDir ++ relative) [] t = .ok artifacts ∧
      reportSummary report = .ok accounting ∧ t = t' ∧
      row = noTestRow key source agentRepoSha256 relative artifacts accounting.1 accounting.2 := by
  obtain ⟨source, _, sourced, h⟩ := returns_bind.mp h
  obtain ⟨artifacts, _, hashed, h⟩ := returns_bind.mp h
  obtain ⟨sourceFound, rfl⟩ := returns_lift.mp sourced
  obtain ⟨treeHash, rfl⟩ := returns_inspect.mp hashed
  obtain ⟨evaluated, rfl⟩ := returns_lift.mp h
  obtain ⟨accounting, summarised, hrow⟩ := Except.bind_eq_ok.mp evaluated
  exact ⟨source, artifacts, accounting, sourceFound, treeHash, summarised, rfl,
    (Except.ok.inj hrow).symm⟩

theorem scanFailed_answered {outputRoot : Path} {e : PyError} {after : FileTree}
    {answer : Analysis × LLMResult} (response : input.scan.response = .ok answer)
    (failed : (scan outputRoot key.caseId input.scan).Fails t e after) :
    ¬ (scanFailed context key agentRepoSha256 e).Returns after row t' := by
  intro h
  cases e with
  | provider error =>
    rw [scan_error failed] at response
    cases response
  | _ => cases (returns_lift.mp h).1

/-- The three ways to the row of a case. -/
inductive CaseRow (context : SuiteContext) (key : CaseKey) (input : CaseInput) (expectedCase : Json)
    (row : Json) (t' : FileTree) : Prop
  | modelError (error : ProviderError) (source agentRepoSha256 : Sha256.Digest)
      (response : input.scan.response = .error (.provider error))
      (isModelOutput : error.kind.isModelOutput = true)
      (sourced : sourceHash context key.caseId = .ok source)
      (row_eq : row = modelOutputError key source agentRepoSha256 error)
  | noTest (analysis : Analysis) (result : LLMResult) (source agentRepoSha256 : Sha256.Digest)
      (artifacts : Str) (accounting : Nat × List (String × Json)) (before : FileTree)
      (response : input.scan.response = .ok (analysis, result))
      (scanned : (scan (context.suiteDir ++ caseFolder key) key.caseId input.scan).Returns before
        (context.suiteDir ++ caseFolder key ++ [input.scan.runId.text]) t')
      (generates : analysis.generates = false)
      (sourced : sourceHash context key.caseId = .ok source)
      (hashed : treeSha256 (context.suiteDir ++ (caseFolder key ++ [input.scan.runId.text])) [] t' =
        .ok artifacts)
      (summarised : reportSummary (reportPayload key.caseId input.scan analysis result) =
        .ok accounting)
      (row_eq : row = noTestRow key source agentRepoSha256
        (caseFolder key ++ [input.scan.runId.text]) artifacts accounting.1 accounting.2)
  | tested (analysis : Analysis) (result : LLMResult) (agentRepoSha256 : Sha256.Digest)
      (before scannedTree : FileTree) (response : input.scan.response = .ok (analysis, result))
      (scanned : (scan (context.suiteDir ++ caseFolder key) key.caseId input.scan).Returns before
        (context.suiteDir ++ caseFolder key ++ [input.scan.runId.text]) scannedTree)
      (run : Tested context key input expectedCase agentRepoSha256
        (caseFolder key ++ [input.scan.runId.text])
        (reportPayload key.caseId input.scan analysis result) scannedTree row t')

theorem scanFailed_returns {outputRoot : Path} {e : PyError} {before : FileTree}
    (failed : (scan outputRoot key.caseId input.scan).Fails before e t)
    (h : (scanFailed context key agentRepoSha256 e).Returns t row t') :
    CaseRow context key input expectedCase row t' := by
  cases e with
  | provider error =>
    unfold scanFailed at h
    dsimp only at h
    split at h
    next isModelOutput =>
      obtain ⟨source, _, sourced, h⟩ := returns_bind.mp h
      obtain ⟨sourceFound, rfl⟩ := returns_lift.mp sourced
      obtain ⟨rfl, rfl⟩ := returns_pure.mp h
      exact .modelError error source agentRepoSha256 (scan_error failed) isModelOutput sourceFound rfl
    next => cases (returns_lift.mp h).1
  | _ => cases (returns_lift.mp h).1

/-- Every row comes from one of the three ways, and the tree is the one it leaves. -/
theorem runCase_returns (h : (runCase context key expectedCase input).Returns t row t') :
    CaseRow context key input expectedCase row t' := by
  obtain ⟨agentRepo, _, -, h⟩ := returns_bind.mp h
  obtain ⟨scanned, after, attempted, h⟩ := returns_bind.mp h
  obtain ⟨outcome, state⟩ := returns_attempt.mp attempted
  cases scanned with
  | error e => exact scanFailed_returns ⟨outcome, state⟩ h
  | ok runDir =>
    obtain ⟨analysis, result, response, rfl, ⟨bytes, printed, report⟩, test⟩ :=
      scan_returns ⟨outcome, state⟩
    obtain ⟨payload, _, reading, h⟩ := returns_bind.mp h
    obtain ⟨read, rfl⟩ := returns_inspect.mp reading
    obtain ⟨generated, _, looking, h⟩ := returns_bind.mp h
    obtain ⟨looked, rfl⟩ := returns_inspect.mp looking
    rw [List.append_assoc] at report test
    cases read.symm.trans (printed.readJson (distinct_reportPayload _ _ _ _) report)
    split at h
    next => exact .tested analysis result agentRepo _ after response ⟨outcome, state⟩
              (evaluateTest_returns h).some
    next absent =>
      have generates : analysis.generates = false := by
        by_contra some
        obtain ⟨code, -, stored⟩ := test (by simpa using some)
        have found : generated = true := by
          rw [← Except.ok.inj looked]
          exact FileTree.exists_of_get? stored
        exact absent found
      obtain ⟨source, artifacts, accounting, sourced, hashed, summarised, rfl, hrow⟩ :=
        evaluateNoTest_returns h
      exact .noTest analysis result source agentRepo artifacts accounting _ response
        ⟨outcome, state⟩ generates sourced hashed summarised hrow

end Run

end EdgecaseForge

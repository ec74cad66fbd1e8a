import EdgecaseForge.CaseEvidence
import EdgecaseForge.DifferentialEvidence
import EdgecaseForge.ProgressReader
import EdgecaseForge.ScanReports

namespace EdgecaseForge

open Text Effect

/-- One side of a case, run on a fresh copy of its repository. -/
structure NeutralExecution where
  result : ExecutionResult
  repoBefore : Str
  repoAfter : Str
  testAfter : Str

/-- What the evaluation of a case meets outside of the suite directory. -/
structure CaseInput where
  agentRepoSha256 : Except PyError Sha256.Digest
  scan : ScanInput
  clean : Except PyError NeutralExecution
  mutant : Except PyError NeutralExecution

/-- The frozen values that every case of a suite shares. -/
structure SuiteContext where
  suiteDir : Path
  sourceHashes : Dict Str Sha256.Digest
  manifestSha256 : Str

def cleanControl : Str :=
  lit "C00"

def decimalText (n : Nat) : Str :=
  Json.intText n

/-- `f"run-{repetition:02d}"`. -/
def runName (repetition : Nat) : Str :=
  lit "run-" ++ if repetition < 10 then 0x30 :: decimalText repetition else decimalText repetition

def caseFolder (key : CaseKey) : Path :=
  [lit "agent-runs", runName key.repetition, key.caseId]

/-- `payload[name]`. -/
def item (payload : Json) (name : String) : Except PyError Json :=
  match payload.get? (lit name) with
  | some value => .ok value
  | none => .error (.keyError (lit name))

def asItems : Json → Except PyError (List Json)
  | .list items => .ok items
  | _ => .error .typeError

def sourceHash (context : SuiteContext) (caseId : Str) : Except PyError Sha256.Digest :=
  match context.sourceHashes.get? caseId with
  | some hash => .ok hash
  | none => .error (.keyError caseId)

/-- The entries of a row that every evaluation has first. -/
def rowHead (key : CaseKey) (sourceSha256 agentRepoSha256 : Sha256.Digest) :
    List (String × Json) :=
  [("evaluation_schema_version", .str (lit "case-evaluation-v2")),
    ("repetition", .int key.repetition), ("case_id", .str key.caseId),
    ("source_sha256", .str sourceSha256.text), ("agent_repo_sha256", .str agentRepoSha256.text)]

/-- The entries of a row without an executed test. -/
def untestedFields : List (String × Json) :=
  [("test_generated", .bool false), ("passes_clean", .bool false), ("fails_mutant", .bool false),
    ("candidate_kill", .bool false), ("candidate_nodes", .int 0), ("invalid_nodes", .int 0),
    ("confirmed_kill", .bool false), ("requires_invariant_adjudication", .bool false),
    ("clean_assertion_failure", .bool false), ("clean_assertion_failure_nodes", .int 0)]

def modelOutputError (key : CaseKey) (sourceSha256 agentRepoSha256 : Sha256.Digest)
    (error : ProviderError) : Json :=
  let accounting := error.accounting
  .object (rowHead key sourceSha256 agentRepoSha256 ++
    [("run_directory", .null), ("differential_evidence", .null), ("differential_sha256", .null),
      ("run_artifacts_sha256", .null), ("status", .str (lit "model_output_error")),
      ("reported_findings", .int 0), ("integrity_error_count", .int 0),
      ("invalid_generated_test_count", .int 0), ("evaluator_infrastructure_error_count", .int 0),
      ("error_type", .str (lit error.kind.typeName)), ("error", .str (error.message.take 2000)),
      ("model_response_sha256", texts error.modelResponseSha256),
      ("model_response_excerpts", texts error.modelResponseExcerpts)] ++
    untestedFields ++
    [("input_tokens", .int accounting.usage.inputTokens),
      ("output_tokens", .int accounting.usage.outputTokens),
      ("model_latency_seconds", .float (accounting.latencySeconds.roundTo 4).value),
      ("semantic_attempts", .int accounting.semanticAttempts),
      ("transport_attempts", .int accounting.transportAttempts),
      ("repair_used", .bool accounting.repairUsed),
      ("request_ids", texts accounting.requestIds),
      ("finish_reasons", texts accounting.finishReasons),
      ("runtime_seconds", .float (accounting.latencySeconds.roundTo 4).value),
      ("execution_runtime_seconds", .float Binary64.zero)])

/-- The accounting that a row takes over from the report. -/
def reportNames : List String :=
  ["input_tokens", "output_tokens", "model_latency_seconds", "semantic_attempts",
    "transport_attempts", "repair_used", "request_ids", "finish_reasons", "runtime_seconds"]

def reportFields (report : Json) : Except PyError (List (String × Json)) :=
  reportNames.mapM fun name => (item report name).map fun value => (name, value)

def noTestRow (key : CaseKey) (sourceSha256 agentRepoSha256 : Sha256.Digest) (runDir : Path)
    (artifacts : Str) (findings : Nat) (accounting : List (String × Json)) : Json :=
  .object (rowHead key sourceSha256 agentRepoSha256 ++
    [("run_directory", .str (asPosix runDir)), ("differential_evidence", .null),
      ("differential_sha256", .null), ("run_artifacts_sha256", .str artifacts),
      ("status", .str (lit "completed")), ("reported_findings", .int findings),
      ("integrity_error_count", .int 0), ("invalid_generated_test_count", .int 0),
      ("evaluator_infrastructure_error_count", .int 0)] ++
    untestedFields ++ accounting ++ [("execution_runtime_seconds", .float Binary64.zero)])

/-- The number of findings in a report, and the accounting that goes from it into the row. -/
def reportSummary (report : Json) : Except PyError (Nat × List (String × Json)) := do
  let findings ← item report "findings"
  let findings ← asItems findings
  let accounting ← reportFields report
  pure (findings.length, accounting)

def noTestEvaluation (key : CaseKey) (sourceSha256 agentRepoSha256 : Sha256.Digest)
    (runDir : Path) (artifacts : Str) (report : Json) : Except PyError Json := do
  let (findings, accounting) ← reportSummary report
  pure (noTestRow key sourceSha256 agentRepoSha256 runDir artifacts findings accounting)

def allNodesPass (result : ExecutionResult) : Bool :=
  result.validTestRun && !result.nodes.isEmpty && result.nodes.all PytestNodeResult.passed

def failsMutant (mutant : Option ExecutionResult) : Bool :=
  match mutant with
  | some mutant => mutant.scoreableHarness && mutant.nodes.any PytestNodeResult.assertionFailure
  | none => false

/-- How many of the two runs a property holds of. -/
def countRuns (property : ExecutionResult → Bool) (clean : ExecutionResult)
    (mutant : Option ExecutionResult) : Nat :=
  ([clean] ++ mutant.toList).countP property

def durations (clean : ExecutionResult) (mutant : Option ExecutionResult) : Seconds :=
  (clean.durationSeconds.add ((mutant.map (·.durationSeconds)).getD .zero)).roundTo 4

/-- The two runs of a generated test. -/
structure Executions where
  clean : NeutralExecution
  mutant : Option NeutralExecution

namespace Executions

def cleanResult (runs : Executions) : ExecutionResult :=
  runs.clean.result

def mutantResult (runs : Executions) : Option ExecutionResult :=
  runs.mutant.map (·.result)

/-- Without a mutant the test counts as it was after the clean run. -/
def testAfterMutant (runs : Executions) : Str :=
  (runs.mutant.map (·.testAfter)).getD runs.clean.testAfter

def integrityErrors (runs : Executions) (testSha256 : Str) : List Str :=
  EdgecaseForge.integrityErrors testSha256 [runs.clean.testAfter, runs.testAfterMutant]
    [("clean", some runs.clean.repoBefore, some runs.clean.repoAfter),
      ("mutant", runs.mutant.map (·.repoBefore), runs.mutant.map (·.repoAfter))]

end Executions

/-- The differential of a case, with what its integrity errors make of it. -/
def caseDifferential (caseId : Str) (runs : Executions) (findings : List Json) (testSha256 : Str) :
    Differential :=
  let differential :=
    buildDifferential caseId runs.cleanResult runs.mutantResult findings testSha256
  if runs.integrityErrors testSha256 = [] then differential
  else invalidateDifferential differential (runs.integrityErrors testSha256)

def differentialPayload (differential : Differential) (runs : Executions) (testSha256 : Str)
    (manifestSha256 : Str) (expectedCase : Json) : Json :=
  .object (differential.payload ++
    [("clean_execution", .str (lit "clean/execution.json")),
      ("mutant_execution",
        if runs.mutant.isSome then .str (lit "mutant/execution.json") else .null),
      ("integrity_errors", texts (runs.integrityErrors testSha256)),
      ("benchmark_manifest_sha256", .str manifestSha256), ("expected_case", expectedCase)])

def isInvalidNode (node : NodeRecord) : Bool :=
  node.classification ∈ [.invalid, .unmatched]

def completedRow (key : CaseKey) (sourceSha256 agentRepoSha256 : Sha256.Digest)
    (testSha256 : Str) (runDir : Path) (differentialSha256 artifacts : Str) (runs : Executions)
    (differential : Differential) (findings : Nat) (accounting : List (String × Json)) : Json :=
  .object (rowHead key sourceSha256 agentRepoSha256 ++
    [("test_sha256", .str testSha256), ("run_directory", .str (asPosix runDir)),
      ("differential_evidence",
        .str (asPosix (runDir ++ [lit "differential", lit "differential.json"]))),
      ("differential_sha256", .str differentialSha256), ("run_artifacts_sha256", .str artifacts),
      ("status", .str (lit "completed")), ("reported_findings", .int findings),
      ("integrity_error_count", .int (runs.integrityErrors testSha256).length),
      ("invalid_generated_test_count",
        .int (countRuns (·.invalidGeneratedTest) runs.cleanResult runs.mutantResult)),
      ("evaluator_infrastructure_error_count",
        .int (countRuns (·.evaluatorInfrastructureError) runs.cleanResult runs.mutantResult)),
      ("test_generated", .bool true), ("passes_clean", .bool (allNodesPass runs.cleanResult)),
      ("fails_mutant", .bool (failsMutant runs.mutantResult)),
      ("candidate_kill", .bool differential.caseCandidateKill),
      ("candidate_nodes", .int differential.candidateNodes.length),
      ("invalid_nodes", .int (differential.nodes.countP isInvalidNode)),
      ("confirmed_kill", .bool false),
      ("requires_invariant_adjudication", .bool differential.caseCandidateKill),
      ("clean_assertion_failure", .bool !differential.cleanFalsePositiveNodes.isEmpty),
      ("clean_assertion_failure_nodes", .int differential.cleanFalsePositiveNodes.length)] ++
    accounting ++
    [("execution_runtime_seconds", .float (durations runs.cleanResult runs.mutantResult).value)])

def completedEvaluation (key : CaseKey) (sourceSha256 agentRepoSha256 : Sha256.Digest)
    (testSha256 : Str) (runDir : Path) (differentialSha256 artifacts : Str) (runs : Executions)
    (differential : Differential) (report : Json) : Except PyError Json := do
  let (findings, accounting) ← reportSummary report
  pure (completedRow key sourceSha256 agentRepoSha256 testSha256 runDir differentialSha256 artifacts
    runs differential findings accounting)

/-- One side is run and its evidence is kept. -/
def executeSide (role : String) (evidenceDir : Path) (testSha256 : Str)
    (execution : Except PyError NeutralExecution) : Disk NeutralExecution := do
  let execution ← Program.lift execution
  writeExecutionEvidence role (evidenceDir ++ [lit role]) execution.result
    ⟨execution.repoBefore, execution.repoAfter, testSha256, execution.testAfter⟩
  pure execution

def executeMutant (caseId : Str) (evidenceDir : Path) (testSha256 : Str)
    (execution : Except PyError NeutralExecution) : Disk (Option NeutralExecution) :=
  if caseId = cleanControl then pure none
  else do
    let execution ← executeSide "mutant" evidenceDir testSha256 execution
    pure (some execution)

/-- The evaluation of a case whose scan wrote a test. `relative` is the run below the suite. -/
def evaluateTest (context : SuiteContext) (key : CaseKey) (input : CaseInput)
    (expectedCase : Json) (agentRepoSha256 : Sha256.Digest) (relative : Path) (report : Json) :
    Disk Json := do
  let runDir := context.suiteDir ++ relative
  let evidenceDir := runDir ++ [lit "differential"]
  let testSha256 ← Disk.read (fileSha256 (runDir ++ [lit "generated_tests", testFileName]))
  let clean ← executeSide "clean" evidenceDir testSha256 input.clean
  let mutant ← executeMutant key.caseId evidenceDir testSha256 input.mutant
  let runs : Executions := ⟨clean, mutant⟩
  let findings ← Program.lift (item report "findings")
  let findings ← Program.lift (asItems findings)
  let differential := caseDifferential key.caseId runs findings testSha256
  let differentialPath := evidenceDir ++ [lit "differential.json"]
  writeJsonAtomic differentialPath
    (differentialPayload differential runs testSha256 context.manifestSha256 expectedCase)
  let differentialSha256 ← Disk.read (fileSha256 differentialPath)
  let artifacts ← Disk.read (treeSha256 runDir [])
  let source ← Program.lift (sourceHash context key.caseId)
  Program.lift (completedEvaluation key source agentRepoSha256 testSha256 relative
    differentialSha256 artifacts runs differential report)

def evaluateNoTest (context : SuiteContext) (key : CaseKey) (agentRepoSha256 : Sha256.Digest)
    (relative : Path) (report : Json) : Disk Json := do
  let source ← Program.lift (sourceHash context key.caseId)
  let artifacts ← Disk.read (treeSha256 (context.suiteDir ++ relative) [])
  Program.lift (noTestEvaluation key source agentRepoSha256 relative artifacts report)

/-- The evaluation of a case after its scan. -/
def evaluateScan (context : SuiteContext) (key : CaseKey) (input : CaseInput) (expectedCase : Json)
    (agentRepoSha256 : Sha256.Digest) : Disk Json := do
  let relative := caseFolder key ++ [input.scan.runId.text]
  let runDir := context.suiteDir ++ relative
  let report ← Disk.read (readJson (runDir ++ [lit "report.json"]))
  let generated ← Disk.read fun t =>
    .ok (t.exists_ (runDir ++ [lit "generated_tests", testFileName]))
  if generated then
    evaluateTest context key input expectedCase agentRepoSha256 relative report
  else evaluateNoTest context key agentRepoSha256 relative report

def scanFailed (context : SuiteContext) (key : CaseKey) (agentRepoSha256 : Sha256.Digest)
    (e : PyError) : Disk Json :=
  match e with
  | .provider error =>
    if error.kind.isModelOutput then do
      let source ← Program.lift (sourceHash context key.caseId)
      pure (modelOutputError key source agentRepoSha256 error)
    else Disk.raise (.provider error)
  | e => Disk.raise e

/-- `_run_case`. -/
def runCase (context : SuiteContext) (key : CaseKey) (expectedCase : Json) (input : CaseInput) :
    Disk Json := do
  let agentRepoSha256 ← Program.lift input.agentRepoSha256
  let scanned ← Program.attempt (scan (context.suiteDir ++ caseFolder key) key.caseId input.scan)
  match scanned with
  | .ok _ => evaluateScan context key input expectedCase agentRepoSha256
  | .error e => scanFailed context key agentRepoSha256 e

end EdgecaseForge

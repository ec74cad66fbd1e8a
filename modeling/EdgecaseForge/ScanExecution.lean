import EdgecaseForge.DifferentialNodes
import EdgecaseForge.ScanArtifacts

namespace EdgecaseForge

open Text Effect Program

/-- `execution.executed and execution.exit_code not in {None, 0}`. -/
def ExecutionResult.reproduced (execution : ExecutionResult) : Bool :=
  execution.executed && !(execution.exitCode ∈ [none, some 0])

/-- A finding as the report of a scan that may run its test has it. -/
def Finding.executedPayload (generated reproduced : Bool) (finding : Finding) : Json :=
  .object ([("title", .str finding.title), ("severity", .str finding.severity),
    ("endpoint", .str finding.endpoint), ("claim", .str finding.claim),
    ("evidence", texts finding.evidence),
    ("test_file", .str (if generated then lit "generated_tests/test_generated_baseline.py"
      else finding.testFile)),
    ("test_name", .str finding.testName), ("reproduced", .bool reproduced)] ++
    finding.invariantId.toList.map fun id => ("invariant_id", .str id))

def executedReport (caseId : Str) (input : ScanInput) (analysis : Analysis) (result : LLMResult)
    (execution : ExecutionResult) : Json :=
  .object ([("run_id", .str input.runId.text), ("case_id", .str caseId),
    ("status", .str (lit "completed")), ("summary", .str analysis.summary),
    ("findings", .list (analysis.findings.map
      (Finding.executedPayload analysis.generates execution.reproduced))),
    ("tests_generated", .int (if analysis.generates then 1 else 0)),
    ("tests_executed", .int (if execution.executed then 1 else 0)),
    ("runtime_seconds", .float (input.runtimeSeconds.roundTo 4).value),
    ("input_tokens", .int result.usage.inputTokens),
    ("output_tokens", .int result.usage.outputTokens),
    ("model_latency_seconds", .float (result.latencySeconds.roundTo 4).value),
    ("semantic_attempts", .int result.semanticAttempts),
    ("transport_attempts", .int result.transportAttempts),
    ("repair_used", .bool result.repairUsed),
    ("request_ids", texts result.accounting.requestIds),
    ("finish_reasons", texts result.accounting.finishReasons),
    ("execution", executionPayload execution)] ++ analysis.extension.fields)

/-- `execution.stdout + ("\nSTDERR\n" + execution.stderr if execution.stderr else "")`. -/
def executionLog (execution : ExecutionResult) : Str :=
  execution.stdout ++
    if execution.stderr = [] then [] else lit "\nSTDERR\n" ++ execution.stderr

def executedFiles (extension : ReportExtension) (files : SideFiles) (execution : ExecutionResult) :
    List (String × Str) :=
  [("run-metadata.json", files.metadata)] ++ extension.artifacts files ++
    [("trajectory.jsonl", files.trajectory), ("execution.log", executionLog execution)]

/-- The test is run where there is one and the scan is asked to. `pytest` is what running it does
to the disk and what it reports, given the test and the place of its JUnit file. -/
def runGenerated (execute : Bool) (pytest : Path → Path → Disk ExecutionResult) (runDir : Path)
    (analysis : Analysis) : Disk ExecutionResult :=
  if analysis.generates && execute then
    pytest (runDir ++ [lit "generated_tests", testFileName]) (runDir ++ [lit "execution-junit.xml"])
  else pure notExecuted

/-- `BaselineScanner.scan`. -/
def scanExecuting (execute : Bool) (pytest : Path → Path → Disk ExecutionResult)
    (outputRoot : Path) (caseId : Str) (input : ScanInput) : Disk Path := do
  let runDir := outputRoot ++ [input.runId.text]
  let testsDir := runDir ++ [lit "generated_tests"]
  Disk.mkdir false testsDir
  let (analysis, result) ← Effect.Program.lift input.response
  writeGeneratedTest testsDir analysis
  let execution ← runGenerated execute pytest runDir analysis
  writeJson (runDir ++ [lit "report.json"]) (executedReport caseId input analysis result execution)
  writeSideFiles runDir (executedFiles analysis.extension input.files execution)
  pure runDir

section Report

variable {caseId : Str} {input : ScanInput} {analysis : Analysis} {result : LLMResult}
  {execution : ExecutionResult}

theorem notExecuted_reproduced : notExecuted.reproduced = false := rfl

/-- Without a run the report is that of a scan that is not asked to run its test. -/
theorem executedReport_notExecuted :
    executedReport caseId input analysis result notExecuted =
      reportPayload caseId input analysis result := rfl

@[simp] theorem Finding.distinct_executedPayload (generated reproduced : Bool) (finding : Finding) :
    (finding.executedPayload generated reproduced).distinct = true := by
  unfold Finding.executedPayload
  cases finding.invariantId <;> exact Json.distinct_object (by simp) (by simp)

theorem distinct_executedReport :
    (executedReport caseId input analysis result execution).distinct = true := by
  have findings := Json.distinct_map
    (Finding.distinct_executedPayload analysis.generates execution.reproduced) analysis.findings
  unfold executedReport
  cases analysis.extension with
  | baseline => exact Json.distinct_object (by simp [ReportExtension.fields]) (by simp [findings,
      ReportExtension.fields])
  | contract invariants sha256 =>
    have targets := Json.distinct_map InvariantTarget.distinct_payload invariants
    refine Json.distinct_object (by simp [ReportExtension.fields, contractFields]) ?_
    simp [findings, targets, ReportExtension.fields, contractFields]
  | stateful invariants sha256 signal =>
    have targets := Json.distinct_map InvariantTarget.distinct_payload invariants
    refine Json.distinct_object (by simp [ReportExtension.fields, contractFields]) ?_
    simp [findings, targets, ReportExtension.fields, contractFields]

end Report

section Scan

variable {execute : Bool} {pytest : Path → Path → Disk ExecutionResult} {outputRoot runDir : Path}
  {caseId : Str} {input : ScanInput} {t t' : FileTree}

/-- A scan that is not asked to run its test is the scan of the suite. -/
theorem scanExecuting_false :
    scanExecuting false pytest outputRoot caseId input = scan outputRoot caseId input := by
  unfold scanExecuting scan runGenerated
  simp only [Bool.and_false]
  rfl

/-- The execution that a scan reports. -/
def Ran (execute : Bool) (pytest : Path → Path → Disk ExecutionResult) (runDir : Path)
    (analysis : Analysis) (execution : ExecutionResult) : Prop :=
  ∃ s s', (runGenerated execute pytest runDir analysis).Returns s execution s'

/-- A scan that succeeds leaves the report of the execution that it ran. -/
theorem scanExecuting_returns
    (h : (scanExecuting execute pytest outputRoot caseId input).Returns t runDir t') :
    ∃ analysis result execution, input.response = .ok (analysis, result) ∧
      Ran execute pytest runDir analysis execution ∧
      readJson (reportPath runDir) t' =
        .ok (executedReport caseId input analysis result execution) := by
  obtain ⟨_, made, -, h⟩ := returns_bind.mp h
  obtain ⟨⟨analysis, result⟩, _, answered, h⟩ := returns_bind.mp h
  obtain ⟨response, rfl⟩ := returns_lift.mp answered
  obtain ⟨_, tested, -, h⟩ := returns_bind.mp h
  obtain ⟨execution, after, ran, h⟩ := returns_bind.mp h
  obtain ⟨_, reported, report, h⟩ := returns_bind.mp h
  obtain ⟨_, _, sides, last⟩ := returns_bind.mp h
  obtain ⟨rfl, rfl⟩ := returns_pure.mp last
  obtain ⟨-, bytes, printed, rfl⟩ := writeJson_returns.mp report
  have names : ∀ file ∈ executedFiles analysis.extension input.files execution,
      file.1 ≠ "report.json" := by
    cases analysis.extension <;> simp [executedFiles, ReportExtension.artifacts]
  have kept := sides.keeps (writeSideFiles_keeps
    (q := reportPath (outputRoot ++ [input.runId.text])) fun file hf he => by
      have name : lit "report.json" = lit file.1 := by simpa [reportPath] using he
      exact names file hf (lit_inj.mp name).symm)
  have stored := kept.trans (Dict.get?_set_self _ _ _)
  exact ⟨analysis, result, execution, response, ⟨_, _, ran⟩,
    printed.readJson distinct_executedReport stored⟩

end Scan

section Reproduced

variable {pytest : Path → Path → Disk ExecutionResult} {outputRoot runDir : Path} {caseId : Str}
  {input : ScanInput} {t t' : FileTree} {execution : ExecutionResult}

/-- A node of the run that failed an assertion has the name. -/
def FailsAssertion (execution : ExecutionResult) (name : Str) : Prop :=
  ∃ node ∈ execution.nodes, node.assertionFailure = true ∧ baseTestName node.testName = name

/-- Every finding that a report calls reproduced has a test that failed an assertion. -/
def ReportsReproduced (report : Json) (execution : ExecutionResult) : Prop :=
  ∀ items, report.get (lit "findings") = .list items →
    ∀ item ∈ items, item.get (lit "reproduced") = .bool true →
      FailsAssertion execution (findingBase item)

theorem executedPayload_fields (generated reproduced : Bool) (finding : Finding) :
    (finding.executedPayload generated reproduced).get (lit "reproduced") = .bool reproduced ∧
      findingBase (finding.executedPayload generated reproduced) =
        baseTestName finding.testName := by
  simp [findingBase, findingText, Finding.executedPayload, Json.pyStr, List.lookup_cons]

theorem executedReport_reproduced {analysis : Analysis} {result : LLMResult} :
    ReportsReproduced (executedReport caseId input analysis result execution) execution ↔
      (execution.reproduced = true → ∀ finding ∈ analysis.findings,
        FailsAssertion execution (baseTestName finding.testName)) := by
  have listed : (executedReport caseId input analysis result execution).get (lit "findings") =
      .list (analysis.findings.map
        (Finding.executedPayload analysis.generates execution.reproduced)) := by
    simp [executedReport, List.lookup_cons]
  unfold ReportsReproduced
  rw [listed]
  constructor
  · intro h ran finding hf
    obtain ⟨flag, name⟩ := executedPayload_fields analysis.generates execution.reproduced finding
    have failed := h _ rfl _ (List.mem_map_of_mem hf) (by rw [flag, ran])
    rwa [name] at failed
  · rintro h items hi item hm
    cases hi
    obtain ⟨finding, hf, rfl⟩ := List.mem_map.mp hm
    obtain ⟨flag, name⟩ := executedPayload_fields analysis.generates execution.reproduced finding
    rw [flag, name, Json.bool.injEq]
    exact fun ran => h ran finding hf

/-- The findings of a scan are rightly called reproduced exactly if its run ended with no exit code
or with 0, or a test of every finding failed an assertion. -/
theorem scanExecuting_reproduced
    (h : (scanExecuting true pytest outputRoot caseId input).Returns t runDir t') :
    ∃ analysis result execution report, input.response = .ok (analysis, result) ∧
      Ran true pytest runDir analysis execution ∧ readJson (reportPath runDir) t' = .ok report ∧
      (ReportsReproduced report execution ↔
        (execution.executed = false ∨ execution.exitCode = none ∨ execution.exitCode = some 0 ∨
          ∀ finding ∈ analysis.findings,
            FailsAssertion execution (baseTestName finding.testName))) := by
  obtain ⟨analysis, result, execution, response, ran, report⟩ := scanExecuting_returns h
  refine ⟨analysis, result, execution, _, response, ran, report, ?_⟩
  rw [executedReport_reproduced]
  have flag : execution.reproduced = true ↔ execution.executed = true ∧
      execution.exitCode ≠ none ∧ execution.exitCode ≠ some 0 := by
    simp [ExecutionResult.reproduced]
  rw [flag]
  by_cases executed : execution.executed = true
  · by_cases none : execution.exitCode = none
    · simp [none]
    · by_cases zero : execution.exitCode = some 0
      · simp [zero]
      · simp [executed, none, zero]
  · simp [executed]

end Reproduced

section Example

def twoFindings : Analysis where
  summary := lit "s"
  findings :=
    [⟨lit "t", lit "low", lit "e", lit "c", [], lit "f", lit "test_a", none⟩,
      ⟨lit "t", lit "low", lit "e", lit "c", [], lit "f", lit "test_b", none⟩]
  generatedTestCode := lit "def test_a(): assert False"
  extension := .baseline

def twoFindingsInput : ScanInput where
  runId := firstRunId
  response := .ok (twoFindings,
    { content := .null, provider := lit "p", model := lit "m", latencySeconds := .zero })
  runtimeSeconds := .zero
  files := ⟨[], [], [], []⟩

/-- The test of the first finding fails, and that of the second passes. -/
def halfFailed : ExecutionResult where
  executed := true
  exitCode := some 1
  stdout := []
  stderr := []
  junitXml := lit "x"
  nodes :=
    [{ nodeId := lit "test_a", testName := lit "test_a", outcome := lit "failed"
       failureKind := some (lit "assertion_failure") },
      { nodeId := lit "test_b", testName := lit "test_b", outcome := lit "passed" }]

def twoFindingsScan : Disk Path :=
  scanExecuting true (fun _ _ => pure halfFailed) [lit "runs"] (lit "M01") twoFindingsInput

theorem twoFindingsScan_returns :
    ∃ runDir, twoFindingsScan.Returns Dict.empty runDir (twoFindingsScan Dict.empty).state :=
  exists_returns (by decide +kernel)

theorem scanExecuting_reproduced_returns : ∃ runDir t',
    (scanExecuting true (fun _ _ => pure halfFailed) [lit "runs"] (lit "M01")
      twoFindingsInput).Returns Dict.empty runDir t' ∧
    ∃ report, readJson (reportPath runDir) t' = .ok report := by
  obtain ⟨runDir, h⟩ := twoFindingsScan_returns
  obtain ⟨_, _, _, report, -, -, read, -⟩ := scanExecuting_reproduced h
  exact ⟨runDir, _, h, report, read⟩

/-- A finding whose test passes is called reproduced because another test failed. -/
theorem passed_reproduced : ∃ runDir t' report,
    (scanExecuting true (fun _ _ => pure halfFailed) [lit "runs"] (lit "M01")
      twoFindingsInput).Returns Dict.empty runDir t' ∧
    readJson (reportPath runDir) t' = .ok report ∧ ¬ ReportsReproduced report halfFailed := by
  obtain ⟨runDir, h⟩ := twoFindingsScan_returns
  obtain ⟨analysis, result, execution, response, ⟨s, s', ran⟩, read⟩ := scanExecuting_returns h
  cases response
  obtain ⟨rfl, -⟩ := returns_pure.mp ran
  refine ⟨runDir, _, _, h, read, fun honest => ?_⟩
  obtain ⟨node, hn, failed, name⟩ := executedReport_reproduced.mp honest (by decide)
    ⟨lit "t", lit "low", lit "e", lit "c", [], lit "f", lit "test_b", none⟩ (by simp [twoFindings])
  simp only [halfFailed, List.mem_cons, List.not_mem_nil, or_false] at hn
  rcases hn with rfl | rfl
  · exact absurd name (by decide)
  · exact absurd failed (by decide)

end Example

end EdgecaseForge

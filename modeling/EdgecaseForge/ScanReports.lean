import EdgecaseForge.ExecutionResults
import EdgecaseForge.JsonFiles

namespace EdgecaseForge

open Text

/-- `ContractFinding` adds the identifier of an invariant. -/
structure Finding where
  title : Str
  severity : Str
  endpoint : Str
  claim : Str
  evidence : List Str := []
  testFile : Str
  testName : Str
  invariantId : Option Str := none

structure InvariantTarget where
  invariantId : Str
  endpoint : Str
  category : Str
  invariant : Str
  evidence : List Str
  oracle : Str

def texts (values : List Str) : Json :=
  .list (values.map .str)

def InvariantTarget.payload (target : InvariantTarget) : Json :=
  .object [("invariant_id", .str target.invariantId), ("endpoint", .str target.endpoint),
    ("category", .str target.category), ("invariant", .str target.invariant),
    ("evidence", texts target.evidence), ("oracle", .str target.oracle)]

/-- What the agent adds to the report of a scan. -/
inductive ReportExtension
  | baseline
  | contract (invariants : List InvariantTarget) (repositoryMapSha256 : Str)
  | stateful (invariants : List InvariantTarget) (repositoryMapSha256 : Str)
      (attackTargetSignal : Option Str)

def contractFields (invariants : List InvariantTarget) (repositoryMapSha256 : Str) :
    List (String × Json) :=
  [("invariants", .list (invariants.map InvariantTarget.payload)),
    ("repository_map", .str (lit "repository-map.json")),
    ("repository_map_sha256", .str repositoryMapSha256)]

def ReportExtension.fields : ReportExtension → List (String × Json)
  | .baseline => []
  | .contract invariants sha256 => contractFields invariants sha256
  | .stateful invariants sha256 signal =>
    contractFields invariants sha256 ++
      [("attack_plan", .str (lit "attack-plan.json")), ("attack_target_signal", textOrNull signal)]

structure Analysis where
  summary : Str
  findings : List Finding
  generatedTestCode : Str
  extension : ReportExtension

def testFileName : Str :=
  lit "test_generated_baseline.py"

def Analysis.generates (analysis : Analysis) : Bool :=
  !(strip analysis.generatedTestCode).isEmpty

/-- A finding as the report has it: nothing is reproduced by a scan that runs no test. -/
def Finding.payload (generated : Bool) (finding : Finding) : Json :=
  .object ([("title", .str finding.title), ("severity", .str finding.severity),
    ("endpoint", .str finding.endpoint), ("claim", .str finding.claim),
    ("evidence", texts finding.evidence),
    ("test_file", .str (if generated then lit "generated_tests/test_generated_baseline.py"
      else finding.testFile)),
    ("test_name", .str finding.testName), ("reproduced", .bool false)] ++
    finding.invariantId.toList.map fun id => ("invariant_id", .str id))

/-- The characters of a run identifier: a timestamp and hexadecimal digits. -/
def isNameChar (c : CodePoint) : Bool :=
  (0x30 ≤ c && c ≤ 0x39) || (0x41 ≤ c && c ≤ 0x5A) || (0x61 ≤ c && c ≤ 0x7A) || c == 0x2D

structure RunId where
  text : Str
  nonempty : text ≠ []
  plain : text.all isNameChar = true

def firstRunId : RunId :=
  ⟨lit "20250101T000000Z-00000000", by decide, by decide⟩

/-- The texts of the other files of a run. -/
structure SideFiles where
  metadata : Str
  repositoryMap : Str
  attackPlan : Str
  trajectory : Str

def ReportExtension.artifacts (files : SideFiles) : ReportExtension → List (String × Str)
  | .baseline => []
  | .contract _ _ => [("repository-map.json", files.repositoryMap)]
  | .stateful _ _ _ =>
    [("repository-map.json", files.repositoryMap), ("attack-plan.json", files.attackPlan)]

/-- What a scan meets: its identifier, what the model made of the repository, the time it took
and the files that are kept next to the report. -/
structure ScanInput where
  runId : RunId
  response : Except PyError (Analysis × LLMResult)
  runtimeSeconds : Seconds
  files : SideFiles

def notExecuted : ExecutionResult where
  executed := false
  exitCode := none
  stdout := []
  stderr := []

def reportPayload (caseId : Str) (input : ScanInput) (analysis : Analysis) (result : LLMResult) :
    Json :=
  .object ([("run_id", .str input.runId.text), ("case_id", .str caseId),
    ("status", .str (lit "completed")), ("summary", .str analysis.summary),
    ("findings", .list (analysis.findings.map (Finding.payload analysis.generates))),
    ("tests_generated", .int (if analysis.generates then 1 else 0)), ("tests_executed", .int 0),
    ("runtime_seconds", .float (input.runtimeSeconds.roundTo 4).value),
    ("input_tokens", .int result.usage.inputTokens),
    ("output_tokens", .int result.usage.outputTokens),
    ("model_latency_seconds", .float (result.latencySeconds.roundTo 4).value),
    ("semantic_attempts", .int result.semanticAttempts),
    ("transport_attempts", .int result.transportAttempts),
    ("repair_used", .bool result.repairUsed),
    ("request_ids", texts result.accounting.requestIds),
    ("finish_reasons", texts result.accounting.finishReasons),
    ("execution", executionPayload notExecuted)] ++ analysis.extension.fields)

/-- What the agent keeps next to the report. The log is empty, as no test is run. -/
def sideFiles (extension : ReportExtension) (files : SideFiles) : List (String × Str) :=
  [("run-metadata.json", files.metadata)] ++ extension.artifacts files ++
    [("trajectory.jsonl", files.trajectory), ("execution.log", [])]

def writeSideFiles (runDir : Path) : List (String × Str) → Disk Unit
  | [] => pure ()
  | (name, content) :: files => do
    Disk.writeText (runDir ++ [lit name]) content
    writeSideFiles runDir files

def writeGeneratedTest (testsDir : Path) (analysis : Analysis) : Disk Unit :=
  if analysis.generates then Disk.writeText (testsDir ++ [testFileName]) analysis.generatedTestCode
  else pure ()

/-- `BaselineScanner._write_json`. -/
def writeJson (p : Path) (payload : Json) : Disk Unit := do
  let s ← Effect.Program.lift (jsonDumps Json.indented payload)
  Disk.writeText p (s ++ [lineFeed])

/-- `scanner.scan(..., execute=False)`. -/
def scan (outputRoot : Path) (caseId : Str) (input : ScanInput) : Disk Path := do
  let runDir := outputRoot ++ [input.runId.text]
  let testsDir := runDir ++ [lit "generated_tests"]
  Disk.mkdir false testsDir
  let (analysis, result) ← Effect.Program.lift input.response
  writeGeneratedTest testsDir analysis
  writeJson (runDir ++ [lit "report.json"]) (reportPayload caseId input analysis result)
  writeSideFiles runDir (sideFiles analysis.extension input.files)
  pure runDir

end EdgecaseForge

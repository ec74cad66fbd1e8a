import EdgecaseForge.FrozenBenchmark
import EdgecaseForge.LedgerRoundTrip
import EdgecaseForge.SuiteSummaries

namespace EdgecaseForge

open Text Effect Binary64

/-- A call of `run_flashcart_suite`, with what it meets outside of the suite directory. -/
structure SuiteCall where
  outputRoot : Path
  repetitions : Int
  requestDelaySeconds : Double
  resumeDir : Option Path
  caseIds : Option (List Str)
  executionBackend : Str
  agent : Str
  providerName : Str
  providerModel : Str
  startedAt : Str
  occurredAt : Str
  runnerImage : Except PyError Unit
  preflight : Except PyError Preflight
  installation : Installation
  inputs : CaseKey → CaseInput
  sleep : Except PyError Unit
  /-- The parts of the configuration are dictionaries or decoded from texts. -/
  installed : installation.provider.distinct ∧ installation.agent.distinct ∧
    installation.artifactHashes.distinct ∧ installation.runtimeVersions.distinct ∧
    installation.gitState.distinct

section Start

def knownAgents : List Str :=
  [lit "baseline", lit "contract", lit "stateful"]

/-- `ensure_runner_image`, where the tests are to run in containers. -/
def prepareRunner (call : SuiteCall) : Except PyError Unit :=
  if call.executionBackend = lit "docker" then call.runnerImage else .ok ()

/-- The checks before anything is read or written. -/
def checkCall (call : SuiteCall) : Except PyError (List Str) := do
  let selected ← validateCases call.caseIds
  Except.check (1 ≤ call.repetitions) (.valueError (lit "repetitions must be at least 1"))
  Except.check (!call.requestDelaySeconds.isNegative)
    (.valueError (lit "request_delay_seconds cannot be negative"))
  Except.check (call.executionBackend ∈ [lit "local", lit "docker"])
    (.valueError (lit "execution_backend must be 'local' or 'docker'"))
  Except.check (call.agent ∈ knownAgents)
    (.valueError (lit "agent must be 'baseline', 'contract', or 'stateful'"))
  prepareRunner call
  pure selected

/-- The configuration file of a suite. -/
def suiteConfig (suiteId frozen : Json) : Json :=
  .object [("config_schema_version", .str (lit "suite-config-v2")), ("suite_id", suiteId),
    ("frozen", frozen)]

/-- A suite that is under way, and the name of the event that it begins with. -/
structure OpenSuite where
  suiteDir : Path
  suiteId : Json
  event : String

def freshDir (call : SuiteCall) : Path :=
  call.outputRoot ++ [call.startedAt]

def startSuite (call : SuiteCall) (frozen : Json) : Disk OpenSuite := do
  Disk.mkdir false (freshDir call)
  writeJsonAtomic (configPath (freshDir call)) (suiteConfig (.str call.startedAt) frozen)
  pure ⟨freshDir call, .str call.startedAt, "suite_started"⟩

/-- The configuration of a suite that is resumed has to be the frozen one. -/
def resumedId (suiteDir : Path) (frozen : Json) (t : FileTree) : Except PyError Json := do
  let config ← readJson (configPath suiteDir) t
  let version ← dictGet config "config_schema_version" .null
  Except.check (version.pyEq (.str (lit "suite-config-v2")))
    (.valueError (lit "Resume suite uses an unsupported configuration schema"))
  let suiteId ← subscript config "suite_id"
  let written ← dictGet config "frozen" .null
  Except.check (written.pyEq frozen)
    (.valueError (lit "Resume configuration or frozen benchmark fingerprint does not match"))
  pure suiteId

def resumeSuite (suiteDir : Path) (frozen : Json) : Disk OpenSuite := do
  let suiteId ← Disk.read (resumedId suiteDir frozen)
  pure ⟨suiteDir, suiteId, "suite_resumed"⟩

def openSuite (call : SuiteCall) (frozen : Json) : Disk OpenSuite :=
  match call.resumeDir with
  | none => startSuite call frozen
  | some suiteDir => resumeSuite suiteDir frozen

def eventsPath (suiteDir : Path) : Path :=
  suiteDir ++ [lit "suite-events.jsonl"]

def eventPayload (event : String) (call : SuiteCall) (completed : Nat) : Json :=
  .object [("event", .str (lit event)), ("occurred_at", .str call.occurredAt),
    ("request_delay_seconds", .float call.requestDelaySeconds),
    ("completed_evaluations", .int completed)]

end Start

section Loop

/-- What the loop over the cases is given. -/
structure SuitePlan where
  context : SuiteContext
  manifest : Json
  settings : SummarySettings
  inputs : CaseKey → CaseInput
  pause : Except PyError Unit

/-- One pair: its case is evaluated, its row appended and the summary rewritten. -/
def evaluatePair (k : DigitTable) (plan : SuitePlan) (rows : List Json) (key : CaseKey) :
    Disk (List Json) := do
  let expected ← Program.lift (expectedCase plan.manifest key.caseId)
  Program.mark (.evaluating key.repetition key.caseId)
  let row ← runCase plan.context key expected (plan.inputs key)
  appendJsonl (ledgerPath plan.context.suiteDir) row
  writeSummary k plan.context.suiteDir plan.settings (rows ++ [row])
  Program.lift plan.pause
  pure (rows ++ [row])

/-- The pairs that are not completed, in the order of the schedule. -/
def evaluatePairs (k : DigitTable) (plan : SuitePlan) (completed : List (Option CaseKey)) :
    List Json → List CaseKey → Disk (List Json)
  | rows, [] => pure rows
  | rows, key :: keys =>
    if completed.contains (some key) then evaluatePairs k plan completed rows keys
    else do
      let rows ← evaluatePair k plan rows key
      evaluatePairs k plan completed rows keys

end Loop

def planOf (call : SuiteCall) (preflight : Preflight) (selectedCases : List Str)
    (suite : OpenSuite) : SuitePlan where
  context :=
    { suiteDir := suite.suiteDir
      sourceHashes := preflight.sourceHashes
      manifestSha256 := preflight.manifestSha256 }
  manifest := preflight.manifest
  settings :=
    { suiteId := suite.suiteId
      providerName := call.providerName
      providerModel := call.providerModel
      agentConfig := call.installation.agent
      repetitions := call.repetitions.toNat
      selectedCases := selectedCases }
  inputs := call.inputs
  pause := if call.requestDelaySeconds.isZero then .ok () else call.sleep

def SuitePlan.progress (plan : SuitePlan) : ProgressContext :=
  plan.context.progress plan.settings.repetitions plan.settings.selectedCases

def SuitePlan.schedule (plan : SuitePlan) : List CaseKey :=
  EdgecaseForge.schedule plan.settings.repetitions plan.settings.selectedCases

/-- The part of `run_flashcart_suite` that reads the ledger and goes on from it. -/
def continueSuite (k : DigitTable) (call : SuiteCall) (event : String) (plan : SuitePlan) :
    Disk Path := do
  let rows ← Disk.read (readProgress plan.progress (ledgerPath plan.context.suiteDir))
  appendJsonl (eventsPath plan.context.suiteDir) (eventPayload event call rows.length)
  let completed ← Program.lift (rows.mapM (observedPair plan.schedule))
  let _ ← evaluatePairs k plan completed rows plan.schedule
  pure plan.context.suiteDir

/-- `run_flashcart_suite`. -/
def runFlashcartSuite (k : DigitTable) (call : SuiteCall) : Disk Path := do
  let selectedCases ← Program.lift (checkCall call)
  let preflight ← Program.lift call.preflight
  let frozen ← Program.lift (frozenConfig preflight call.installation call.repetitions.toNat
    selectedCases call.executionBackend)
  let suite ← openSuite call frozen
  continueSuite k call suite.event (planOf call preflight selectedCases suite)

end EdgecaseForge

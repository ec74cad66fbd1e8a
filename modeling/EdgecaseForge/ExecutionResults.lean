import EdgecaseForge.ProviderErrors

namespace EdgecaseForge

open Text

def textOrNull : Option Str → Json
  | some s => .str s
  | none => .null

structure PytestNodeResult where
  nodeId : Str
  testName : Str
  outcome : Str
  failureKind : Option Str := none
  message : Str := []
  durationSeconds : Double := Binary64.zero

namespace PytestNodeResult

def passed (node : PytestNodeResult) : Bool :=
  node.outcome == lit "passed"

def assertionFailure (node : PytestNodeResult) : Bool :=
  node.failureKind == some (lit "assertion_failure")

def eligibleForDifferential (node : PytestNodeResult) : Bool :=
  node.passed || node.assertionFailure

def payload (node : PytestNodeResult) : Json :=
  .object [("node_id", .str node.nodeId), ("test_name", .str node.testName),
    ("outcome", .str node.outcome), ("failure_kind", textOrNull node.failureKind),
    ("message", .str node.message), ("duration_seconds", .float node.durationSeconds),
    ("eligible_for_differential", .bool node.eligibleForDifferential)]

end PytestNodeResult

structure ExecutionResult where
  executed : Bool
  exitCode : Option Int
  stdout : Str
  stderr : Str
  timedOut : Bool := false
  durationSeconds : Seconds := .zero
  startedAt : Option Str := none
  timeoutSeconds : Option Int := none
  command : List Str := []
  nodes : List PytestNodeResult := []
  junitXml : Str := []

inductive HarnessStatus
  | notExecuted
  | timeout
  | interrupted
  | internalError
  | usageError
  | noTests
  | spawnError
  | junitError
  | completeWithNodeErrors
  | complete
  deriving DecidableEq

def HarnessStatus.text : HarnessStatus → String
  | .notExecuted => "not_executed"
  | .timeout => "timeout"
  | .interrupted => "interrupted"
  | .internalError => "internal_error"
  | .usageError => "usage_error"
  | .noTests => "no_tests"
  | .spawnError => "spawn_error"
  | .junitError => "junit_error"
  | .completeWithNodeErrors => "complete_with_node_errors"
  | .complete => "complete"

namespace ExecutionResult

def harnessStatus (result : ExecutionResult) : HarnessStatus :=
  if !result.executed then .notExecuted
  else if result.timedOut then .timeout
  else if result.exitCode = some 2 then .interrupted
  else if result.exitCode = some 3 then .internalError
  else if result.exitCode = some 4 then .usageError
  else if result.exitCode = some 5 then .noTests
  else if result.exitCode ≠ some 0 ∧ result.exitCode ≠ some 1 then .spawnError
  else if result.junitXml = [] ∨ result.nodes.isEmpty then .junitError
  else if result.nodes.any fun node => node.outcome == lit "error" then .completeWithNodeErrors
  else .complete

def validTestRun (result : ExecutionResult) : Bool :=
  result.harnessStatus ∈ [.complete, .completeWithNodeErrors]

def scoreableHarness (result : ExecutionResult) : Bool :=
  result.harnessStatus = .complete

def invalidGeneratedTest (result : ExecutionResult) : Bool :=
  result.harnessStatus ∈ [.timeout, .interrupted, .noTests, .completeWithNodeErrors]

def evaluatorInfrastructureError (result : ExecutionResult) : Bool :=
  result.harnessStatus ∈ [.notExecuted, .internalError, .usageError, .spawnError, .junitError]

def intOrNull : Option Int → Json
  | some n => .int n
  | none => .null

/-- `execution_payload`, with the entries that the evidence file replaces. -/
def payload (result : ExecutionResult) (stdout stderr : Json) (command : List Str) :
    List (String × Json) :=
  [("executed", .bool result.executed), ("exit_code", intOrNull result.exitCode),
    ("stdout", stdout), ("stderr", stderr), ("timed_out", .bool result.timedOut),
    ("duration_seconds", .float result.durationSeconds.value),
    ("started_at", textOrNull result.startedAt),
    ("timeout_seconds", intOrNull result.timeoutSeconds),
    ("command", .list (command.map .str)), ("valid_test_run", .bool result.validTestRun),
    ("scoreable_harness", .bool result.scoreableHarness),
    ("harness_status", .str (lit result.harnessStatus.text)),
    ("invalid_generated_test", .bool result.invalidGeneratedTest),
    ("evaluator_infrastructure_error", .bool result.evaluatorInfrastructureError),
    ("nodes", .list (result.nodes.map PytestNodeResult.payload))]

end ExecutionResult

/-- `execution_payload`. -/
def executionPayload (result : ExecutionResult) : Json :=
  .object (result.payload (.str result.stdout) (.str result.stderr) result.command)

end EdgecaseForge

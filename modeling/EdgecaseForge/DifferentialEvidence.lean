import EdgecaseForge.DictCore
import EdgecaseForge.ExecutionResults
import EdgecaseForge.JsonRepr

namespace EdgecaseForge

open Text

inductive MappingStatus
  | mapped
  | ambiguous
  | unmapped
  deriving DecidableEq

def MappingStatus.text : MappingStatus → String
  | .mapped => "mapped"
  | .ambiguous => "ambiguous"
  | .unmapped => "unmapped"

inductive Classification
  | invalid
  | cleanFalsePositive
  | cleanPass
  | candidateKill
  | unmatched
  | survived
  deriving DecidableEq

def Classification.text : Classification → String
  | .invalid => "invalid"
  | .cleanFalsePositive => "clean_false_positive"
  | .cleanPass => "clean_pass"
  | .candidateKill => "candidate_kill"
  | .unmatched => "unmatched"
  | .survived => "survived"

inductive Reason
  | cleanHarnessInvalid
  | mutantHarnessInvalid
  | missingOnClean
  | cleanAssertionFailure
  | cleanNodeNotEligible
  | cleanControlHasNoMutant
  | missingOnMutant
  | mutantNodeNotEligible
  | cleanPassMutantAssertionFailure
  | failureNotMappedToFinding
  | cleanAndMutantPass
  | integrityCheckFailed
  deriving DecidableEq

def Reason.text : Reason → String
  | .cleanHarnessInvalid => "clean_harness_invalid"
  | .mutantHarnessInvalid => "mutant_harness_invalid"
  | .missingOnClean => "missing_on_clean"
  | .cleanAssertionFailure => "clean_assertion_failure"
  | .cleanNodeNotEligible => "clean_node_not_eligible"
  | .cleanControlHasNoMutant => "clean_control_has_no_mutant"
  | .missingOnMutant => "missing_on_mutant"
  | .mutantNodeNotEligible => "mutant_node_not_eligible"
  | .cleanPassMutantAssertionFailure => "clean_pass_mutant_assertion_failure"
  | .failureNotMappedToFinding => "failure_not_mapped_to_finding"
  | .cleanAndMutantPass => "clean_and_mutant_pass"
  | .integrityCheckFailed => "integrity_check_failed"

inductive Adjudication
  | pending
  | notApplicable
  deriving DecidableEq

def Adjudication.text : Adjudication → String
  | .pending => "pending"
  | .notApplicable => "not_applicable"

structure FindingRecord where
  findingIndex : Nat
  title : Str
  endpoint : Str
  claim : Str
  testName : Str
  baseTestName : Str

structure NodeRecord where
  nodeKey : Str
  baseName : Str
  mapsToFinding : Bool
  findingIndexes : List Nat
  findingMappingStatus : MappingStatus
  cleanOutcome : Option Str
  mutantOutcome : Option Str
  mutantFailureKind : Option Str
  classification : Classification
  reason : Reason
  adjudication : Adjudication
  adjudicationReason : Option Str := none

structure Differential where
  caseId : Str
  testSha256 : Str
  cleanHarnessStatus : HarnessStatus
  mutantHarnessStatus : Option HarnessStatus
  findings : List FindingRecord
  nodes : List NodeRecord
  candidateNodes : List Str
  cleanFalsePositiveNodes : List Str
  caseCandidateKill : Bool
  caseConfirmedKill : Bool := false

/-- `test_name.split("[", 1)[0]`. -/
def baseTestName (testName : Str) : Str :=
  testName.takeWhile (· != 0x5B)

/-- `str(finding.get(field, ""))`. -/
def findingText (finding : Json) (field : String) : Str :=
  match finding.get? (lit field) with
  | some value => value.pyStr
  | none => []

def findingRecord (finding : Json) (index : Nat) : FindingRecord where
  findingIndex := index
  title := findingText finding "title"
  endpoint := findingText finding "endpoint"
  claim := findingText finding "claim"
  testName := findingText finding "test_name"
  baseTestName := baseTestName (findingText finding "test_name")

/-- `finding_indexes.setdefault(base_name, []).append(index)`. -/
def addFindingIndex (indexes : Dict Str (List Nat)) (finding : FindingRecord) :
    Dict Str (List Nat) :=
  if finding.baseTestName = [] then indexes
  else
    indexes.set finding.baseTestName
      ((indexes.get? finding.baseTestName).getD [] ++ [finding.findingIndex])

def findingIndexes (findings : List FindingRecord) : Dict Str (List Nat) :=
  findings.foldl addFindingIndex Dict.empty

/-- The nodes by their key so far, and the keys that came more than once. -/
def indexNode (indexed : Dict Str PytestNodeResult × List Str) (node : PytestNodeResult) :
    Dict Str PytestNodeResult × List Str :=
  (indexed.1.set node.nodeId node,
    if (indexed.1.get? node.nodeId).isSome then indexed.2 ++ [node.nodeId] else indexed.2)

def duplicateNode (key : Str) (original : PytestNodeResult) : PytestNodeResult where
  nodeId := key
  testName := original.testName
  outcome := lit "error"
  failureKind := some (lit "duplicate_node_key")
  message := lit "JUnit contained a duplicate node key"

def markDuplicate (indexed : Dict Str PytestNodeResult) (key : Str) : Dict Str PytestNodeResult :=
  match indexed.get? key with
  | some original => indexed.set key (duplicateNode key original)
  | none => indexed

def uniqueNodes (nodes : List PytestNodeResult) : Dict Str PytestNodeResult :=
  let (indexed, duplicates) := nodes.foldl indexNode (Dict.empty, [])
  duplicates.foldl markDuplicate indexed

def classify (clean mutant : Option PytestNodeResult) (mapsToFinding cleanOnly cleanHarnessValid
    mutantHarnessValid : Bool) : Classification × Reason :=
  if !cleanHarnessValid then (.invalid, .cleanHarnessInvalid)
  else if !cleanOnly && !mutantHarnessValid then (.invalid, .mutantHarnessInvalid)
  else
    match clean with
    | none => (.invalid, .missingOnClean)
    | some clean =>
      if clean.assertionFailure then (.cleanFalsePositive, .cleanAssertionFailure)
      else if !clean.eligibleForDifferential then (.invalid, .cleanNodeNotEligible)
      else if cleanOnly then (.cleanPass, .cleanControlHasNoMutant)
      else
        match mutant with
        | none => (.invalid, .missingOnMutant)
        | some mutant =>
          if !mutant.eligibleForDifferential then (.invalid, .mutantNodeNotEligible)
          else if mutant.assertionFailure && mapsToFinding then
            (.candidateKill, .cleanPassMutantAssertionFailure)
          else if mutant.assertionFailure then (.unmatched, .failureNotMappedToFinding)
          else (.survived, .cleanAndMutantPass)

/-- The node that gives the record its name: the key is one of either run. -/
def namingNode (clean mutant : Option PytestNodeResult) : Option PytestNodeResult :=
  clean.or mutant

def classifyNode (key : Str) (clean mutant : Option PytestNodeResult)
    (findingIndexes : Dict Str (List Nat)) (cleanOnly cleanHarnessValid mutantHarnessValid : Bool) :
    NodeRecord :=
  let baseName := baseTestName (((namingNode clean mutant).map (·.testName)).getD [])
  let matched := (findingIndexes.get? baseName).getD []
  let mapsToFinding := matched.length == 1
  let verdict := classify clean mutant mapsToFinding cleanOnly cleanHarnessValid mutantHarnessValid
  { nodeKey := key
    baseName := baseName
    mapsToFinding := mapsToFinding
    findingIndexes := matched
    findingMappingStatus :=
      if mapsToFinding then .mapped else if matched.isEmpty then .unmapped else .ambiguous
    cleanOutcome := clean.map (·.outcome)
    mutantOutcome := mutant.map (·.outcome)
    mutantFailureKind := mutant.bind (·.failureKind)
    classification := verdict.1
    reason := verdict.2
    adjudication := if verdict.1 = .candidateKill then .pending else .notApplicable }

def nodeKeys (clean mutant : Dict Str PytestNodeResult) : List Str :=
  (clean.keys ++ mutant.keys).dedup.insertionSort (· ≤ ·)

def nodesClassified (classification : Classification) (nodes : List NodeRecord) : List Str :=
  (nodes.filter fun node => node.classification = classification).map (·.nodeKey)

def buildDifferential (caseId : Str) (clean : ExecutionResult) (mutant : Option ExecutionResult)
    (findings : List Json) (testSha256 : Str) : Differential :=
  let findingTable := findings.mapIdx fun index finding => findingRecord finding index
  let indexes := findingIndexes findingTable
  let cleanNodes := uniqueNodes clean.nodes
  let mutantNodes := (mutant.map fun result => uniqueNodes result.nodes).getD Dict.empty
  let nodes := (nodeKeys cleanNodes mutantNodes).map fun key =>
    classifyNode key (cleanNodes.get? key) (mutantNodes.get? key) indexes mutant.isNone
      clean.scoreableHarness ((mutant.map (·.scoreableHarness)).getD false)
  let candidateNodes := nodesClassified .candidateKill nodes
  { caseId := caseId
    testSha256 := testSha256
    cleanHarnessStatus := clean.harnessStatus
    mutantHarnessStatus := mutant.map (·.harnessStatus)
    findings := findingTable
    nodes := nodes
    candidateNodes := candidateNodes
    cleanFalsePositiveNodes := nodesClassified .cleanFalsePositive nodes
    caseCandidateKill := mutant.isSome && !candidateNodes.isEmpty }

/-- A hash that was not taken compares as unchanged. -/
def repositoryError (role : String) (before after : Option Str) : List Str :=
  match before, after with
  | some before, some after =>
    if before = after then [] else [lit role ++ lit "_repository_changed_during_execution"]
  | _, _ => []

def integrityErrors (expectedTestHash : Str) (observedTestHashes : List Str)
    (repoHashPairs : List (String × Option Str × Option Str)) : List Str :=
  let errors := (observedTestHashes.filter (· ≠ expectedTestHash)).map fun _ =>
    lit "generated_test_changed_during_execution"
  (errors ++ repoHashPairs.flatMap fun (role, before, after) => repositoryError role before after)
    |>.dedup.insertionSort (· ≤ ·)

def invalidateNode (errors : List Str) (node : NodeRecord) : NodeRecord :=
  { node with
    classification := .invalid
    reason := .integrityCheckFailed
    adjudication := .notApplicable
    adjudicationReason := some (join Json.comma errors) }

def invalidateDifferential (differential : Differential) (errors : List Str) : Differential :=
  { differential with
    candidateNodes := []
    caseCandidateKill := false
    nodes := differential.nodes.map (invalidateNode errors) }

def FindingRecord.payload (finding : FindingRecord) : Json :=
  .object [("finding_index", .int finding.findingIndex), ("title", .str finding.title),
    ("endpoint", .str finding.endpoint), ("claim", .str finding.claim),
    ("test_name", .str finding.testName), ("base_test_name", .str finding.baseTestName)]

def NodeRecord.payload (node : NodeRecord) : Json :=
  .object [("node_key", .str node.nodeKey), ("base_name", .str node.baseName),
    ("maps_to_finding", .bool node.mapsToFinding),
    ("finding_indexes", .list (node.findingIndexes.map fun index : Nat => .int index)),
    ("finding_mapping_status", .str (lit node.findingMappingStatus.text)),
    ("clean_outcome", textOrNull node.cleanOutcome),
    ("mutant_outcome", textOrNull node.mutantOutcome),
    ("mutant_failure_kind", textOrNull node.mutantFailureKind),
    ("classification", .str (lit node.classification.text)),
    ("reason", .str (lit node.reason.text)),
    ("adjudication", .str (lit node.adjudication.text)),
    ("adjudication_reason", textOrNull node.adjudicationReason)]

def Differential.payload (differential : Differential) : List (String × Json) :=
  [("schema_version", .str (lit "differential-evidence-v1")),
    ("case_id", .str differential.caseId), ("test_sha256", .str differential.testSha256),
    ("clean_harness_status", .str (lit differential.cleanHarnessStatus.text)),
    ("mutant_harness_status",
      textOrNull (differential.mutantHarnessStatus.map fun status => lit status.text)),
    ("findings", .list (differential.findings.map FindingRecord.payload)),
    ("nodes", .list (differential.nodes.map NodeRecord.payload)),
    ("candidate_nodes", .list (differential.candidateNodes.map .str)),
    ("clean_false_positive_nodes", .list (differential.cleanFalsePositiveNodes.map .str)),
    ("case_candidate_kill", .bool differential.caseCandidateKill),
    ("case_confirmed_kill", .bool differential.caseConfirmedKill)]

end EdgecaseForge

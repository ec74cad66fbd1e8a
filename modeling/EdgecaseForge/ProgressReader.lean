import EdgecaseForge.CaseEvidence
import EdgecaseForge.JsonRepr

namespace EdgecaseForge

open Text

@[ext]
structure CaseKey where
  repetition : Nat
  caseId : Str
  deriving DecidableEq

/-- The pairs of a suite in the order in which it evaluates them. -/
def schedule (repetitions : Nat) (selectedCases : List Str) : List CaseKey :=
  (List.range' 1 repetitions).flatMap fun repetition => selectedCases.map (CaseKey.mk repetition)

section Paths

/-- The parts of `Path(value)`. -/
def pathParts (value : Str) : Path :=
  (split slash value).filter fun part => part ≠ [] ∧ part ≠ lit "."

def isAbsolute (value : Str) : Bool :=
  value.head? = some slash

/-- A name as the file system takes it. -/
def checkName (name : Str) : Except PyError Unit :=
  if name.contains 0 then .error (.valueError (lit "lstat: embedded null character in path"))
  else if name.any fun c => isSurrogate c.val && !(0xDC80 ≤ c.val && c.val ≤ 0xDCFF) then
    .error .unicodeEncodeError
  else .ok ()

def checkNames : Path → Except PyError Unit
  | [] => .ok ()
  | name :: names => do
    checkName name
    checkNames names

end Paths

/-- The error of a line of the ledger. -/
def lineError (line : Nat) (problem : String) : PyError :=
  .valueError (lit "Progress JSONL line " ++ Json.intText line ++ lit (" " ++ problem))

def safeChildPath (root : Path) (value : Json) (line : Nat) : Except PyError Path :=
  match value with
  | .str s =>
    if s = [] then .error (lineError line "has an invalid child path")
    else if isAbsolute s || (pathParts s).contains (lit "..") then
      .error (lineError line "has an unsafe path")
    else (checkNames (pathParts s)).map fun _ => root ++ pathParts s
  | _ => .error (lineError line "has an invalid child path")

def safeSuitePath (suiteDir : Path) (value : Json) (line : Nat) : Except PyError Path :=
  match value with
  | .str s =>
    if s = [] then .error (lineError line "has an invalid artifact path")
    else safeChildPath suiteDir value line
  | _ => .error (lineError line "has an invalid artifact path")

section Fields

/-- An integer that is not negative. -/
def isCount : Json → Bool
  | .int n => 0 ≤ n
  | _ => false

/-- An integer or a float that is not negative. -/
def isSeconds : Json → Bool
  | .int n => 0 ≤ n
  | .float x => !x.isNegative
  | _ => false

def isBool : Json → Bool
  | .bool _ => true
  | _ => false

def isStr : Json → Bool
  | .str _ => true
  | _ => false

def isTexts : Json → Bool
  | .list items => items.all isStr
  | _ => false

def isNone : Json → Bool
  | .null => true
  | _ => false

@[simp] theorem isNone_object (fields : List (String × Json)) :
    isNone (.object fields) = false := rfl

/-- Each of the fields passes a check; the first that does not is named. -/
def checkFields (row : Json) (line : Nat) (check : Json → Bool) :
    List String → Except PyError Unit
  | [] => .ok ()
  | name :: names => do
    Except.check (check (row.get (lit name))) (lineError line ("has invalid " ++ name))
    checkFields row line check names

def countFields : List String :=
  ["candidate_nodes", "invalid_nodes", "clean_assertion_failure_nodes", "reported_findings",
    "integrity_error_count", "invalid_generated_test_count",
    "evaluator_infrastructure_error_count", "input_tokens", "output_tokens", "semantic_attempts",
    "transport_attempts"]

def secondsFields : List String :=
  ["runtime_seconds", "execution_runtime_seconds", "model_latency_seconds"]

/-- `status not in {...}` hashes the status. -/
def checkStatus (status : Json) (line : Nat) : Except PyError Unit :=
  match status with
  | .list _ | .obj _ => .error .typeError
  | status =>
    Except.check (status.pyEq (.str (lit "completed")) ||
      status.pyEq (.str (lit "model_output_error"))) (lineError line "has invalid status")

def checkShape (row : Json) (line : Nat) : Except PyError Unit := do
  checkStatus (row.get (lit "status")) line
  checkFields row line isCount countFields
  checkFields row line isSeconds secondsFields
  checkFields row line isBool ["repair_used"]
  checkFields row line isTexts ["request_ids", "finish_reasons"]

end Fields

section Artifacts

/-- The fields of a dictionary, or the error of asking anything else for one. -/
def getField (value : Json) (name : String) : Except PyError Json :=
  match value with
  | .obj _ => .ok (value.get (lit name))
  | _ => .error .attributeError

def checkArtifact (directory : Path) (execution : Json) (line : Nat) (field : String)
    (t : FileTree) : Except PyError Unit := do
  let metadata ← getField execution field
  if isNone metadata && field == "junit" then .ok ()
  else do
    Except.check metadata.isObj (lineError line ("has invalid " ++ field ++ " metadata"))
    let artifact ← safeChildPath directory (metadata.get (lit "path")) line
    Except.check (t.isFile artifact) (lineError line ("is missing " ++ field))
    let content ← t.readBytes artifact
    Except.check ((Json.int content.length).pyEq (metadata.get (lit "bytes")) &&
      (Json.str (Sha256.sha256 content)).pyEq (metadata.get (lit "sha256")))
      (lineError line ("has modified " ++ field))

/-- `_validate_execution_artifacts`. -/
def validateExecutionArtifacts (directory : Path) (execution : Json) (line : Nat) (t : FileTree) :
    Except PyError Unit := do
  checkArtifact directory execution line "stdout" t
  checkArtifact directory execution line "stderr" t
  checkArtifact directory execution line "junit" t

def checkExecution (directory : Path) (differential : Json) (line : Nat) (name : String)
    (t : FileTree) : Except PyError Unit := do
  let relative ← getField differential name
  if isNone relative then .ok ()
  else do
    let executionPath ← safeChildPath directory relative line
    Except.check (t.isFile executionPath) (lineError line "execution evidence is missing")
    let execution ← readJson executionPath t
    validateExecutionArtifacts executionPath.dropLast execution line t

def checkMetadata (row differential : Json) (line : Nat) : Except PyError Unit := do
  let caseId ← getField differential "case_id"
  let testSha256 ← getField differential "test_sha256"
  let candidateKill ← getField differential "case_candidate_kill"
  Except.check (caseId.pyEq (row.get (lit "case_id")) &&
    testSha256.pyEq (row.get (lit "test_sha256")) &&
    candidateKill.pyEq (row.get (lit "candidate_kill")))
    (lineError line "differential metadata conflicts")

def validateDifferential (row : Json) (suiteDir : Path) (line : Nat) (t : FileTree) :
    Except PyError Unit := do
  let path ← safeSuitePath suiteDir (row.get (lit "differential_evidence")) line
  Except.check (t.isFile path) (lineError line "differential evidence is missing")
  let hash ← fileSha256 path t
  Except.check ((Json.str hash).pyEq (row.get (lit "differential_sha256")))
    (lineError line "differential evidence was modified")
  let differential ← readJson path t
  checkMetadata row differential line
  checkExecution path.dropLast differential line "clean_execution" t
  checkExecution path.dropLast differential line "mutant_execution" t

def validateCompleted (row : Json) (suiteDir : Path) (line : Nat) (t : FileTree) :
    Except PyError Unit := do
  let runDir ← safeSuitePath suiteDir (row.get (lit "run_directory")) line
  Except.check (t.isDir runDir) (lineError line "run directory is missing")
  let hash ← treeSha256 runDir [] t
  Except.check ((Json.str hash).pyEq (row.get (lit "run_artifacts_sha256")))
    (lineError line "run artifacts were modified")
  if (row.get (lit "test_generated")).truthy then validateDifferential row suiteDir line t
  else
    Except.check (isNone (row.get (lit "differential_evidence")))
      (lineError line "has unexpected differential evidence")

def validateModelError (row : Json) (line : Nat) : Except PyError Unit := do
  checkFields row line isTexts ["model_response_sha256", "model_response_excerpts"]
  Except.check (isNone (row.get (lit "run_directory")) &&
    isNone (row.get (lit "differential_evidence")))
    (lineError line "has impossible error artifacts")

/-- `_validate_evaluation_artifacts`. -/
def validateEvaluationArtifacts (row : Json) (suiteDir : Path) (line : Nat) (t : FileTree) :
    Except PyError Unit := do
  checkShape row line
  if (row.get (lit "status")).pyEq (.str (lit "model_output_error")) then
    validateModelError row line
  else validateCompleted row suiteDir line t

end Artifacts

section Lines

/-- A value that a set of keys can be asked for. -/
def isHashable : Json → Bool
  | .list _ | .obj _ => false
  | _ => true

/-- The scheduled pair that a row is about: a repetition counts by its value. -/
def scheduledKey (allowed : List CaseKey) (row : Json) : Except PyError (Option CaseKey) := do
  let repetition := row.get (lit "repetition")
  let caseId := row.get (lit "case_id")
  Except.check (isHashable repetition && isHashable caseId) .typeError
  pure (allowed.find? fun key =>
    repetition.pyEq (.int key.repetition) && caseId.pyEq (.str key.caseId))

def keyText (row : Json) : Str :=
  lit "(" ++ (row.get (lit "repetition")).pyRepr ++ lit ", " ++
    (row.get (lit "case_id")).pyRepr ++ lit ")"

def duplicateError (line : Nat) (row : Json) : PyError :=
  .valueError (lit "Progress JSONL line " ++ Json.intText line ++ lit " duplicates " ++ keyText row)

/-- `json.loads` of a line of the ledger. -/
def parseLine (line : Nat) (s : Str) : Except PyError Json :=
  match jsonLoads s with
  | .error (.jsonDecodeError _) => .error (lineError line "is invalid")
  | result => result

def checkKey (allowed seen : List CaseKey) (row : Json) (line : Nat) : Except PyError CaseKey := do
  let scheduled ← scheduledKey allowed row
  match scheduled with
  | none => .error (lineError line "is outside the schedule")
  | some key => if key ∈ seen then .error (duplicateError line row) else .ok key

def checkSource (sourceHashes row : Json) (key : CaseKey) (line : Nat) : Except PyError Unit :=
  match sourceHashes.get? key.caseId with
  | none => .error (.keyError key.caseId)
  | some hash =>
    Except.check ((row.get (lit "source_sha256")).pyEq hash) (lineError line "has a source mismatch")

/-- What the reader of the ledger is given besides the file. -/
structure ProgressContext where
  suiteDir : Path
  repetitions : Nat
  selectedCases : List Str
  sourceHashes : Json

def ProgressContext.allowed (context : ProgressContext) : List CaseKey :=
  schedule context.repetitions context.selectedCases

def readRow (context : ProgressContext) (seen : List CaseKey) (line : Nat) (s : Str)
    (t : FileTree) : Except PyError (CaseKey × Json) := do
  Except.check (!(strip s).isEmpty) (lineError line "is blank")
  let row ← parseLine line s
  Except.check row.isObj (lineError line "is not an object")
  Except.check ((row.get (lit "evaluation_schema_version")).pyEq (.str (lit "case-evaluation-v2")))
    (lineError line "has an unknown schema")
  let key ← checkKey context.allowed seen row line
  checkSource context.sourceHashes row key line
  validateEvaluationArtifacts row context.suiteDir line t
  pure (key, row)

def readRows (context : ProgressContext) (t : FileTree) :
    List CaseKey → Nat → List Str → Except PyError (List Json)
  | _, _, [] => .ok []
  | seen, line, s :: lines => do
    let (key, row) ← readRow context seen line s t
    let rows ← readRows context t (key :: seen) (line + 1) lines
    pure (row :: rows)

/-- `raw.decode("utf-8").splitlines()`, of a file that ends its last line. -/
def progressLines (raw : Bytes) : Except PyError (List Str) :=
  if raw ≠ [] ∧ raw.getLast? ≠ some 0x0A then
    .error (.valueError (lit "Progress JSONL has a truncated final line"))
  else
    match utf8Decode raw with
    | some s => .ok (splitLines s)
    | none => .error (.valueError (lit "Progress JSONL is not valid UTF-8"))

/-- `read_progress`. -/
def readProgress (context : ProgressContext) (path : Path) (t : FileTree) :
    Except PyError (List Json) :=
  if t.exists_ path then do
    let raw ← t.readBytes path
    let lines ← progressLines raw
    readRows context t [] 1 lines
  else .ok []

end Lines

end EdgecaseForge

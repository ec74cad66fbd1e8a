import EdgecaseForge.FailureKinds
import EdgecaseForge.JsonRepr
import EdgecaseForge.ProgressEvidence
import EdgecaseForge.TreeOperations

namespace EdgecaseForge

open Text Effect Program

/-- `str(path)` of an absolute path. -/
def pathText (p : Path) : Str :=
  slash :: asPosix p

/-- What is started, and how long it is waited for. -/
structure Spawn where
  command : List Str
  cwd : Path
  env : Dict Str Str
  timeoutSeconds : Int

/-- How a process ends. One that is stopped may have given output before. -/
inductive ProcessEnd
  | exited (returncode : Int) (stdout stderr : Str)
  | stopped (earlyStdout earlyStderr : Option Bytes) (stdout stderr : Str)
  | notStarted (message : Str)

/-- The machine during the run of a test. -/
structure Host where
  popen : Spawn → FileTree → FileTree × Except PyError ProcessEnd
  errorText : PyError → Str
  testcases : Str → Option (List Testcase)
  classes : CharClasses
  upper : Str → Str
  environ : Dict Str Str
  executable : Str
  temporary : Path
  startedAt : Str
  elapsed : Seconds

section Outputs

def replacement : CodePoint := 0xFFFD

/-- How many bytes follow a first byte of UTF-8, and between which bounds the next of them is. -/
def followers (a : UInt8) : Option (Nat × UInt8 × UInt8) :=
  if a < 0x80 then some (0, 0x80, 0xBF)
  else if a < 0xC2 then none
  else if a < 0xE0 then some (1, 0x80, 0xBF)
  else if a = 0xE0 then some (2, 0xA0, 0xBF)
  else if a = 0xED then some (2, 0x80, 0x9F)
  else if a < 0xF0 then some (2, 0x80, 0xBF)
  else if a = 0xF0 then some (3, 0x90, 0xBF)
  else if a < 0xF4 then some (3, 0x80, 0xBF)
  else if a = 0xF4 then some (3, 0x80, 0x8F)
  else none

def continuations : Nat → UInt8 → UInt8 → Bytes → Bytes
  | count + 1, low, high, b :: rest =>
    if low ≤ b ∧ b ≤ high then b :: continuations count 0x80 0xBF rest else []
  | _, _, _, _ => []

/-- `bytes.decode(errors="replace")`: what is no code point gives one replacement for its longest start. -/
def decodeReplace : Nat → Bytes → Str
  | fuel + 1, a :: rest =>
    match followers a with
    | none => replacement :: decodeReplace fuel rest
    | some (count, low, high) =>
      let taken := continuations count low high rest
      let point := if taken.length = count then utf8Decode (a :: taken) else none
      point.getD [replacement] ++ decodeReplace fuel (rest.drop taken.length)
  | _, _ => []

/-- `_decode_timeout_output`. -/
def decodeTimeoutOutput : Option Bytes → Str
  | none => []
  | some bytes => decodeReplace bytes.length bytes

def reprByte (quote b : UInt8) : Str :=
  if b = quote ∨ b = 0x5C then lit "\\" ++ [Fin.ofNat 0x110000 b.toNat]
  else if b = 0x09 then lit "\\t"
  else if b = 0x0A then lit "\\n"
  else if b = 0x0D then lit "\\r"
  else if b < 0x20 ∨ 0x7F ≤ b then lit "\\x" ++ Sha256.hexText 2 b.toNat
  else [Fin.ofNat 0x110000 b.toNat]

/-- `str(value)` of bytes. -/
def bytesText (bytes : Bytes) : Str :=
  let quote : UInt8 := if bytes.contains 0x27 && !bytes.contains 0x22 then 0x22 else 0x27
  let mark : Str := [Fin.ofNat 0x110000 quote.toNat]
  lit "b" ++ mark ++ bytes.flatMap (reprByte quote) ++ mark

/-- `str(value or "")`. -/
def timeoutOutputText : Option Bytes → Str
  | none => []
  | some bytes => if bytes = [] then [] else bytesText bytes

/-- `_read_junit`. -/
def readJunit (p : Path) (t : FileTree) : Str :=
  match readText p t with
  | .ok s => s
  | .error _ => []

/-- What the two ways of running a test make of the end of the process. -/
structure Backend where
  early : Option Bytes → Str
  executed : Bool
  failure : Str → Str

/-- The result of a process, with what it has left as its JUnit file. -/
def collected (host : Host) (backend : Backend) (command : List Str) (timeoutSeconds : Int) (junitXml : Str) :
    ProcessEnd → ExecutionResult
  | .exited returncode stdout stderr =>
    { executed := true, exitCode := some returncode, stdout, stderr
      durationSeconds := host.elapsed.roundTo 4, startedAt := some host.startedAt
      timeoutSeconds := some timeoutSeconds, command
      nodes := parseJunit host.classes host.testcases junitXml, junitXml }
  | .stopped earlyStdout earlyStderr stdout stderr =>
    { executed := true, exitCode := none
      stdout := if stdout = [] then backend.early earlyStdout else stdout
      stderr := if stderr = [] then backend.early earlyStderr else stderr
      timedOut := true, durationSeconds := host.elapsed.roundTo 4, startedAt := some host.startedAt
      timeoutSeconds := some timeoutSeconds, command
      nodes := parseJunit host.classes host.testcases junitXml, junitXml }
  | .notStarted message =>
    { executed := backend.executed, exitCode := none, stdout := [], stderr := backend.failure message
      durationSeconds := host.elapsed.roundTo 4, startedAt := some host.startedAt
      timeoutSeconds := some timeoutSeconds, command }

end Outputs

section Local

def allowedNames : List Str :=
  [lit "COMSPEC", lit "LANG", lit "LC_ALL", lit "PATH", lit "PATHEXT", lit "SYSTEMROOT", lit "WINDIR"]

/-- The variables that are set whatever the environment has. -/
def runVariables (repo neutralTemp : Path) : List (Str × Str) :=
  [(lit "PYTHONPATH", pathText repo), (lit "PYTHONDONTWRITEBYTECODE", lit "1"), (lit "PYTHONHASHSEED", lit "0"),
    (lit "PYTHONIOENCODING", lit "utf-8"), (lit "PYTHONUTF8", lit "1"),
    (lit "PYTEST_DISABLE_PLUGIN_AUTOLOAD", lit "1"), (lit "TEMP", pathText neutralTemp),
    (lit "TMP", pathText neutralTemp), (lit "TMPDIR", pathText neutralTemp)]

def setVariable (environment : Dict Str Str) (entry : Str × Str) : Dict Str Str :=
  environment.set entry.1 entry.2

def childEnvironment (host : Host) (repo neutralTemp : Path) : Dict Str Str :=
  (runVariables repo neutralTemp).foldl setVariable
    (host.environ.filterKeys fun name => allowedNames.contains (host.upper name))

/-- `_safe_environment`. -/
def safeEnvironment (host : Host) (repo : Path) : Disk (Dict Str Str) := do
  let neutralTemp := repo.dropLast ++ [lit "tmp"]
  Disk.mkdir true neutralTemp
  pure (childEnvironment host repo neutralTemp)

def localCommand (host : Host) (junit testFile : Path) : List Str :=
  [host.executable, lit "-m", lit "pytest", lit "-q", lit "--runxfail", lit "-p", lit "no:cacheprovider",
    lit "--junitxml", pathText junit, pathText testFile]

def localBackend : Backend where
  early := decodeTimeoutOutput
  executed := true
  failure := tail 20000

/-- A temporary directory that is there while the program runs. -/
def withTemporaryDirectory {α : Type} (temporary : Path) (program : Disk α) : Disk α := do
  Disk.write (FileTree.makeDir temporary)
  let result ← Program.attempt program
  Disk.write fun t => if t.isFile temporary then (t, .error .notADirectoryError) else (t.clear temporary, .ok ())
  Program.lift result

/-- The process is started in its environment, if that can be made. -/
def startLocal (host : Host) (repo : Path) (command : List Str) (timeoutSeconds : Int) : Disk ProcessEnd := do
  let made ← Program.attempt (safeEnvironment host repo)
  match made with
  | .ok env => Program.act .wrote (host.popen ⟨command, repo, env, timeoutSeconds⟩)
  | .error e => pure (.notStarted (host.errorText e))

/-- `run_generated_pytest`. -/
def runGeneratedPytest (host : Host) (repo testFile : Path) (timeoutSeconds : Int) (junitPath : Option Path) :
    Disk ExecutionResult :=
  if timeoutSeconds < 1 then Disk.raise (.valueError (lit "timeout_seconds must be at least 1"))
  else withTemporaryDirectory host.temporary do
    let junit := junitPath.getD (host.temporary ++ [lit "junit.xml"])
    Disk.mkdir true junit.dropLast
    let command := localCommand host junit testFile
    let ended ← startLocal host repo command timeoutSeconds
    let junitXml ← Disk.read fun t => .ok (readJunit junit t)
    pure (collected host localBackend command timeoutSeconds junitXml ended)

end Local

section Restricted

def repoMount (repo : Path) : Str :=
  lit "type=bind,source=" ++ pathText repo ++ lit ",target=/workspace/repo,readonly"

def artifactsMount (artifacts : Path) : Str :=
  lit "type=bind,source=" ++ pathText artifacts ++ lit ",target=/workspace/artifacts"

def containerOptions : List Str :=
  [lit "docker", lit "run", lit "--rm", lit "--network", lit "none", lit "--read-only", lit "--cap-drop", lit "ALL",
    lit "--security-opt", lit "no-new-privileges", lit "--pids-limit", lit "128", lit "--cpus", lit "1.0",
    lit "--memory", lit "512m", lit "--tmpfs", lit "/tmp:rw,noexec,nosuid,size=64m"]

def containerArguments : List Str :=
  [lit "-m", lit "pytest", lit "-q", lit "--runxfail", lit "-p", lit "no:cacheprovider", lit "--junitxml",
    lit "/workspace/artifacts/junit.xml"]

def restrictedCommand (repo artifacts : Path) (image relativeTest : Str) : List Str :=
  containerOptions ++ [lit "--mount", repoMount repo, lit "--mount", artifactsMount artifacts,
    lit "--workdir", lit "/workspace/repo", image] ++ containerArguments ++ [relativeTest]

def restrictedVariables : List (Str × Str) :=
  [(lit "PATH", lit "/usr/local/bin:/usr/bin:/bin"), (lit "PYTHONPATH", lit "/workspace/repo"),
    (lit "PYTHONDONTWRITEBYTECODE", lit "1"), (lit "PYTHONHASHSEED", lit "0"), (lit "PYTHONIOENCODING", lit "utf-8"),
    (lit "PYTHONUTF8", lit "1"), (lit "PYTEST_DISABLE_PLUGIN_AUTOLOAD", lit "1"), (lit "TMPDIR", lit "/tmp")]

def restrictedBackend : Backend where
  early := timeoutOutputText
  executed := false
  failure := id

/-- `test_file.resolve().relative_to(repo.resolve()).as_posix()`. -/
def relativeTest (repo testFile : Path) : Except PyError Str :=
  if repo <+: testFile then .ok (relativeText repo testFile)
  else .error (.valueError (Json.reprText (pathText testFile) ++ lit " is not in the subpath of " ++
    Json.reprText (pathText repo)))

def restrictedSpawn (repo artifacts : Path) (image relative : Str) (timeoutSeconds : Int) : Spawn where
  command := restrictedCommand repo artifacts image relative
  cwd := repo
  env := restrictedVariables.foldl setVariable Dict.empty
  timeoutSeconds := timeoutSeconds

/-- `run_restricted_pytest`. -/
def runRestrictedPytest (host : Host) (image : Str) (repo testFile : Path) (timeoutSeconds : Int)
    (junitPath : Option Path) : Disk ExecutionResult := do
  let ready ← Disk.read fun t => .ok (t.isDir repo && t.isFile testFile)
  if !ready then
    Disk.raise (.valueError (lit "Restricted runner requires an existing repository and test file"))
  else do
    let relative ← Program.lift (relativeTest repo testFile)
    let artifacts := (junitPath.getD (repo.dropLast ++ [lit "junit.xml"])).dropLast
    Disk.mkdir true artifacts
    let spawn := restrictedSpawn repo artifacts image relative timeoutSeconds
    let ended ← Program.act .wrote (host.popen spawn)
    let junitXml ← Disk.read fun t => .ok (readJunit (artifacts ++ [lit "junit.xml"]) t)
    pure (collected host restrictedBackend spawn.command timeoutSeconds junitXml ended)

/-- `DEFAULT_IMAGE`. -/
def defaultImage : Str :=
  lit "edgecase-forge-runner:flashcart-v1.1"

/-- How `_run_neutral_execution` runs the test below the directory of the execution. -/
def neutralRun (host : Host) (executionBackend : Str) (executionRoot : Path) : Disk ExecutionResult :=
  let repo := executionRoot ++ [lit "repo"]
  let testFile := repo ++ [lit "test_generated.py"]
  let junitPath := executionRoot ++ [lit "artifacts"] ++ [lit "junit.xml"]
  if executionBackend = lit "docker" then
    runRestrictedPytest host defaultImage repo testFile 120 (some junitPath)
  else runGeneratedPytest host repo testFile 120 (some junitPath)

end Restricted

end EdgecaseForge

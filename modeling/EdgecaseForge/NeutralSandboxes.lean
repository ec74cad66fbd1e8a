import EdgecaseForge.ContainedRuns

namespace EdgecaseForge

open Text Effect Program

/-- What the directory of an execution holds when its test is started. -/
def sandboxNode (source : Str) (readme project test : Bytes) (scratch : List Str) : Path → Option Node
  | [] => some .dir
  | name :: rest =>
    if name = lit "repo" then
      if rest = [lit "test_generated.py"] then some (.file test) else repoNode source readme project rest
    else if rest = [] ∧ name ∈ scratch then some .dir
    else none

def backendOf (executionBackend : Str) : Backend :=
  if executionBackend = lit "docker" then restrictedBackend else localBackend

/-- The directories that are made beside the repository. -/
def scratchOf (executionBackend : Str) : List Str :=
  if executionBackend = lit "docker" then [lit "artifacts"] else [lit "tmp", lit "artifacts"]

def neutralJunit (executionRoot : Path) : Path :=
  executionRoot ++ [lit "artifacts"] ++ [lit "junit.xml"]

/-- What is started for an execution. It tells nothing of the case. -/
def neutralSpawn (host : Host) (executionBackend : Str) (executionRoot : Path) : Spawn :=
  let repo := executionRoot ++ [lit "repo"]
  if executionBackend = lit "docker" then
    restrictedSpawn repo (executionRoot ++ [lit "artifacts"]) defaultImage (lit "test_generated.py") 120
  else
    { command := localCommand host (neutralJunit executionRoot) (repo ++ [lit "test_generated.py"])
      cwd := repo
      env := childEnvironment host repo (executionRoot ++ [lit "tmp"])
      timeoutSeconds := 120 }

section Directories

variable {executionRoot p : Path} {source name : Str} {readme project test : Bytes} {scratch : List Str}
  {t t' : FileTree} {u : Unit}

theorem mkdir_absent_returns (noDir : t.isDir p = false) : (Disk.mkdir true p).Returns t u t' →
    madeTree p t = t' := by
  rw [Disk.mkdir, Disk.write, returns_act, FileTree.mkdir, madeTree]
  simp only [noDir, Bool.false_eq_true, if_false]
  cases t.isFile p <;> cases p.inits.any t.isFile <;> simp

/-- A new directory beside the repository. -/
theorem shows_scratch (shows_ : Shows executionRoot (sandboxNode source readme project test scratch) t)
    (other : name ≠ lit "repo") (new : name ∉ scratch)
    (h : (Disk.mkdir true (executionRoot ++ [name])).Returns t u t') :
    Shows executionRoot (sandboxNode source readme project test (name :: scratch)) t' := by
  have absent : t.get? (executionRoot ++ [name]) = none := by
    rw [shows_ [name]]
    simp [sandboxNode, other, new]
  obtain rfl := mkdir_absent_returns (isDir_child absent) h
  intro rest
  have before := shows_ rest
  rcases rest with _ | ⟨first, rest⟩
  · rw [madeTree, FileTree.get?_foldl_addDir_of_some before]
    rfl
  · by_cases here : first :: rest = [name]
    · rw [here, get?_madeTree_self (exists_child absent)]
      simp [sandboxNode, other]
    · have outside : ¬ executionRoot ++ first :: rest <+: executionRoot ++ [name] := by
        intro hp
        have inner : first :: rest <+: [name] := (List.prefix_append_right_inj executionRoot).mp hp
        exact here (inner.eq_of_length (le_antisymm inner.length_le (by simp)))
      rw [madeTree_outside outside, before]
      by_cases repo : first = lit "repo"
      · simp [sandboxNode, repo]
      · have apart : ¬ (rest = [] ∧ first = name) := by
          rintro ⟨rfl, rfl⟩
          exact here rfl
        simp only [sandboxNode, if_neg repo, List.mem_cons]
        by_cases last : rest = []
        · have differ : first ≠ name := fun same => apart ⟨last, same⟩
          simp [last, differ]
        · simp [last]

end Directories

section Exported

variable {root parent : Path} {name caseId source : Str} {readme project test : Bytes} {t : FileTree} {caseDir : Path}

/-- The directory of the execution once the case has been exported and its test has been written. -/
theorem shows_tested (staged : Staged parent name caseDir t) :
    Shows (parent ++ [name]) (sandboxNode source readme project test [])
      ((exportedTree (parent ++ [name] ++ [lit "repo"]) source readme project (removed (parent ++ [name]) t)).set
        (parent ++ [name] ++ [lit "repo"] ++ [lit "test_generated.py"]) (.file test)) := by
  have empty : ∀ rest, (removed (parent ++ [name]) t).get? (parent ++ [name] ++ rest) = none := fun rest =>
    removed_below staged.rooted (List.prefix_append _ rest)
  have absent : (removed (parent ++ [name]) t).exists_ (parent ++ [name] ++ [lit "repo"]) = false :=
    exists_child (empty [lit "repo"])
  have shown : Shows (parent ++ [name] ++ [lit "repo"]) (repoNode source readme project) _ :=
    exportedTree_shows staged.removed.1.rooted absent
  intro rest
  rcases rest with _ | ⟨first, rest⟩
  · have top := empty []
    have listed : parent ++ [name] ∈ (parent ++ [name] ++ [lit "repo"]).inits.tail := by
      rw [FileTree.inits_concat_tail, FileTree.inits_concat_tail]
      simp
    rw [List.append_nil] at top ⊢
    rw [Dict.get?_set_ne (by simp), exportedTree, Dict.get?_set_ne (by simp), Dict.get?_set_ne (by simp),
      Dict.get?_set_ne (by simp), madeTree, FileTree.get?_foldl_addDir_mem listed (Or.inl top)]
    rfl
  · by_cases repo : first = lit "repo"
    · have inner := shown rest
      have same : parent ++ [name] ++ first :: rest = parent ++ [name] ++ [lit "repo"] ++ rest := by
        rw [repo, List.append_assoc _ [lit "repo"]]
        rfl
      by_cases test_ : rest = [lit "test_generated.py"]
      · rw [same, test_, Dict.get?_set_self]
        simp [sandboxNode, repo]
      · rw [same, Dict.get?_set_ne (fun he => test_ (List.append_cancel_left he)), inner]
        simp [sandboxNode, repo, test_]
    · have below : ¬ parent ++ [name] ++ [lit "repo"] <+: parent ++ [name] ++ first :: rest := fun hp =>
        apart_children (Ne.symm repo) hp ⟨rest, by simp⟩
      have above : ¬ parent ++ [name] ++ first :: rest <+: parent ++ [name] ++ [lit "repo"] := fun hp =>
        apart_children repo (List.IsPrefix.trans ⟨rest, by simp⟩ hp) (List.prefix_refl _)
      have differ : parent ++ [name] ++ first :: rest ≠
          parent ++ [name] ++ [lit "repo"] ++ [lit "test_generated.py"] := fun he =>
        below (he ▸ List.prefix_append _ _)
      rw [Dict.get?_set_ne differ, exportedTree_frame below above, empty]
      simp [sandboxNode, repo]

end Exported

section Runs

variable {executionRoot : Path} {source image : Str} {readme project test : Bytes} {t t' : FileTree} {host : Host}
  {result : ExecutionResult}

/-- The process that gave a result was started in the sandbox, and its report was read where it ended. -/
structure Collected (host : Host) (executionBackend : Str) (executionRoot : Path) (node : Path → Option Node)
    (result : ExecutionResult) (started ended : FileTree) (end_ : ProcessEnd) : Prop where
  shows_ : Shows executionRoot node started
  popen : host.popen (neutralSpawn host executionBackend executionRoot) started = (ended, .ok end_)
  result : result = collected host (backendOf executionBackend)
    (neutralSpawn host executionBackend executionRoot).command 120 (readJunit (neutralJunit executionRoot) ended) end_

theorem relativeTest_child (repo : Path) (name : Str) : relativeTest repo (repo ++ [name]) = .ok name := by
  rw [relativeTest, if_pos (List.prefix_append _ _), relativeText, List.drop_left]
  rfl

theorem neutralRun_restricted (shows_ : Shows executionRoot (sandboxNode source readme project test []) t)
    (h : (neutralRun host (lit "docker") executionRoot).Returns t result t') :
    ∃ started end_, Collected host (lit "docker") executionRoot
      (sandboxNode source readme project test (scratchOf (lit "docker"))) result started t' end_ := by
  rw [neutralRun, if_pos rfl, runRestrictedPytest] at h
  obtain ⟨ready, _, read, h⟩ := returns_bind.mp h
  obtain ⟨-, rfl⟩ := returns_inspect.mp read
  split at h
  next => cases (returns_lift.mp h).1
  next =>
    obtain ⟨relative, _, lifted, h⟩ := returns_bind.mp h
    obtain ⟨named, rfl⟩ := returns_lift.mp lifted
    rw [relativeTest_child] at named
    cases named
    simp only [Option.getD_some, List.dropLast_concat] at h
    obtain ⟨_, started, made, h⟩ := returns_bind.mp h
    have sandbox := shows_scratch shows_ (by decide) (by simp) made
    obtain ⟨end_, ended, ran, h⟩ := returns_bind.mp h
    obtain ⟨junitXml, _, read, h⟩ := returns_bind.mp h
    obtain ⟨report, rfl⟩ := returns_inspect.mp read
    obtain ⟨rfl, rfl⟩ := returns_pure.mp h
    cases report
    exact ⟨started, end_, sandbox, returns_act.mp ran, rfl⟩

/-- What a valid run has been. -/
structure RanToEnd (result : ExecutionResult) : Prop where
  inTime : result.timedOut = false
  exitCode : result.exitCode = some 0 ∨ result.exitCode = some 1
  junitXml : result.junitXml ≠ []
  nodes : result.nodes ≠ []

theorem ranToEnd_of_valid (h : result.validTestRun = true) : RanToEnd result := by
  rw [ExecutionResult.validTestRun, decide_eq_true_eq, ExecutionResult.harnessStatus] at h
  by_cases executed : result.executed = true
  · rw [executed] at h
    by_cases timedOut : result.timedOut = true
    · simp [timedOut] at h
    · by_cases ended : result.exitCode = some 0 ∨ result.exitCode = some 1
      · by_cases empty : result.junitXml = [] ∨ result.nodes.isEmpty = true
        · rcases ended with ended | ended <;> simp only [timedOut, ended, if_pos empty] at h <;> simp at h
        · rw [not_or, List.isEmpty_iff] at empty
          exact ⟨by simpa using timedOut, ended, empty.1, empty.2⟩
      · rw [not_or] at ended
        have spawned : result.exitCode ≠ some 0 ∧ result.exitCode ≠ some 1 := ended
        rw [if_pos spawned] at h
        split_ifs at h <;> simp at h
  · simp [executed] at h

theorem validTestRun_collected {backend : Backend} {command : List Str} {junitXml : Str} {end_ : ProcessEnd}
    (h : (collected host backend command 120 junitXml end_).validTestRun = true) :
    ∃ returncode stdout stderr, end_ = .exited returncode stdout stderr ∧ (returncode = 0 ∨ returncode = 1) ∧
      junitXml ≠ [] ∧ parseJunit host.classes host.testcases junitXml ≠ [] := by
  have ran := ranToEnd_of_valid h
  cases end_ with
  | notStarted message => cases ran.exitCode <;> contradiction
  | stopped earlyStdout earlyStderr stdout stderr => cases ran.inTime
  | exited returncode stdout stderr =>
    refine ⟨returncode, stdout, stderr, rfl, ?_, ran.junitXml, ran.nodes⟩
    exact ran.exitCode.imp Option.some.inj Option.some.inj

/-- The process is started in its environment, with a directory for its temporary files. -/
theorem startLocal_returns {command : List Str} {end_ : ProcessEnd}
    (shows_ : Shows executionRoot (sandboxNode source readme project test [lit "artifacts"]) t)
    (h : (startLocal host (executionRoot ++ [lit "repo"]) command 120).Returns t end_ t') :
    (∃ message, end_ = .notStarted message) ∨ ∃ started,
      Shows executionRoot (sandboxNode source readme project test [lit "tmp", lit "artifacts"]) started ∧
        host.popen ⟨command, executionRoot ++ [lit "repo"],
          childEnvironment host (executionRoot ++ [lit "repo"]) (executionRoot ++ [lit "tmp"]), 120⟩ started =
            (t', .ok end_) := by
  obtain ⟨made, started, tried, h⟩ := returns_bind.mp h
  obtain ⟨rfl, same⟩ := returns_attempt.mp tried
  cases environment : (safeEnvironment host (executionRoot ++ [lit "repo"]) t).result with
  | error e =>
    rw [environment] at h
    exact Or.inl ⟨_, (returns_pure.mp h).1.symm⟩
  | ok env =>
    rw [environment] at h
    obtain ⟨_, _, dir, built⟩ := returns_bind.mp (show Returns _ _ _ _ from ⟨environment, same⟩)
    obtain ⟨rfl, rfl⟩ := returns_pure.mp built
    rw [List.dropLast_concat] at dir h
    exact Or.inr ⟨_, shows_scratch shows_ (by decide) (by decide) dir, returns_act.mp h⟩

/-- What the local command gives came out of the sandbox, or is no valid run. -/
theorem neutralRun_local {executionBackend : Str} (hb : executionBackend ≠ lit "docker")
    (away : ¬ executionRoot <+: host.temporary)
    (shows_ : Shows executionRoot (sandboxNode source readme project test []) t)
    (h : (neutralRun host executionBackend executionRoot).Returns t result t') (valid : result.validTestRun = true) :
    ∃ started ended end_, Collected host executionBackend executionRoot
      (sandboxNode source readme project test (scratchOf executionBackend)) result started ended end_ := by
  rw [neutralRun, if_neg hb, runGeneratedPytest, if_neg (by decide), withTemporaryDirectory] at h
  obtain ⟨_, _, made, h⟩ := returns_bind.mp h
  obtain ⟨-, -, rfl⟩ := makeDir_returns.mp made
  have kept : Shows executionRoot (sandboxNode source readme project test []) (t.set host.temporary .dir) := by
    intro rest
    rw [Dict.get?_set_ne (fun he => away ⟨rest, he⟩), shows_ rest]
  obtain ⟨outcome, ran, attempted, h⟩ := returns_bind.mp h
  obtain ⟨_, _, -, h⟩ := returns_bind.mp h
  obtain ⟨rfl, -⟩ := returns_lift.mp h
  have body := returns_attempt.mp attempted
  simp only [Option.getD_some, List.dropLast_concat] at body
  obtain ⟨_, inside, made, h⟩ := returns_bind.mp body
  have first := shows_scratch kept (by decide) (by simp) made
  obtain ⟨end_, ended, begun, h⟩ := returns_bind.mp h
  obtain ⟨junitXml, _, read, h⟩ := returns_bind.mp h
  obtain ⟨report, rfl⟩ := returns_inspect.mp read
  cases report
  obtain ⟨rfl, -⟩ := returns_pure.mp h
  rcases startLocal_returns first begun with ⟨message, rfl⟩ | ⟨started, second, popen⟩
  · obtain ⟨_, _, _, none, -⟩ := validTestRun_collected valid
    cases none
  · refine ⟨started, ended, end_, ?_, ?_, ?_⟩
    · rwa [scratchOf, if_neg hb]
    · rwa [neutralSpawn, if_neg hb]
    · rw [backendOf, if_neg hb, neutralSpawn, if_neg hb]
      rfl

end Runs

section Sandboxes

variable {root parent caseDir : Path} {name caseId source : Str} {readme project test : Bytes} {t t' : FileTree}
  {host : Host} {executionBackend : Str}

/-- The variables that a test is given whatever the environment has. -/
def fixedVariables (executionBackend : Str) (executionRoot : Path) : List (Str × Str) :=
  if executionBackend = lit "docker" then restrictedVariables
  else runVariables (executionRoot ++ [lit "repo"]) (executionRoot ++ [lit "tmp"])

theorem get?_foldl_setVariable {entries : List (Str × Str)} {environment : Dict Str Str} {key value : Str}
    (h : (entries.foldl setVariable environment).get? key = some value) :
    (key, value) ∈ entries ∨ environment.get? key = some value := by
  induction entries generalizing environment with
  | nil => exact Or.inr h
  | cons entry entries ih =>
    rcases ih h with listed | before
    · exact Or.inl (List.mem_cons_of_mem _ listed)
    · rw [setVariable, Dict.get?_set] at before
      split at before
      next same =>
        cases before
        exact Or.inl (List.mem_cons.mpr (Or.inl (by rw [same])))
      next => exact Or.inr before

theorem CaseFiles.removed (files : CaseFiles caseDir t source readme project)
    (outside : Outside (parent ++ [name]) caseDir) :
    CaseFiles caseDir (removed (parent ++ [name]) t) source readme project where
  text := by
    rw [agentText, readText, readBytes_removed (outside _)]
    exact files.text
  readme := by rw [readBytes_removed (outside _), files.readme]
  project := by rw [readBytes_removed (outside _), files.project]

theorem CaseFiles.unique {source' : Str} {readme' project' : Bytes} (files : CaseFiles caseDir t source readme project)
    (files' : CaseFiles caseDir t source' readme' project') :
    source = source' ∧ readme = readme' ∧ project = project' :=
  ⟨Except.ok.inj (files.text.symm.trans files'.text), Except.ok.inj (files.readme.symm.trans files'.readme),
    Except.ok.inj (files.project.symm.trans files'.project)⟩

/-- What a valid execution has been: its process was started where nothing was but the exported case, the test and
empty directories, with no report among them and none but these variables, and the nodes come from the report that
it left. -/
structure SandboxExact (host : Host) (executionBackend : Str) (executionRoot : Path) (node : Path → Option Node)
    (run : Disk NeutralExecution) (t : FileTree) : Prop where
  ran : ∀ execution t', run.Returns t execution t' → execution.result.validTestRun = true →
    ∃ started ended returncode stdout stderr, Shows executionRoot node started ∧
      started.get? (neutralJunit executionRoot) = none ∧
      host.popen (neutralSpawn host executionBackend executionRoot) started =
        (ended, .ok (.exited returncode stdout stderr)) ∧ (returncode = 0 ∨ returncode = 1) ∧
      ∃ report, readText (neutralJunit executionRoot) ended = .ok report ∧ execution.result.nodes ≠ [] ∧
        execution.result.nodes = parseJunit host.classes host.testcases report
  environment : ∀ key value, (neutralSpawn host executionBackend executionRoot).env.get? key = some value →
    (key, value) ∈ fixedVariables executionBackend executionRoot ∨
      allowedNames.contains (host.upper key) = true ∧ host.environ.get? key = some value

theorem neutralSpawn_variables {executionRoot : Path} {key value : Str}
    (h : (neutralSpawn host executionBackend executionRoot).env.get? key = some value) :
    (key, value) ∈ fixedVariables executionBackend executionRoot ∨
      allowedNames.contains (host.upper key) = true ∧ host.environ.get? key = some value := by
  by_cases docker : executionBackend = lit "docker"
  · rw [neutralSpawn, if_pos docker, restrictedSpawn] at h
    rw [fixedVariables, if_pos docker]
    rcases get?_foldl_setVariable h with listed | none
    · exact Or.inl listed
    · simp at none
  · rw [neutralSpawn, if_neg docker] at h
    rw [fixedVariables, if_neg docker]
    simp only [childEnvironment] at h
    rcases get?_foldl_setVariable h with listed | passed
    · exact Or.inl listed
    · rw [Dict.get?_filterKeys] at passed
      split at passed
      next allowed => exact Or.inr ⟨allowed, passed⟩
      next => cases passed

theorem executeNeutral_collected (staged : Staged parent name (joinPath (generatedPath root) caseId) t)
    (files : CaseFiles (joinPath (generatedPath root) caseId) t source readme project)
    (away : executionBackend ≠ lit "docker" → ¬ parent ++ [name] <+: host.temporary) {execution : NeutralExecution}
    (h : (executeNeutral root caseId (parent ++ [name]) test
      (neutralRun host executionBackend)).Returns t execution t')
    (valid : execution.result.validTestRun = true) :
    ∃ started ended end_, Collected host executionBackend (parent ++ [name])
      (sandboxNode source readme project test (scratchOf executionBackend)) execution.result started ended end_ := by
  obtain ⟨-, source', readme', project', files', h⟩ := executeNeutral_exported staged h
  obtain ⟨rfl, rfl, rfl⟩ := (files.removed staged.outside).unique files'
  obtain ⟨_, _, read, h⟩ := returns_bind.mp h
  obtain ⟨-, rfl⟩ := returns_inspect.mp read
  obtain ⟨_, _, wrote, h⟩ := returns_bind.mp h
  obtain ⟨-, rfl⟩ := writeBytes_returns.mp wrote
  obtain ⟨result, ended, ran, h⟩ := returns_bind.mp h
  obtain ⟨_, _, -, h⟩ := returns_bind.mp h
  obtain ⟨_, _, -, h⟩ := returns_bind.mp h
  obtain ⟨rfl, -⟩ := returns_pure.mp h
  by_cases docker : executionBackend = lit "docker"
  · subst docker
    obtain ⟨started, end_, whole⟩ := neutralRun_restricted (shows_tested staged) ran
    exact ⟨started, ended, end_, whole⟩
  · exact neutralRun_local docker (away docker) (shows_tested staged) ran valid

/-- Whatever the case, a valid execution comes from a process in the sandbox, and from its report. -/
theorem neutral_sandbox (staged : Staged parent name (joinPath (generatedPath root) caseId) t)
    (files : CaseFiles (joinPath (generatedPath root) caseId) t source readme project)
    (away : executionBackend ≠ lit "docker" → ¬ parent ++ [name] <+: host.temporary) (test : Bytes) :
    SandboxExact host executionBackend (parent ++ [name])
      (sandboxNode source readme project test (scratchOf executionBackend))
      (executeNeutral root caseId (parent ++ [name]) test (neutralRun host executionBackend)) t where
  ran := by
    intro execution t' h valid
    obtain ⟨started, ended, end_, whole⟩ := executeNeutral_collected staged files away h valid
    have fresh : started.get? (neutralJunit (parent ++ [name])) = none := by
      rw [neutralJunit, List.append_assoc, whole.shows_]
      simp [sandboxNode]
    rw [whole.result] at valid ⊢
    obtain ⟨returncode, stdout, stderr, rfl, code, text, nodes⟩ := validTestRun_collected valid
    refine ⟨started, ended, returncode, stdout, stderr, whole.shows_, fresh, whole.popen, code, ?_⟩
    cases read : readText (neutralJunit (parent ++ [name])) ended with
    | error e =>
      rw [readJunit, read] at text
      exact absurd rfl text
    | ok report =>
      have same : readJunit (neutralJunit (parent ++ [name])) ended = report := by rw [readJunit, read]
      rw [same] at nodes ⊢
      exact ⟨report, rfl, nodes, rfl⟩
  environment := fun key value => neutralSpawn_variables

end Sandboxes

section Hook

/-- A machine on which the local command leaves its report. -/
def localHost : Host :=
  { containerHost with
    popen := fun _ t =>
      (Dict.set t (neutralJunit ([lit "work"] ++ [lit "neutral-execution"])) (.file (encoded (lit "<testsuites/>"))),
        .ok (.exited 0 [] []))
    temporary := [lit "edgecase-pytest"] }

def hookLocal : Disk NeutralExecution :=
  executeNeutral [] (lit "M01") ([lit "work"] ++ [lit "neutral-execution"]) [] (neutralRun localHost (lit "local"))

theorem hookLocal_valid : (hookLocal hookTree).result.toOption.any (fun e => e.result.validTestRun) = true := by
  decide +kernel

theorem neutral_sandbox_hook :
    SandboxExact localHost (lit "local") ([lit "work"] ++ [lit "neutral-execution"])
      (sandboxNode (lit "price = 1\n") (encoded neutralReadme) (encoded pyproject) [] (scratchOf (lit "local")))
      hookLocal hookTree ∧
      ∃ execution t', hookLocal.Returns hookTree execution t' ∧ execution.result.validTestRun = true := by
  obtain ⟨execution, ran, valid⟩ := returns_of_any hookLocal_valid
  refine ⟨?_, execution, _, ran, valid⟩
  exact neutral_sandbox (hookTree_runs.staged safeName_hook hookTree_shows hook_listed) hook_files
    (fun _ => by decide) []

end Hook

end EdgecaseForge

import EdgecaseForge.CaseRuns
import EdgecaseForge.DifferentialNodes

namespace EdgecaseForge

open Text Effect Program

/-- `hashlib.sha256(code.encode()).hexdigest()` of a code that can be written. -/
def testHash (code : Str) : Str :=
  Sha256.sha256 ((utf8Encode code).getD [])

def findingNames (findings : List Finding) : List Str :=
  findings.map fun finding => baseTestName finding.testName

/-- What makes the two runs of a test a candidate kill. -/
structure CandidateKill (caseId : Str) (clean mutant : NeutralExecution) (names : List Str)
    (testSha256 : Str) : Prop where
  mutated : caseId ≠ cleanControl
  testKept : clean.testAfter = testSha256 ∧ mutant.testAfter = testSha256
  repositoriesKept : clean.repoBefore = clean.repoAfter ∧ mutant.repoBefore = mutant.repoAfter
  complete : clean.result.harnessStatus = .complete ∧ mutant.result.harnessStatus = .complete
  node : ∃ key, KillingNode clean.result.nodes mutant.result.nodes names key

section Differential

variable {caseId testSha256 : Str} {findings : List Json}

theorem scoreableHarness_iff {result : ExecutionResult} :
    result.scoreableHarness = true ↔ result.harnessStatus = .complete := by
  simp [ExecutionResult.scoreableHarness]

theorem caseDifferential_kill {clean mutant : NeutralExecution} :
    (caseDifferential caseId ⟨clean, some mutant⟩ findings testSha256).caseCandidateKill = true ↔
      (clean.testAfter = testSha256 ∧ mutant.testAfter = testSha256) ∧
      (clean.repoBefore = clean.repoAfter ∧ mutant.repoBefore = mutant.repoAfter) ∧
      (clean.result.harnessStatus = .complete ∧ mutant.result.harnessStatus = .complete) ∧
      ∃ key, KillingNode clean.result.nodes mutant.result.nodes (findings.map findingBase) key := by
  have kept := integrityErrors_eq_nil clean mutant testSha256
  unfold caseDifferential
  split
  next h =>
    obtain ⟨test, repositories⟩ := kept.mp h
    rw [Executions.cleanResult, Executions.mutantResult, Option.map_some, buildDifferential_kill,
      scoreableHarness_iff, scoreableHarness_iff]
    constructor
    · rintro ⟨first, second, node⟩
      exact ⟨test, repositories, ⟨first, second⟩, node⟩
    · rintro ⟨-, -, ⟨first, second⟩, node⟩
      exact ⟨first, second, node⟩
  next h =>
    constructor
    · intro hk
      cases hk
    · rintro ⟨test, repositories, -⟩
      exact absurd (kept.mpr ⟨test, repositories⟩) h

theorem caseDifferential_none {clean : NeutralExecution} :
    (caseDifferential caseId ⟨clean, none⟩ findings testSha256).caseCandidateKill = false := by
  unfold caseDifferential
  split
  · exact buildDifferential_none
  · rfl

@[simp] theorem findingBase_payload (generated : Bool) (finding : Finding) :
    findingBase (finding.payload generated) = baseTestName finding.testName := by
  simp [findingBase, findingText, Finding.payload, Json.pyStr, List.lookup_cons]

end Differential

section Run

variable {context : SuiteContext} {key : CaseKey} {input : CaseInput} {expectedCase row report : Json}
  {agentRepoSha256 : Sha256.Digest} {relative : Path} {t t' : FileTree}

theorem completedRow_kill {source agent : Sha256.Digest} {test differentialSha256 artifacts : Str}
    {runs : Executions} {differential : Differential} {findings : Nat}
    {accounting : List (String × Json)} :
    (completedRow key source agent test relative differentialSha256 artifacts runs differential
        findings accounting).get (lit "candidate_kill") = .bool differential.caseCandidateKill ∧
      (completedRow key source agent test relative differentialSha256 artifacts runs differential
        findings accounting).get (lit "test_sha256") = .str test := by
  simp [completedRow, rowHead, List.lookup_cons]

/-- The row of a case whose scan wrote a test, in terms of what the scan reported. -/
theorem runCase_tested {analysis : Analysis} {result : LLMResult}
    (response : input.scan.response = .ok (analysis, result)) (generates : analysis.generates = true)
    (h : (runCase context key expectedCase input).Returns t row t') :
    ∃ runs, Executed key.caseId input runs ∧
      row.get (lit "candidate_kill") = .bool (caseDifferential key.caseId runs
        (analysis.findings.map (Finding.payload analysis.generates))
        (testHash analysis.generatedTestCode)).caseCandidateKill ∧
      row.get (lit "test_sha256") = .str (testHash analysis.generatedTestCode) := by
  cases runCase_returns h with
  | modelError error source agent failed =>
    rw [response] at failed
    cases failed
  | noTest analysis' result' source agent artifacts accounting before response' scanned generates' =>
    cases response.symm.trans response'
    rw [generates] at generates'
    cases generates'
  | tested analysis' result' agent before scannedTree response' scanned run =>
    cases response.symm.trans response'
    obtain ⟨_, _, response'', -, -, test⟩ := scan_returns scanned
    cases response.symm.trans response''
    obtain ⟨code, encoded, stored⟩ := test generates
    rw [List.append_assoc] at stored
    have hash : run.testSha256 = testHash analysis.generatedTestCode := by
      have hashed := run.hashed
      simp only [fileSha256, FileTree.readBytes, stored, Except.ok_bind] at hashed
      rw [testHash, encoded]
      exact (Except.ok.inj hashed).symm
    have findings : run.findings = analysis.findings.map (Finding.payload analysis.generates) := by
      have listed := run.listed
      simpa [reportPayload, List.lookup_cons] using listed.symm
    obtain ⟨kill, test⟩ := completedRow_kill
    rw [run.row_eq, ← hash, ← findings]
    exact ⟨run.runs, run.executed, kill, test⟩

/-- The evaluation of one case as another order of nodes and findings would meet it. -/
structure Reordered (input input' : CaseInput) : Prop where
  analysis : ∀ analysis result, input.scan.response = .ok (analysis, result) →
    ∃ analysis' result', input'.scan.response = .ok (analysis', result') ∧
      analysis'.generatedTestCode = analysis.generatedTestCode ∧
      analysis.findings.Perm analysis'.findings
  clean : ∀ clean, input.clean = .ok clean → ∃ nodes, clean.result.nodes.Perm nodes ∧
    input'.clean = .ok { clean with result := { clean.result with nodes := nodes } }
  mutant : ∀ mutant, input.mutant = .ok mutant → ∃ nodes, mutant.result.nodes.Perm nodes ∧
    input'.mutant = .ok { mutant with result := { mutant.result with nodes := nodes } }

theorem harnessStatus_perm {result : ExecutionResult} {nodes : List PytestNodeResult}
    (h : result.nodes.Perm nodes) :
    ({ result with nodes := nodes } : ExecutionResult).harnessStatus = result.harnessStatus := by
  simp only [ExecutionResult.harnessStatus, List.isEmpty_iff_length_eq_zero, h.length_eq, h.any_eq]

theorem CandidateKill.perm {caseId testSha256 : Str} {clean mutant : NeutralExecution}
    {names names' : List Str} {nodes nodes' : List PytestNodeResult}
    (h : CandidateKill caseId clean mutant names testSha256) (hc : clean.result.nodes.Perm nodes)
    (hm : mutant.result.nodes.Perm nodes') (hn : names.Perm names') :
    CandidateKill caseId { clean with result := { clean.result with nodes := nodes } }
      { mutant with result := { mutant.result with nodes := nodes' } } names' testSha256 where
  mutated := h.mutated
  testKept := h.testKept
  repositoriesKept := h.repositoriesKept
  complete := ⟨(harnessStatus_perm hc).trans h.complete.1, (harnessStatus_perm hm).trans h.complete.2⟩
  node := h.node.imp fun _ node => node.perm hc hm hn

theorem runCase_kill {analysis : Analysis} {result : LLMResult}
    (response : input.scan.response = .ok (analysis, result)) (generates : analysis.generates = true)
    (h : (runCase context key expectedCase input).Returns t row t') :
    row.get (lit "candidate_kill") = .bool true ↔
      ∃ clean mutant, input.clean = .ok clean ∧ input.mutant = .ok mutant ∧
        CandidateKill key.caseId clean mutant (findingNames analysis.findings)
          (testHash analysis.generatedTestCode) := by
  obtain ⟨⟨clean, mutant⟩, ⟨cleaned, mutated⟩, kill, -⟩ := runCase_tested response generates h
  have names : (analysis.findings.map (Finding.payload analysis.generates)).map findingBase =
      findingNames analysis.findings := by
    simp [findingNames]
  rw [kill, Json.bool.injEq]
  split at mutated
  next hc =>
    cases mutated
    rw [caseDifferential_none]
    constructor
    · rintro ⟨⟩
    · rintro ⟨_, _, -, -, kills⟩
      exact absurd hc kills.mutated
  next hc =>
    obtain ⟨mutant', hm, rfl⟩ := mutated
    rw [caseDifferential_kill, names]
    constructor
    · rintro ⟨test, repositories, complete, node⟩
      exact ⟨clean, mutant', cleaned, hm, hc, test, repositories, complete, node⟩
    · rintro ⟨clean', mutant'', hc', hm', kills⟩
      cases cleaned.symm.trans hc'
      cases hm.symm.trans hm'
      exact ⟨kills.testKept, kills.repositoriesKept, kills.complete, kills.node⟩

/-- The row of a tested case reports a candidate kill exactly if a node that ran once on each side
tells the mutant from the clean control, in whatever order nodes and findings came. -/
theorem candidate_kill_exact {analysis : Analysis} {result : LLMResult}
    (response : input.scan.response = .ok (analysis, result)) (generates : analysis.generates = true)
    (h : (runCase context key expectedCase input).Returns t row t') :
    (row.get (lit "candidate_kill") = .bool true ↔
      ∃ clean mutant, input.clean = .ok clean ∧ input.mutant = .ok mutant ∧
        CandidateKill key.caseId clean mutant (findingNames analysis.findings)
          (testHash analysis.generatedTestCode)) ∧
    row.get (lit "test_sha256") = .str (testHash analysis.generatedTestCode) ∧
    ∀ input' row' after after', Reordered input input' →
      (runCase context key expectedCase input').Returns after row' after' →
      row'.get (lit "candidate_kill") = row.get (lit "candidate_kill") := by
  obtain ⟨runs, ⟨cleaned, mutated⟩, kill, test⟩ := runCase_tested response generates h
  have exact_ := runCase_kill response generates h
  refine ⟨exact_, test, fun input' row' after after' reordered h' => ?_⟩
  obtain ⟨analysis', result', response', code, findings⟩ := reordered.analysis _ _ response
  have generates' : analysis'.generates = true := by
    rw [Analysis.generates, code]
    exact generates
  have exact' := runCase_kill response' generates' h'
  obtain ⟨runs', -, kill', -⟩ := runCase_tested response' generates' h'
  have names : (findingNames analysis.findings).Perm (findingNames analysis'.findings) :=
    findings.map _
  obtain ⟨nodes, hc, clean'⟩ := reordered.clean _ cleaned
  rw [kill] at exact_ ⊢
  rw [kill'] at exact' ⊢
  rw [Json.bool.injEq, Bool.eq_iff_iff, ← Json.bool.injEq, exact', ← Json.bool.injEq, exact_, code]
  constructor
  · rintro ⟨c, m, hc', hm', kills⟩
    rw [if_neg kills.mutated] at mutated
    obtain ⟨mutant, hm, -⟩ := mutated
    obtain ⟨nodes', hp, mutant'⟩ := reordered.mutant _ hm
    cases clean'.symm.trans hc'
    cases mutant'.symm.trans hm'
    exact ⟨_, _, cleaned, hm, kills.perm hc.symm hp.symm names.symm⟩
  · rintro ⟨c, m, hc', hm', kills⟩
    cases cleaned.symm.trans hc'
    obtain ⟨nodes', hp, mutant'⟩ := reordered.mutant _ hm'
    exact ⟨_, _, clean', mutant', kills.perm hc hp names⟩

end Run

section Example

def killContext : SuiteContext where
  suiteDir := [lit "suite"]
  sourceHashes := Dict.empty.set (lit "M01") (Sha256.digest [])
  manifestSha256 := lit "cd"

def killAnalysis : Analysis where
  summary := lit "s"
  findings := [⟨lit "t", lit "low", lit "e", lit "c", [], lit "f", lit "test_a", none⟩]
  generatedTestCode := lit "def test_a(): pass"
  extension := .baseline

def killResult : LLMResult where
  content := .null
  provider := lit "p"
  model := lit "m"
  latencySeconds := .zero

def killNode (outcome : String) (failureKind : Option Str) : PytestNodeResult where
  nodeId := lit "test_a"
  testName := lit "test_a"
  outcome := lit outcome
  failureKind := failureKind

def killSide (node : PytestNodeResult) (exitCode : Int) : NeutralExecution where
  result :=
    { executed := true, exitCode := some exitCode, stdout := [], stderr := [], nodes := [node]
      junitXml := lit "x" }
  repoBefore := lit "r"
  repoAfter := lit "r"
  testAfter := testHash killAnalysis.generatedTestCode

def killInput : CaseInput where
  agentRepoSha256 := .ok (Sha256.digest [])
  scan :=
    { runId := firstRunId
      response := .ok (killAnalysis, killResult)
      runtimeSeconds := .zero
      files := ⟨[], [], [], []⟩ }
  clean := .ok (killSide (killNode "passed" none) 0)
  mutant := .ok (killSide (killNode "failed" (some (lit "assertion_failure"))) 1)

theorem candidate_kill_exact_killed : ∃ row t',
    (runCase killContext ⟨1, lit "M01"⟩ .null killInput).Returns Dict.empty row t' ∧
      row.get (lit "candidate_kill") = .bool true := by
  have returned : ∃ row, (runCase killContext ⟨1, lit "M01"⟩ .null killInput).Returns Dict.empty row
      (runCase killContext ⟨1, lit "M01"⟩ .null killInput Dict.empty).state :=
    exists_returns (by decide +kernel)
  obtain ⟨row, h⟩ := returned
  refine ⟨row, _, h, ((candidate_kill_exact rfl (by decide) h).1).mpr
    ⟨_, _, rfl, rfl, by decide, ⟨rfl, rfl⟩, ⟨rfl, rfl⟩, by decide, lit "test_a",
      killNode "passed" none, killNode "failed" (some (lit "assertion_failure")), ?_⟩⟩
  exact ⟨rfl, by decide, by decide, rfl, by decide, by decide, by decide⟩

end Example

end EdgecaseForge

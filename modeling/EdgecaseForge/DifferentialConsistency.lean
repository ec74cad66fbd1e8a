import EdgecaseForge.DifferentialNodes

namespace EdgecaseForge

open Text

/-- The nodes of both runs of a test. -/
def Executions.allNodes (runs : Executions) : List PytestNodeResult :=
  runs.cleanResult.nodes ++ (runs.mutantResult.map (·.nodes)).getD []

/-- A differential whose lists and flags say of its nodes what the nodes say themselves. -/
structure Consistent (runs : Executions) (differential : Differential) : Prop where
  keys : ∀ key, key ∈ differential.nodes.map (·.nodeKey) ↔
    ∃ node ∈ runs.allNodes, node.nodeId = key
  increasing : (differential.nodes.map (·.nodeKey)).Pairwise (· < ·)
  candidates : differential.candidateNodes = nodesClassified .candidateKill differential.nodes
  falsePositives :
    differential.cleanFalsePositiveNodes = nodesClassified .cleanFalsePositive differential.nodes
  adjudication : ∀ node ∈ differential.nodes,
    node.adjudication = .pending ↔ node.classification = .candidateKill
  kill : differential.caseCandidateKill = true → differential.candidateNodes ≠ []
  apart : ∀ node ∈ differential.nodes, isInvalidNode node = true →
    node.nodeKey ∉ differential.cleanFalsePositiveNodes

/-- A node that came once in the clean run failed an assertion there, and the harnesses let it
count. -/
def CleanFailure (runs : Executions) : Prop :=
  runs.cleanResult.scoreableHarness = true ∧
    (∀ mutant, runs.mutantResult = some mutant → mutant.scoreableHarness = true) ∧
    ∃ node, nodesNamed node.nodeId runs.cleanResult.nodes = [node] ∧ node.assertionFailure = true

section Keys

variable {clean mutant : Dict Str PytestNodeResult} {nodes : List PytestNodeResult} {key : Str}

theorem nodeKeys_increasing (clean mutant : Dict Str PytestNodeResult) :
    (nodeKeys clean mutant).Pairwise (· < ·) := by
  have once : (nodeKeys clean mutant).Nodup :=
    (List.perm_insertionSort _ _).nodup_iff.mpr (List.nodup_dedup _)
  have sorted : (nodeKeys clean mutant).Pairwise (· ≤ ·) := List.pairwise_insertionSort _ _
  exact (sorted.and once).imp fun ⟨le, ne⟩ => lt_of_le_of_ne le ne

theorem uniqueNodes_isSome :
    ((uniqueNodes nodes).get? key).isSome ↔ ∃ node ∈ nodes, node.nodeId = key := by
  have last : (nodesNamed key nodes).getLast?.isSome ↔ ∃ node ∈ nodes, node.nodeId = key := by
    rw [List.getLast?_isSome]
    simp [nodesNamed]
  rw [get?_uniqueNodes]
  split <;> simp [last]

theorem mem_nodesClassified {classification : Classification} {records : List NodeRecord} :
    key ∈ nodesClassified classification records ↔
      ∃ node ∈ records, node.classification = classification ∧ node.nodeKey = key := by
  simp [nodesClassified, and_assoc]

end Keys

section Classify

variable {clean mutant : Option PytestNodeResult} {maps cleanOnly cleanValid mutantValid : Bool}

/-- The one way through the classification that ends in a false positive. -/
theorem classify_cleanFalsePositive :
    (classify clean mutant maps cleanOnly cleanValid mutantValid).1 = .cleanFalsePositive ↔
      cleanValid = true ∧ (cleanOnly = false → mutantValid = true) ∧
        ∃ c, clean = some c ∧ c.assertionFailure = true := by
  constructor
  · intro h
    unfold classify at h
    split at h
    next => cases h
    next hc =>
      split at h
      next => cases h
      next hm =>
        cases clean with
        | none => cases h
        | some c =>
          dsimp only at h
          split at h
          next ha =>
            refine ⟨by simpa using hc, fun both => ?_, c, rfl, ha⟩
            simpa [both] using hm
          next =>
            split_ifs at h
            cases mutant with
            | none => cases h
            | some m =>
              dsimp only at h
              split_ifs at h
  · rintro ⟨rfl, valid, c, rfl, ha⟩
    cases cleanOnly with
    | true => simp [classify, ha]
    | false => simp [classify, ha, valid rfl]

end Classify

section Build

variable {caseId testSha256 : Str} {clean : ExecutionResult} {mutant : Option ExecutionResult}
  {findings : List Json} {runs : Executions}

theorem buildDifferential_keys :
    (buildDifferential caseId clean mutant findings testSha256).nodes.map (·.nodeKey) =
      nodeKeys (uniqueNodes clean.nodes)
        ((mutant.map fun result => uniqueNodes result.nodes).getD Dict.empty) := by
  simp [buildDifferential, classifyNode, Function.comp_def]

/-- What is built is consistent before anything is invalidated. -/
theorem buildDifferential_consistent :
    Consistent runs (buildDifferential caseId runs.cleanResult runs.mutantResult findings
      testSha256) := by
  have increasing : ((buildDifferential caseId runs.cleanResult runs.mutantResult findings
      testSha256).nodes.map (·.nodeKey)).Pairwise (· < ·) := by
    rw [buildDifferential_keys]
    exact nodeKeys_increasing _ _
  refine ⟨fun key => ?_, increasing, rfl, rfl, ?_, ?_, ?_⟩
  · rw [buildDifferential_keys, mem_nodeKeys, uniqueNodes_isSome, Executions.allNodes]
    cases runs.mutantResult with
    | none => simp [Dict.get?, Dict.empty]
    | some result => simp [uniqueNodes_isSome, or_and_right, exists_or]
  · intro node hn
    obtain ⟨key, -, rfl⟩ := List.mem_map.mp hn
    simp [classifyNode]
  · intro hk
    obtain ⟨-, some⟩ := Bool.and_eq_true_iff.mp hk
    simpa [buildDifferential] using some
  · intro node hn invalid listed
    obtain ⟨other, ho, classified, same⟩ := mem_nodesClassified.mp listed
    have once := List.inj_on_of_nodup_map (increasing.imp fun lt => ne_of_lt lt)
    rw [once ho hn same] at classified
    simp [isInvalidNode, classified] at invalid

theorem cleanFalsePositiveNodes_eq_nil :
    (buildDifferential caseId runs.cleanResult runs.mutantResult findings
      testSha256).cleanFalsePositiveNodes = [] ↔ ¬ CleanFailure runs := by
  have listed : (buildDifferential caseId runs.cleanResult runs.mutantResult findings
      testSha256).cleanFalsePositiveNodes ≠ [] ↔ CleanFailure runs := by
    constructor
    · intro some
      obtain ⟨key, hk⟩ := List.exists_mem_of_ne_nil _ some
      obtain ⟨node, hn, classified, -⟩ := mem_nodesClassified.mp hk
      obtain ⟨key, -, rfl⟩ := List.mem_map.mp hn
      obtain ⟨valid, both, c, found, failed⟩ := classify_cleanFalsePositive.mp classified
      have once := (uniqueNodes_eligible (assertionFailure_eligible failed)).mp found
      have named : c.nodeId = key := by
        have mem : c ∈ nodesNamed key runs.cleanResult.nodes := by rw [once]; simp
        simpa [nodesNamed] using (List.mem_filter.mp mem).2
      refine ⟨valid, fun mutant hm => ?_, c, by rwa [named], failed⟩
      rw [hm] at both
      exact both rfl
    · rintro ⟨valid, both, c, once, failed⟩
      have found := (uniqueNodes_eligible (assertionFailure_eligible failed)).mpr once
      have key : c.nodeId ∈ nodeKeys (uniqueNodes runs.cleanResult.nodes)
          ((runs.mutantResult.map fun result => uniqueNodes result.nodes).getD Dict.empty) :=
        mem_nodeKeys.mpr (Or.inl (by rw [found]; rfl))
      refine List.ne_nil_of_mem (mem_nodesClassified.mpr ⟨_, List.mem_map_of_mem key, ?_, rfl⟩)
      refine classify_cleanFalsePositive.mpr ⟨valid, fun paired => ?_, c, found, failed⟩
      cases hm : runs.mutantResult with
      | none =>
        rw [hm] at paired
        cases paired
      | some mutant => exact both mutant hm
  rw [← listed, not_not]

end Build

section Invalidate

variable {runs : Executions} {differential : Differential} {errors : List Str}

theorem invalidateDifferential_keys :
    (invalidateDifferential differential errors).nodes.map (·.nodeKey) =
      differential.nodes.map (·.nodeKey) := by
  simp [invalidateDifferential, invalidateNode, Function.comp_def]

theorem nodesClassified_invalidated {classification : Classification} (h : classification ≠ .invalid) :
    nodesClassified classification (invalidateDifferential differential errors).nodes = [] := by
  simp [nodesClassified, invalidateDifferential, invalidateNode, Ne.symm h]

/-- Invalidating keeps the list of false positives, and no node is one any more. -/
theorem invalidateDifferential_consistent (h : Consistent runs differential) :
    Consistent runs (invalidateDifferential differential errors) ↔
      differential.cleanFalsePositiveNodes = [] := by
  constructor
  · intro hc
    have listed := hc.falsePositives
    rw [nodesClassified_invalidated (by decide)] at listed
    exact listed
  · intro none
    refine ⟨fun key => ?_, ?_, ?_, ?_, fun node hn => ?_, ?_, fun node hn _ => ?_⟩
    · rw [invalidateDifferential_keys]
      exact h.keys key
    · rw [invalidateDifferential_keys]
      exact h.increasing
    · rw [nodesClassified_invalidated (by decide)]
      rfl
    · rw [nodesClassified_invalidated (by decide)]
      exact none
    · obtain ⟨_, -, rfl⟩ := List.mem_map.mp hn
      simp [invalidateNode]
    · intro kill
      cases kill
    · change node.nodeKey ∉ differential.cleanFalsePositiveNodes
      rw [none]
      exact List.not_mem_nil

/-- The differential of a case is consistent exactly if no integrity error met a false positive. -/
theorem caseDifferential_consistent (caseId : Str) (runs : Executions) (findings : List Json)
    (testSha256 : Str) : Consistent runs (caseDifferential caseId runs findings testSha256) ↔
      (runs.integrityErrors testSha256 = [] ∨ ¬ CleanFailure runs) := by
  have built : Consistent runs (buildDifferential caseId runs.cleanResult runs.mutantResult findings
      testSha256) := buildDifferential_consistent
  unfold caseDifferential
  split
  next kept => exact ⟨fun _ => Or.inl kept, fun _ => built⟩
  next changed =>
    rw [invalidateDifferential_consistent built, cleanFalsePositiveNodes_eq_nil]
    exact ⟨Or.inr, fun h => h.resolve_left changed⟩

end Invalidate

section Example

def failedNode : PytestNodeResult where
  nodeId := lit "test_a"
  testName := lit "test_a"
  outcome := lit "failed"
  failureKind := some (lit "assertion_failure")

/-- The clean control failed an assertion, and its run changed the repository. -/
def changedRuns : Executions where
  clean :=
    { result :=
        { executed := true, exitCode := some 1, stdout := [], stderr := [], nodes := [failedNode]
          junitXml := lit "x" }
      repoBefore := lit "r"
      repoAfter := lit "s"
      testAfter := lit "t" }
  mutant := none

theorem caseDifferential_stale :
    ¬ Consistent changedRuns (caseDifferential (lit "C00") changedRuns [] (lit "t")) ∧
      (caseDifferential (lit "C00") changedRuns [] (lit "t")).nodes.map isInvalidNode = [true] ∧
      (caseDifferential (lit "C00") changedRuns [] (lit "t")).cleanFalsePositiveNodes =
        [lit "test_a"] := by
  refine ⟨fun h => ?_, by decide, by decide⟩
  have listed := h.falsePositives
  revert listed
  decide

end Example

end EdgecaseForge

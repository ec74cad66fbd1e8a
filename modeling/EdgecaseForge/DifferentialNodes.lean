import EdgecaseForge.CaseEvaluation

namespace EdgecaseForge

open Text

section UniqueNodes

variable {nodes : List PytestNodeResult} {key : Str}

def nodesNamed (key : Str) (nodes : List PytestNodeResult) : List PytestNodeResult :=
  nodes.filter fun node => node.nodeId = key

theorem nodesNamed_append (key : Str) (nodes : List PytestNodeResult) (node : PytestNodeResult) :
    nodesNamed key (nodes ++ [node]) =
      nodesNamed key nodes ++ if node.nodeId = key then [node] else [] := by
  by_cases h : node.nodeId = key <;> simp [nodesNamed, h]

/-- Indexing keeps the last node of each key and lists the keys that came again. -/
theorem foldl_indexNode (nodes : List PytestNodeResult) (key : Str) :
    ((nodes.foldl indexNode (Dict.empty, [])).1.get? key = (nodesNamed key nodes).getLast?) ∧
      (key ∈ (nodes.foldl indexNode (Dict.empty, [])).2 ↔ 2 ≤ (nodesNamed key nodes).length) := by
  induction nodes using List.reverseRecOn with
  | nil => simp [nodesNamed]
  | append_singleton nodes node ih =>
    obtain ⟨last, duplicate⟩ := ih
    rw [List.foldl_append, nodesNamed_append]
    simp only [List.foldl_cons, List.foldl_nil, indexNode]
    by_cases h : node.nodeId = key
    · subst h
      have seen : ((nodes.foldl indexNode (Dict.empty, [])).1.get? node.nodeId).isSome =
          decide (1 ≤ (nodesNamed node.nodeId nodes).length) := by
        rw [last]
        cases nodesNamed node.nodeId nodes <;> simp
      refine ⟨by simp, ?_⟩
      simp only [seen, decide_eq_true_eq, if_true, List.length_append, List.length_singleton]
      split
      next hs => simp [hs]
      next hs =>
        rw [duplicate]
        omega
    · refine ⟨by rw [Dict.get?_set_ne (Ne.symm h), last]; simp [h], ?_⟩
      have other : ∀ keys : List Str, key ∈ keys ++ [node.nodeId] ↔ key ∈ keys := by
        simp [Ne.symm h]
      simp only [if_neg h, List.append_nil, ← duplicate]
      split
      · exact other _
      · rfl

theorem get?_markDuplicate (indexed : Dict Str PytestNodeResult) (again key : Str) :
    (markDuplicate indexed again).get? key =
      if again = key then (indexed.get? key).map (duplicateNode key) else indexed.get? key := by
  unfold markDuplicate
  by_cases h : again = key
  · subst h
    cases hg : indexed.get? again <;> simp [hg]
  · cases hg : indexed.get? again with
    | none => simp [h]
    | some original => simp [h, Dict.get?_set_ne (Ne.symm h)]

theorem duplicateNode_duplicateNode (key : Str) (node : PytestNodeResult) :
    duplicateNode key (duplicateNode key node) = duplicateNode key node := rfl

theorem get?_foldl_markDuplicate (indexed : Dict Str PytestNodeResult) (duplicates : List Str)
    (key : Str) :
    (duplicates.foldl markDuplicate indexed).get? key =
      if key ∈ duplicates then (indexed.get? key).map (duplicateNode key) else indexed.get? key := by
  induction duplicates generalizing indexed with
  | nil => simp
  | cons again duplicates ih =>
    rw [List.foldl_cons, ih, get?_markDuplicate]
    by_cases h : again = key
    · subst h
      cases indexed.get? again <;> simp [duplicateNode_duplicateNode]
    · simp [h, Ne.symm h]

/-- A key that came once has its node, one that came more often an error. -/
theorem get?_uniqueNodes (nodes : List PytestNodeResult) (key : Str) :
    (uniqueNodes nodes).get? key =
      if 2 ≤ (nodesNamed key nodes).length then
        (nodesNamed key nodes).getLast?.map (duplicateNode key)
      else (nodesNamed key nodes).getLast? := by
  obtain ⟨last, duplicate⟩ := foldl_indexNode nodes key
  unfold uniqueNodes
  rw [get?_foldl_markDuplicate, last]
  simp only [duplicate]

theorem duplicateNode_eligible (key : Str) (node : PytestNodeResult) :
    (duplicateNode key node).eligibleForDifferential = false := by
  simp [PytestNodeResult.eligibleForDifferential, PytestNodeResult.passed,
    PytestNodeResult.assertionFailure, duplicateNode]

/-- Only a key that came exactly once has a node that counts. -/
theorem uniqueNodes_eligible {node : PytestNodeResult} (he : node.eligibleForDifferential = true) :
    (uniqueNodes nodes).get? key = some node ↔ nodesNamed key nodes = [node] := by
  rw [get?_uniqueNodes]
  split
  next h =>
    constructor
    · intro hm
      obtain ⟨original, -, rfl⟩ := Option.map_eq_some_iff.mp hm
      rw [duplicateNode_eligible] at he
      cases he
    · intro hs
      simp [hs] at h
  next h =>
    cases hn : nodesNamed key nodes with
    | nil => simp
    | cons first rest =>
      cases rest with
      | nil => simp
      | cons second rest => simp [hn] at h

end UniqueNodes

section FindingIndexes

variable {findings : List FindingRecord} {name : Str}

def findingsNamed (name : Str) (findings : List FindingRecord) : List FindingRecord :=
  findings.filter fun finding => finding.baseTestName = name

/-- The index of a name lists the findings with it in their order. -/
theorem get?_findingIndexes (findings : List FindingRecord) (name : Str) :
    ((findingIndexes findings).get? name).getD [] =
      if name = [] then [] else (findingsNamed name findings).map (·.findingIndex) := by
  unfold findingIndexes
  induction findings using List.reverseRecOn with
  | nil => simp [findingsNamed]
  | append_singleton findings finding ih =>
    have named : findingsNamed name (findings ++ [finding]) =
        findingsNamed name findings ++ if finding.baseTestName = name then [finding] else [] := by
      by_cases h : finding.baseTestName = name <;> simp [findingsNamed, h]
    rw [List.foldl_append, named]
    simp only [List.foldl_cons, List.foldl_nil, addFindingIndex]
    by_cases empty : finding.baseTestName = []
    · rw [if_pos empty, ih]
      by_cases hn : name = []
      · simp [hn]
      · have : finding.baseTestName ≠ name := fun h => hn (h.symm.trans empty)
        simp [this]
    · rw [if_neg empty, Dict.get?_set]
      by_cases hn : name = finding.baseTestName
      · subst hn
        rw [if_neg empty] at ih
        simp [ih, empty]
      · rw [if_neg hn, ih]
        simp [Ne.symm hn]

end FindingIndexes

section Classify

variable {clean mutant : Option PytestNodeResult} {maps cleanOnly cleanValid mutantValid : Bool}

theorem assertionFailure_eligible {node : PytestNodeResult} (h : node.assertionFailure = true) :
    node.eligibleForDifferential = true := by
  simp [PytestNodeResult.eligibleForDifferential, h]

/-- The one way through the classification that ends in a candidate kill. -/
theorem classify_candidateKill :
    (classify clean mutant maps cleanOnly cleanValid mutantValid).1 = .candidateKill ↔
      cleanValid = true ∧ cleanOnly = false ∧ mutantValid = true ∧ maps = true ∧
        ∃ c m, clean = some c ∧ c.passed = true ∧ c.assertionFailure = false ∧
          mutant = some m ∧ m.assertionFailure = true := by
  constructor
  · intro h
    unfold classify at h
    split at h
    next => cases h
    next hc =>
      have valid : cleanValid = true := by simpa using hc
      split at h
      next => cases h
      next hm =>
        cases clean with
        | none => cases h
        | some c =>
          cases mutant with
          | none =>
            dsimp only at h
            split_ifs at h
          | some m =>
            dsimp only at h
            split_ifs at h with ha he ho hi hk hf
            have passed : c.passed = true := by
              simpa [PytestNodeResult.eligibleForDifferential, ha] using he
            rw [Bool.and_eq_true] at hk
            exact ⟨valid, by simpa using ho, by simpa [ho] using hm, hk.2, c, m, rfl, passed,
              by simpa using ha, rfl, hk.1⟩
  · rintro ⟨rfl, rfl, rfl, rfl, c, m, rfl, hp, ha, rfl, hm⟩
    have hc : c.eligibleForDifferential = true := by
      simp [PytestNodeResult.eligibleForDifferential, hp]
    simp [classify, ha, hc, hm, assertionFailure_eligible hm]

end Classify

section Build

variable {caseId testSha256 : Str} {clean : ExecutionResult} {findings : List Json}

def findingBase (finding : Json) : Str :=
  baseTestName (findingText finding "test_name")

/-- A finding keeps its name in the table, whatever its index. -/
theorem length_findingsNamed (findings : List Json) (name : Str) :
    (findingsNamed name (findings.mapIdx fun index finding => findingRecord finding index)).length =
      (findings.map findingBase).count name := by
  have names : (findings.mapIdx fun index finding => findingRecord finding index).map
      (·.baseTestName) = findings.map findingBase := by
    apply List.ext_getElem
    · simp
    · intro i h h'
      simp [findingRecord, findingBase]
  rw [← names, List.count, List.countP_map, findingsNamed, ← List.countP_eq_length_filter]
  exact List.countP_congr fun finding _ => by simp

/-- The base name of a test is there and belongs to exactly one of the named findings. -/
def NamesFinding (names : List Str) (testName : Str) : Prop :=
  baseTestName testName ≠ [] ∧ names.count (baseTestName testName) = 1

/-- A node that runs once on each side, passes on the clean one, fails its assertion on the mutant
and names one finding. -/
def KillingNode (clean mutant : List PytestNodeResult) (names : List Str) (key : Str) : Prop :=
  ∃ c m, nodesNamed key clean = [c] ∧ c.passed = true ∧ c.assertionFailure = false ∧
    nodesNamed key mutant = [m] ∧ m.assertionFailure = true ∧ NamesFinding names c.testName

theorem mapsToFinding_iff (findings : List Json) (testName : Str) :
    ((((findingIndexes (findings.mapIdx fun index finding => findingRecord finding index)).get?
      (baseTestName testName)).getD []).length == 1) = true ↔
      NamesFinding (findings.map findingBase) testName := by
  rw [get?_findingIndexes, beq_iff_eq, NamesFinding, ← length_findingsNamed]
  by_cases h : baseTestName testName = [] <;> simp [h]

theorem classifyNode_candidateKill (clean mutant : ExecutionResult) (findings : List Json)
    (key : Str) :
    (classifyNode key ((uniqueNodes clean.nodes).get? key) ((uniqueNodes mutant.nodes).get? key)
      (findingIndexes (findings.mapIdx fun index finding => findingRecord finding index)) false
      clean.scoreableHarness mutant.scoreableHarness).classification = .candidateKill ↔
      clean.scoreableHarness = true ∧ mutant.scoreableHarness = true ∧
        KillingNode clean.nodes mutant.nodes (findings.map findingBase) key := by
  unfold classifyNode
  dsimp only
  rw [classify_candidateKill]
  constructor
  · rintro ⟨hc, -, hm, maps, c, m, hcn, passed, hca, hmn, hma⟩
    rw [hcn] at maps
    have eligible : c.eligibleForDifferential = true := by
      simp [PytestNodeResult.eligibleForDifferential, passed]
    exact ⟨hc, hm, c, m, (uniqueNodes_eligible eligible).mp hcn, passed, hca,
      (uniqueNodes_eligible (assertionFailure_eligible hma)).mp hmn, hma,
      (mapsToFinding_iff findings c.testName).mp maps⟩
  · rintro ⟨hc, hm, c, m, hcn, passed, hca, hmn, hma, names⟩
    have eligible : c.eligibleForDifferential = true := by
      simp [PytestNodeResult.eligibleForDifferential, passed]
    have first := (uniqueNodes_eligible eligible).mpr hcn
    refine ⟨hc, rfl, hm, ?_, c, m, first, passed, hca,
      (uniqueNodes_eligible (assertionFailure_eligible hma)).mpr hmn, hma⟩
    rw [first]
    exact (mapsToFinding_iff findings c.testName).mpr names

theorem mem_nodeKeys {clean mutant : Dict Str PytestNodeResult} {key : Str} :
    key ∈ nodeKeys clean mutant ↔ (clean.get? key).isSome ∨ (mutant.get? key).isSome := by
  simp [nodeKeys, Dict.get?_isSome_iff]

theorem nodesClassified_isEmpty {classification : Classification} {nodes : List NodeRecord} :
    (nodesClassified classification nodes).isEmpty = false ↔
      ∃ node ∈ nodes, node.classification = classification := by
  simp [nodesClassified, ← Bool.not_eq_true]

theorem buildDifferential_kill {mutant : ExecutionResult} :
    (buildDifferential caseId clean (some mutant) findings testSha256).caseCandidateKill = true ↔
      clean.scoreableHarness = true ∧ mutant.scoreableHarness = true ∧
        ∃ key, KillingNode clean.nodes mutant.nodes (findings.map findingBase) key := by
  have node := classifyNode_candidateKill clean mutant findings
  simp only [buildDifferential, Option.isSome_some, Bool.true_and, Bool.not_eq_true',
    nodesClassified_isEmpty, List.mem_map, Option.map_some, Option.getD_some, Option.isNone_some]
  constructor
  · rintro ⟨_, ⟨key, -, rfl⟩, h⟩
    obtain ⟨hc, hm, kills⟩ := (node key).mp h
    exact ⟨hc, hm, key, kills⟩
  · rintro ⟨hc, hm, key, kills⟩
    refine ⟨_, ⟨key, mem_nodeKeys.mpr (Or.inl ?_), rfl⟩, (node key).mpr ⟨hc, hm, kills⟩⟩
    obtain ⟨c, m, hcn, passed, -⟩ := kills
    have eligible : c.eligibleForDifferential = true := by
      simp [PytestNodeResult.eligibleForDifferential, passed]
    rw [(uniqueNodes_eligible eligible).mpr hcn]
    rfl

theorem buildDifferential_none :
    (buildDifferential caseId clean none findings testSha256).caseCandidateKill = false := by
  simp [buildDifferential]

/-- The nodes and the findings count without regard to their order. -/
theorem KillingNode.perm {clean clean' mutant mutant' : List PytestNodeResult}
    {names names' : List Str} {key : Str} (hc : clean.Perm clean') (hm : mutant.Perm mutant')
    (hn : names.Perm names') (h : KillingNode clean mutant names key) :
    KillingNode clean' mutant' names' key := by
  obtain ⟨c, m, first, passed, kept, second, failed, named, count⟩ := h
  have once : ∀ {nodes nodes' : List PytestNodeResult} {node : PytestNodeResult},
      nodes.Perm nodes' → nodesNamed key nodes = [node] → nodesNamed key nodes' = [node] := by
    intro nodes nodes' node hp hs
    have filtered := hp.filter fun node => decide (node.nodeId = key)
    rw [← nodesNamed, ← nodesNamed, hs] at filtered
    exact (List.singleton_perm.mp filtered).symm
  exact ⟨c, m, once hc first, passed, kept, once hm second, failed, named,
    (hn.count_eq _).symm.trans count⟩

end Build

section Integrity

theorem repositoryError_eq_nil {role : String} {before after : Str} :
    repositoryError role (some before) (some after) = [] ↔ before = after := by
  simp [repositoryError]

/-- No integrity error: neither run changed the test or its repository. -/
theorem integrityErrors_eq_nil (clean mutant : NeutralExecution) (testSha256 : Str) :
    Executions.integrityErrors ⟨clean, some mutant⟩ testSha256 = [] ↔
      (clean.testAfter = testSha256 ∧ mutant.testAfter = testSha256) ∧
        clean.repoBefore = clean.repoAfter ∧ mutant.repoBefore = mutant.repoAfter := by
  have sorted : ∀ errors : List Str, errors.dedup.insertionSort (· ≤ ·) = [] ↔ errors = [] := by
    intro errors
    rw [← List.length_eq_zero_iff, List.length_insertionSort, List.length_eq_zero_iff]
    exact List.dedup_eq_nil errors
  simp only [Executions.integrityErrors, Executions.testAfterMutant, Option.map_some,
    Option.getD_some, EdgecaseForge.integrityErrors, sorted, List.append_eq_nil_iff,
    List.map_eq_nil_iff, List.flatMap_cons, List.flatMap_nil, List.append_nil,
    repositoryError_eq_nil]
  simp

end Integrity

end EdgecaseForge

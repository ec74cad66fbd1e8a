import EdgecaseForge.CaseRuns
import EdgecaseForge.ProgressEvidence

namespace EdgecaseForge

open Text Effect Program

section Evidence

variable {directory : Path} {t t' : FileTree} {u : Unit}

theorem artifactMetadata_ok {p : Path} {metadata : Json} (h : artifactMetadata p t = .ok metadata) :
    ∃ content, t.get? p = some (.file content) ∧
      metadata = .object [("path", .str (p.getLast?.getD [])), ("bytes", .int content.length),
        ("sha256", .str (Sha256.sha256 content)), ("truncated", .bool false)] := by
  obtain ⟨content, read, hm⟩ := Except.bind_eq_ok.mp h
  refine ⟨content, ?_, (Except.ok.inj hm).symm⟩
  unfold FileTree.readBytes at read
  split at read
  next content' hg =>
    cases read
    exact hg
  next => cases read
  next => cases read

theorem artifactMetadata_distinct {p : Path} {metadata : Json}
    (h : artifactMetadata p t = .ok metadata) : metadata.distinct = true := by
  obtain ⟨content, -, rfl⟩ := artifactMetadata_ok h
  exact Json.distinct_object (by simp) (by simp)

/-- An artifact whose metadata is in the payload passes its check. -/
theorem checkArtifact_ok {execution metadata : Json} {field : String} {name : Str}
    (isObj : execution.isObj = true) (listed : execution.get (lit field) = metadata)
    (taken : artifactMetadata (directory ++ [name]) t = .ok metadata)
    (kept : t'.get? (directory ++ [name]) = t.get? (directory ++ [name])) (safe : SafeName name)
    (line : Nat) : checkArtifact directory execution line field t' = .ok () := by
  obtain ⟨content, stored, rfl⟩ := artifactMetadata_ok taken
  rw [stored] at kept
  have path : safeChildPath directory (.str name) line = .ok (directory ++ [name]) :=
    safeChildPath_asPosix (List.cons_ne_nil name []) (by simpa using safe) directory line
  have isFile := FileTree.isFile_of_get? kept
  have size : (Json.int content.length).pyEq (.int content.length) = true := by
    simp [Json.pyEq, Json.rat?]
  unfold checkArtifact
  rw [getField_of_isObj isObj, listed, Except.ok_bind]
  simp [List.lookup_cons, Except.check, path, isFile, FileTree.readBytes, kept, size]

theorem evidencePayload_isObj (role : String) (result : ExecutionResult) (hashes : HashPairs)
    (stdout stderr junit : Json) :
    (evidencePayload role result hashes stdout stderr junit).isObj = true := rfl

theorem evidencePayload_distinct {role : String} {result : ExecutionResult} {hashes : HashPairs}
    {stdout stderr junit : Json} (hout : stdout.distinct = true) (herr : stderr.distinct = true)
    (hjunit : junit.distinct = true) :
    (evidencePayload role result hashes stdout stderr junit).distinct = true := by
  unfold evidencePayload ExecutionResult.payload
  refine Json.distinct_object (by simp) ?_
  simp [hout, herr, hjunit, result.distinct_nodes, Json.distinct_map (fun s => Json.distinct_str s)]

theorem evidencePayload_get (role : String) (result : ExecutionResult) (hashes : HashPairs)
    (stdout stderr junit : Json) :
    (evidencePayload role result hashes stdout stderr junit).get (lit "stdout") = stdout ∧
      (evidencePayload role result hashes stdout stderr junit).get (lit "stderr") = stderr ∧
      (evidencePayload role result hashes stdout stderr junit).get (lit "junit") = junit := by
  simp [evidencePayload, ExecutionResult.payload, List.lookup_cons]

theorem safeName_log : ∀ name ∈ [lit "stdout.log", lit "stderr.log", lit "junit.xml"],
    SafeName name := by
  intro name h
  simp only [List.mem_cons, List.not_mem_nil, or_false] at h
  rcases h with rfl | rfl | rfl <;> exact ⟨by decide, by decide, by decide, by decide, rfl⟩

/-- The evidence of an execution stands once it is written. -/
theorem writeExecutionEvidence_stands {role : String} {result : ExecutionResult}
    {hashes : HashPairs}
    (h : (writeExecutionEvidence role directory result hashes).Returns t u t') :
    EvidenceStands directory t' := by
  obtain ⟨_, _, -, h⟩ := returns_bind.mp h
  obtain ⟨_, _, -, h⟩ := returns_bind.mp h
  obtain ⟨_, _, -, h⟩ := returns_bind.mp h
  obtain ⟨_, logged, -, h⟩ := returns_bind.mp h
  obtain ⟨stdout, _, out, h⟩ := returns_bind.mp h
  obtain ⟨stderr, _, err, h⟩ := returns_bind.mp h
  obtain ⟨junit, _, xml, h⟩ := returns_bind.mp h
  obtain ⟨outTaken, rfl⟩ := returns_inspect.mp out
  obtain ⟨errTaken, rfl⟩ := returns_inspect.mp err
  obtain ⟨xmlTaken, rfl⟩ := returns_inspect.mp xml
  obtain ⟨bytes, printed, stored⟩ := writeJsonAtomic_returns h
  have kept : ∀ name ∈ [lit "stdout.log", lit "stderr.log", lit "junit.xml"],
      t'.get? (directory ++ [name]) = logged.get? (directory ++ [name]) := by
    intro name hn
    refine h.keeps (writeJsonAtomic_keeps ?_ ?_ ?_)
    · simp only [List.mem_cons, List.not_mem_nil, or_false] at hn
      rcases hn with rfl | rfl | rfl <;> simp
    · simp only [List.mem_cons, List.not_mem_nil, or_false] at hn
      rcases hn with rfl | rfl | rfl <;> simp [temporaryPath] <;> decide
    · rw [List.dropLast_concat]
      intro below
      have longer := below.length_le
      simp at longer
  have payload := evidencePayload_get role result hashes stdout stderr junit
  have isObj := evidencePayload_isObj role result hashes stdout stderr junit
  obtain ⟨outGet, errGet, xmlGet⟩ := payload
  have safe := safeName_log
  have distinct : junit.distinct = true := by
    unfold optionalMetadata at xmlTaken
    split at xmlTaken
    next => exact artifactMetadata_distinct xmlTaken
    next => cases xmlTaken; rfl
  refine ⟨_, FileTree.isFile_of_get? stored, printed.readJson (evidencePayload_distinct
    (artifactMetadata_distinct outTaken) (artifactMetadata_distinct errTaken) distinct) stored,
    fun line => ?_⟩
  have outOk := checkArtifact_ok isObj outGet outTaken (kept _ (by simp)) (safe _ (by simp)) line
  have errOk := checkArtifact_ok isObj errGet errTaken (kept _ (by simp)) (safe _ (by simp)) line
  rw [validateExecutionArtifacts, outOk, Except.ok_bind, errOk, Except.ok_bind]
  unfold optionalMetadata at xmlTaken
  split at xmlTaken
  next => exact checkArtifact_ok isObj xmlGet xmlTaken (kept _ (by simp)) (safe _ (by simp)) line
  next =>
    cases xmlTaken
    rw [checkArtifact, getField_of_isObj isObj, xmlGet, Except.ok_bind]
    rfl

end Evidence

section Differential

variable {context : SuiteContext} {key : CaseKey} {input : CaseInput} {expectedCase row report : Json}
  {agentRepoSha256 : Sha256.Digest} {relative : Path} {t t' : FileTree}

@[simp] theorem FindingRecord.distinct_payload (finding : FindingRecord) :
    finding.payload.distinct = true :=
  Json.distinct_object (by simp) (by simp)

@[simp] theorem NodeRecord.distinct_payload (node : NodeRecord) : node.payload.distinct = true := by
  have indexes := Json.distinct_map (fun index : Nat => Json.distinct_int index) node.findingIndexes
  exact Json.distinct_object (by simp) (by simp [indexes])

theorem distinct_differentialPayload (differential : Differential) (runs : Executions)
    (testSha256 manifestSha256 : Str) (expected : expectedCase.distinct = true) :
    (differentialPayload differential runs testSha256 manifestSha256 expectedCase).distinct =
      true := by
  have findings := Json.distinct_map FindingRecord.distinct_payload differential.findings
  have nodes := Json.distinct_map NodeRecord.distinct_payload differential.nodes
  have named : ∀ names : List Str, (Json.list (names.map .str)).distinct = true :=
    Json.distinct_map Json.distinct_str
  have side : (if runs.mutant.isSome = true then Json.str (lit "mutant/execution.json")
      else Json.null).distinct = true := by split <;> rfl
  unfold differentialPayload Differential.payload
  refine Json.distinct_object (by simp) ?_
  simp [findings, nodes, named, side, expected]

theorem executeSide_stands {role : String} {evidenceDir : Path} {testSha256 : Str}
    {execution : Except PyError NeutralExecution} {side : NeutralExecution}
    (h : (executeSide role evidenceDir testSha256 execution).Returns t side t') :
    EvidenceStands (evidenceDir ++ [lit role]) t' := by
  obtain ⟨made, _, -, h⟩ := returns_bind.mp h
  obtain ⟨_, _, wrote, h⟩ := returns_bind.mp h
  obtain ⟨rfl, rfl⟩ := returns_pure.mp h
  exact writeExecutionEvidence_stands wrote

theorem executeMutant_stands {caseId testSha256 : Str} {evidenceDir : Path}
    {execution : Except PyError NeutralExecution} {side : Option NeutralExecution}
    (h : (executeMutant caseId evidenceDir testSha256 execution).Returns t side t')
    (hs : side.isSome = true) : EvidenceStands (evidenceDir ++ [lit "mutant"]) t' := by
  unfold executeMutant at h
  split at h
  next =>
    obtain ⟨rfl, rfl⟩ := returns_pure.mp h
    cases hs
  next =>
    obtain ⟨mutant, _, made, h⟩ := returns_bind.mp h
    obtain ⟨rfl, rfl⟩ := returns_pure.mp h
    exact executeSide_stands made

/-- Writing in one of two directories of the same depth leaves the other as it was. -/
theorem StaysBelow.agrees {α : Type} {m : Disk α} {a : α} {p other : Path} (hm : StaysBelow p m)
    (depth : other.length = p.length) (hn : other ≠ p) (h : m.Returns t a t') :
    AgreesBelow other t t' := by
  intro q hq
  have apart : ¬ p <+: q := by
    intro hp
    rcases List.prefix_or_prefix_of_prefix hq hp with h | h
    · exact hn (h.eq_of_length depth)
    · exact hn (h.eq_of_length depth.symm).symm
  have shorter : ¬ q <+: p := fun hp => hn ((hq.trans hp).eq_of_length depth)
  exact (h.keeps (hm q apart shorter)).symm

theorem writeJsonAtomic_agrees {base : Path} {name other : Str} {payload : Json} {u : Unit}
    (hn : other ≠ name) (ht : other ≠ name ++ lit ".tmp")
    (h : (writeJsonAtomic (base ++ [name]) payload).Returns t u t') :
    AgreesBelow (base ++ [other]) t t' := by
  intro q hq
  obtain ⟨rest, rfl⟩ := hq
  refine (h.keeps (writeJsonAtomic_keeps ?_ ?_ ?_)).symm
  · simp [hn]
  · simp [temporaryPath, ht]
  · rw [List.dropLast_concat]
    intro below
    have longer := below.length_le
    simp at longer

theorem caseDifferential_names (caseId : Str) (runs : Executions) (findings : List Json)
    (testSha256 : Str) :
    (caseDifferential caseId runs findings testSha256).caseId = caseId ∧
      (caseDifferential caseId runs findings testSha256).testSha256 = testSha256 := by
  unfold caseDifferential
  split <;> exact ⟨rfl, rfl⟩

/-- The differential names the case, the test and the verdict of its row. -/
theorem Tested.checkMetadata_ok
    (h : Tested context key input expectedCase agentRepoSha256 relative report t row t')
    (line : Nat) : checkMetadata row (differentialPayload
      (caseDifferential key.caseId h.runs h.findings h.testSha256) h.runs h.testSha256
      context.manifestSha256 expectedCase) line = .ok () := by
  obtain ⟨caseId, test⟩ := caseDifferential_names key.caseId h.runs h.findings h.testSha256
  have rowCase : row.get (lit "case_id") = .str key.caseId := by
    simp [h.row_eq, completedRow, rowHead, List.lookup_cons]
  have rowTest : row.get (lit "test_sha256") = .str h.testSha256 := by
    simp [h.row_eq, completedRow, rowHead, List.lookup_cons]
  have rowKill : row.get (lit "candidate_kill") =
      .bool (caseDifferential key.caseId h.runs h.findings h.testSha256).caseCandidateKill := by
    simp [h.row_eq, completedRow, rowHead, List.lookup_cons]
  have same : ∀ b : Bool, (Json.bool b).pyEq (.bool b) = true := by decide
  unfold checkMetadata
  rw [rowCase, rowTest, rowKill, getField_of_isObj rfl, getField_of_isObj rfl,
    getField_of_isObj rfl]
  simp [differentialPayload, Differential.payload, List.lookup_cons, Except.check, caseId, test,
    same]

theorem Tested.differentialStands (expected : expectedCase.distinct = true)
    (h : Tested context key input expectedCase agentRepoSha256 relative report t row t') :
    DifferentialStands context.suiteDir relative row t' := by
  have whole : context.suiteDir ++ relative ++ [lit "differential"] ++ [lit "differential.json"] =
      context.suiteDir ++ differentialNames relative := by
    simp [differentialNames]
  have wrote := h.wrote
  obtain ⟨bytes, printed, stored⟩ := writeJsonAtomic_returns wrote
  have hashed := h.differentialHashed
  rw [whole] at stored hashed
  have distinct := distinct_differentialPayload
    (caseDifferential key.caseId h.runs h.findings h.testSha256) h.runs h.testSha256
    context.manifestSha256 expected
  have clean := executeSide_stands h.cleaned
  have cleanKept := clean.congr
    ((executeMutant_below _ _ _ _).agrees (by simp) (by simp) h.mutated)
  have cleanStands := cleanKept.congr (writeJsonAtomic_agrees (by simp) (by decide) wrote)
  have folder : differentialFolder context.suiteDir relative =
      context.suiteDir ++ relative ++ [lit "differential"] := rfl
  refine ⟨?_, FileTree.isFile_of_get? stored, ⟨_, hashed, ?_⟩, _, printed.readJson distinct stored,
    rfl, h.checkMetadata_ok, ?_, ?_⟩
  · simp [h.row_eq, completedRow, rowHead, List.lookup_cons, differentialNames]
  · simp [h.row_eq, completedRow, rowHead, List.lookup_cons]
  · refine Or.inr ⟨?_, cleanStands⟩
    simp [differentialPayload, Differential.payload, List.lookup_cons]
    decide
  · cases hm : h.runs.mutant with
    | none =>
      left
      simp [differentialPayload, Differential.payload, List.lookup_cons, hm]
    | some mutant =>
      right
      have stands := executeMutant_stands h.mutated (by simp [hm])
      have kept := stands.congr (writeJsonAtomic_agrees (by simp) (by decide) wrote)
      refine ⟨?_, kept⟩
      simp [differentialPayload, Differential.payload, List.lookup_cons, hm]
      decide

end Differential

end EdgecaseForge

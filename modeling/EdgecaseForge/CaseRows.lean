import EdgecaseForge.CaseArtifacts
import EdgecaseForge.FrozenBenchmark

namespace EdgecaseForge

open Text Effect Program

section Names

theorem isNameChar_high {c : CodePoint} (h : isNameChar c = true) : 0x2D ≤ c.val ∧ c.val ≤ 0x7A := by
  simp only [isNameChar, Bool.or_eq_true, Bool.and_eq_true, decide_eq_true_eq, beq_iff_eq,
    Fin.le_def] at h
  have bounds : ((0x30 : CodePoint).val = 0x30 ∧ (0x39 : CodePoint).val = 0x39) ∧
      ((0x41 : CodePoint).val = 0x41 ∧ (0x5A : CodePoint).val = 0x5A) ∧
      ((0x61 : CodePoint).val = 0x61 ∧ (0x7A : CodePoint).val = 0x7A) := by decide
  rcases h with ((h | h) | h) | rfl
  · omega
  · omega
  · omega
  · decide

theorem isNameChar_ne {c d : CodePoint} (h : isNameChar c = true) (hd : isNameChar d = false) :
    c ≠ d := by
  rintro rfl
  rw [h] at hd
  cases hd

theorem SafeName.of_chars {name : Str} (hne : name ≠ []) (h : ∀ c ∈ name, isNameChar c = true) :
    SafeName name := by
  have absent : ∀ d : CodePoint, isNameChar d = false → d ∉ name := fun d hd hm =>
    isNameChar_ne (h d hm) hd rfl
  have dot : (0x2E : CodePoint) ∉ name := absent _ (by decide)
  have plain : (name.any fun c => isSurrogate c.val && !(0xDC80 ≤ c.val && c.val ≤ 0xDCFF)) =
      false := by
    rw [List.any_eq_false]
    intro c hc
    have high := isNameChar_high (h c hc)
    have low : isSurrogate c.val = false := by
      simp only [isSurrogate, Bool.and_eq_false_iff, decide_eq_false_iff_not]
      left
      omega
    simp [low]
  refine ⟨hne, ?_, ?_, absent _ (by decide), ?_⟩
  · rintro rfl
    exact dot (by decide)
  · rintro rfl
    exact dot (by decide)
  · have zero : name.contains 0 = false := by
      simpa [List.contains_eq_mem] using absent 0 (by decide)
    rw [checkName, zero, plain]
    rfl

theorem isDigit_nameChar {c : CodePoint} (h : Decimal.isDigit c = true) : isNameChar c = true := by
  simp only [Decimal.isDigit, Bool.and_eq_true, decide_eq_true_eq] at h
  have bounds : (0x30 : CodePoint).val = 0x30 ∧ (0x39 : CodePoint).val = 0x39 := by decide
  simp only [isNameChar, Bool.or_eq_true, Bool.and_eq_true, decide_eq_true_eq, beq_iff_eq,
    Fin.le_def]
  left; left; left
  omega

theorem decimalText_eq (n : Nat) : decimalText n = Decimal.natText n := by
  simp [decimalText, Json.intText]

theorem decimalText_chars (n : Nat) : ∀ c ∈ decimalText n, isNameChar c = true := by
  intro c hc
  rw [decimalText_eq] at hc
  exact isDigit_nameChar (Decimal.natText_digits n c hc)

theorem runName_chars (repetition : Nat) : ∀ c ∈ runName repetition, isNameChar c = true := by
  intro c hc
  rcases List.mem_append.mp hc with hc | hc
  · have run : (lit "run-").all isNameChar = true := by decide
    exact List.all_eq_true.mp run c hc
  · split at hc
    next =>
      rcases List.mem_cons.mp hc with rfl | hc
      · decide
      · exact decimalText_chars _ c hc
    next => exact decimalText_chars _ c hc

theorem caseIds_chars : ∀ id ∈ caseIds, id ≠ [] ∧ ∀ c ∈ id, isNameChar c = true := by
  have all : caseIds.all (fun id => !id.isEmpty && id.all isNameChar) = true := by decide
  intro id hid
  have plain := List.all_eq_true.mp all id hid
  rw [Bool.and_eq_true] at plain
  exact ⟨by simpa using plain.1, List.all_eq_true.mp plain.2⟩

/-- The directory of a run, below the directory of its suite. -/
def runFolder (key : CaseKey) (input : CaseInput) : Path :=
  caseFolder key ++ [input.scan.runId.text]

theorem runFolder_safe {key : CaseKey} (hk : key.caseId ∈ caseIds) (input : CaseInput) :
    ∀ name ∈ runFolder key input, SafeName name := by
  obtain ⟨some, chars⟩ := caseIds_chars key.caseId hk
  have plain : (lit "agent-runs").all isNameChar = true := by decide
  have runs : SafeName (lit "agent-runs") := .of_chars (by decide) (List.all_eq_true.mp plain)
  have repetition : SafeName (runName key.repetition) :=
    .of_chars (by simp [runName, lit_eq]) (runName_chars _)
  have run : SafeName input.scan.runId.text :=
    .of_chars input.scan.runId.nonempty (List.all_eq_true.mp input.scan.runId.plain)
  intro name h
  simp only [runFolder, caseFolder, List.cons_append, List.nil_append, List.mem_cons,
    List.not_mem_nil, or_false] at h
  rcases h with rfl | rfl | rfl | rfl
  · exact runs
  · exact repetition
  · exact .of_chars some chars
  · exact run

end Names

section Artifacts

variable {context : SuiteContext} {key : CaseKey} {input : CaseInput} {expectedCase row : Json}
  {t t' : FileTree}

theorem Tested.isDir {agentRepoSha256 : Sha256.Digest} {relative : Path} {report : Json} {q : Path}
    (h : Tested context key input expectedCase agentRepoSha256 relative report t row t')
    (hd : t.isDir q = true) : t'.isDir q = true := by
  have first := (executeSide_dirs _ _ _ _).returns h.cleaned hd
  have second := (executeMutant_dirs _ _ _ _).returns h.mutated first
  exact (KeepsDirs.writeJsonAtomic _ _).returns h.wrote second

/-- A row of a model error names no artifact; any other row stands by its run directory. -/
theorem CaseRow.stands (hk : key.caseId ∈ caseIds) (expected : expectedCase.distinct = true)
    (h : CaseRow context key input expectedCase row t') :
    (∃ error source agent, row = modelOutputError key source agent error) ∨
    row.get (lit "status") = .str (lit "completed") ∧
      RunStands context.suiteDir (runFolder key input) row t' := by
  have names := runFolder_safe hk input
  have some : runFolder key input ≠ [] := by simp [runFolder]
  cases h with
  | modelError error source agent response _ _ hrow =>
    exact Or.inl ⟨error, source, agent, hrow⟩
  | noTest analysis result source agent artifacts accounting before response scanned _ _ hashed _
      hrow =>
    right
    have isDir := scan_isDir scanned
    rw [List.append_assoc] at isDir
    refine ⟨?_, some, names, ?_, isDir, ⟨artifacts, hashed, ?_⟩, Or.inl ⟨?_, ?_⟩⟩
    all_goals simp [hrow, noTestRow, rowHead, untestedFields, List.lookup_cons, runFolder]
  | tested analysis result agent before scannedTree response scanned run =>
    right
    have isDir := scan_isDir scanned
    rw [List.append_assoc] at isDir
    refine ⟨?_, some, names, ?_, run.isDir isDir, ⟨run.artifacts, run.treeHashed, ?_⟩,
      Or.inr ⟨?_, run.differentialStands expected⟩⟩
    all_goals simp [run.row_eq, completedRow, rowHead, List.lookup_cons, runFolder]

end Artifacts

section Shape

variable {key : CaseKey} {source agentRepoSha256 : Sha256.Digest} {runDir : Path} {line : Nat}

/-- The accounting of a scan as its report and its row have it. -/
def accountingFields (input : ScanInput) (result : LLMResult) : List (String × Json) :=
  [("input_tokens", .int result.usage.inputTokens),
    ("output_tokens", .int result.usage.outputTokens),
    ("model_latency_seconds", .float (result.latencySeconds.roundTo 4).value),
    ("semantic_attempts", .int result.semanticAttempts),
    ("transport_attempts", .int result.transportAttempts),
    ("repair_used", .bool result.repairUsed),
    ("request_ids", texts result.accounting.requestIds),
    ("finish_reasons", texts result.accounting.finishReasons),
    ("runtime_seconds", .float (input.runtimeSeconds.roundTo 4).value)]

theorem reportSummary_payload (caseId : Str) (input : ScanInput) (analysis : Analysis)
    (result : LLMResult) : reportSummary (reportPayload caseId input analysis result) =
      .ok (analysis.findings.length, accountingFields input result) := by
  simp [reportSummary, reportFields, reportNames, item, asItems, reportPayload, accountingFields,
    List.lookup_cons, Except.map, Pure.pure, Except.pure]

theorem checkFields_eq_ok {row : Json} {check : Json → Bool} {names : List String} {u : Unit} :
    checkFields row line check names = .ok u ↔ ∀ name ∈ names, check (row.get (lit name)) = true := by
  induction names with
  | nil => simp [checkFields]
  | cons name names ih =>
    rw [checkFields, Except.bind_eq_ok]
    simp [ih]

theorem isTexts_texts (values : List Str) : isTexts (texts values) = true := by
  simp [isTexts, texts, isStr]

/-- The shape that the reader asks of a row. -/
structure Shaped (row : Json) : Prop where
  counts : ∀ name ∈ countFields, isCount (row.get (lit name)) = true
  seconds : ∀ name ∈ secondsFields, isSeconds (row.get (lit name)) = true
  repair : isBool (row.get (lit "repair_used")) = true
  requestIds : isTexts (row.get (lit "request_ids")) = true
  finishReasons : isTexts (row.get (lit "finish_reasons")) = true

theorem checkShape_eq_ok {row : Json} {u : Unit} : checkShape row line = .ok u ↔
    checkStatus (row.get (lit "status")) line = .ok () ∧ Shaped row := by
  unfold checkShape
  simp only [Except.bind_eq_ok, checkFields_eq_ok]
  constructor
  · rintro ⟨_, status, _, counts, _, seconds, _, repair, listed⟩
    exact ⟨status, counts, seconds, repair _ (by simp), listed _ (by simp), listed _ (by simp)⟩
  · rintro ⟨status, counts, seconds, repair, requestIds, finishReasons⟩
    refine ⟨(), status, (), counts, (), seconds, (), by simpa using repair, ?_⟩
    simpa using ⟨requestIds, finishReasons⟩

theorem isSeconds_value (x : Seconds) : isSeconds (.float x.value) = true := by
  rw [isSeconds, x.forward]
  rfl

theorem isSeconds_zero : isSeconds (.float Binary64.zero) = true :=
  isSeconds_value .zero

theorem isCount_natCast (n : Nat) : isCount (.int n) = true := by
  simp [isCount]

theorem modelOutputError_shaped {error : ProviderError} :
    Shaped (modelOutputError key source agentRepoSha256 error) ↔
      0 ≤ error.accounting.usage.inputTokens ∧ 0 ≤ error.accounting.usage.outputTokens := by
  have latency := isSeconds_value (error.accounting.latencySeconds.roundTo 4)
  constructor
  · intro h
    have input := h.counts "input_tokens" (by simp [countFields])
    have output := h.counts "output_tokens" (by simp [countFields])
    simp [modelOutputError, rowHead, untestedFields, List.lookup_cons, isCount] at input output
    exact ⟨input, output⟩
  · rintro ⟨input, output⟩
    constructor
    · simp [countFields, modelOutputError, rowHead, untestedFields, List.lookup_cons, isCount, input,
        output]
    · simp [secondsFields, modelOutputError, rowHead, untestedFields, List.lookup_cons, latency,
        isSeconds_zero]
    all_goals simp [modelOutputError, rowHead, untestedFields, List.lookup_cons, isBool,
      isTexts_texts]

theorem noTestRow_shaped {artifacts : Str} {findings : Nat} {input : ScanInput}
    {result : LLMResult} :
    Shaped (noTestRow key source agentRepoSha256 runDir artifacts findings
      (accountingFields input result)) ↔
      0 ≤ result.usage.inputTokens ∧ 0 ≤ result.usage.outputTokens := by
  have latency := isSeconds_value (result.latencySeconds.roundTo 4)
  have runtime := isSeconds_value (input.runtimeSeconds.roundTo 4)
  constructor
  · intro h
    have input := h.counts "input_tokens" (by simp [countFields])
    have output := h.counts "output_tokens" (by simp [countFields])
    simp [noTestRow, rowHead, untestedFields, accountingFields, List.lookup_cons, isCount]
      at input output
    exact ⟨input, output⟩
  · rintro ⟨input, output⟩
    constructor
    · simp [countFields, noTestRow, rowHead, untestedFields, accountingFields, List.lookup_cons,
        isCount, input, output]
    · simp [secondsFields, noTestRow, rowHead, untestedFields, accountingFields, List.lookup_cons,
        latency, runtime, isSeconds_zero]
    all_goals simp [noTestRow, rowHead, untestedFields, accountingFields, List.lookup_cons, isBool,
      isTexts_texts]

theorem completedRow_shaped {testSha256 differentialSha256 artifacts : Str} {runs : Executions}
    {differential : Differential} {findings : Nat} {input : ScanInput} {result : LLMResult} :
    Shaped (completedRow key source agentRepoSha256 testSha256 runDir differentialSha256 artifacts
      runs differential findings (accountingFields input result)) ↔
      0 ≤ result.usage.inputTokens ∧ 0 ≤ result.usage.outputTokens := by
  have latency := isSeconds_value (result.latencySeconds.roundTo 4)
  have runtime := isSeconds_value (input.runtimeSeconds.roundTo 4)
  have executed := isSeconds_value (durations runs.cleanResult runs.mutantResult)
  constructor
  · intro h
    have input := h.counts "input_tokens" (by simp [countFields])
    have output := h.counts "output_tokens" (by simp [countFields])
    simp [completedRow, rowHead, accountingFields, List.lookup_cons, isCount] at input output
    exact ⟨input, output⟩
  · rintro ⟨input, output⟩
    constructor
    · simp [countFields, completedRow, rowHead, accountingFields, List.lookup_cons, isCount, input,
        output]
    · simp [secondsFields, completedRow, rowHead, accountingFields, List.lookup_cons, latency,
        runtime, executed]
    all_goals simp [completedRow, rowHead, accountingFields, List.lookup_cons, isBool,
      isTexts_texts]

end Shape

section Lines

variable {key : CaseKey} {source agentRepoSha256 : Sha256.Digest} {runDir : Path}

@[simp] theorem lineSafe_texts {values : List Str} :
    (texts values).LineSafe ↔ ∀ s ∈ values, Json.KeepsLine s := by
  simp [texts, Json.lineSafe_list]

theorem isHexDigit_ascii {c : CodePoint} (h : Sha256.isHexDigit c = true) : c.val < 0x80 := by
  rw [Sha256.isHexDigit, decide_eq_true_eq] at h
  omega

@[simp] theorem digest_keepsLine (digest : Sha256.Digest) : Json.KeepsLine digest.text :=
  Json.keepsLine_of_ascii fun c hc => isHexDigit_ascii (digest.hex c hc)

theorem nameChars_ascii {name : Str} (h : ∀ c ∈ name, isNameChar c = true) :
    ∀ c ∈ name, c.val < 0x80 := by
  intro c hc
  have high := isNameChar_high (h c hc)
  omega

/-- The path of a run, and of what is below it, is plain text. -/
theorem asPosix_ascii {names : Path} (h : ∀ name ∈ names, ∀ c ∈ name, c.val < 0x80) :
    Json.KeepsLine (asPosix names) := by
  refine Json.keepsLine_of_ascii fun c hc => ?_
  rcases mem_join hc with rfl | ⟨name, hn, hc⟩
  · decide
  · exact h name hn c hc

theorem runFolder_ascii (hk : key.caseId ∈ caseIds) (input : CaseInput) :
    ∀ name ∈ runFolder key input, ∀ c ∈ name, c.val < 0x80 := by
  have chars := (caseIds_chars key.caseId hk).2
  have runs : (lit "agent-runs").all isNameChar = true := by decide
  intro name h
  simp only [runFolder, caseFolder, List.cons_append, List.nil_append, List.mem_cons,
    List.not_mem_nil, or_false] at h
  rcases h with rfl | rfl | rfl | rfl
  · exact nameChars_ascii (List.all_eq_true.mp runs)
  · exact nameChars_ascii (runName_chars _)
  · exact nameChars_ascii chars
  · exact nameChars_ascii (List.all_eq_true.mp input.scan.runId.plain)

theorem typeName_keepsLine (kind : ProviderErrorKind) : Json.KeepsLine (lit kind.typeName) := by
  cases kind <;> dsimp only [ProviderErrorKind.typeName] <;> decide

theorem modelOutputError_lineSafe (hk : key.caseId ∈ caseIds) {error : ProviderError} :
    (modelOutputError key source agentRepoSha256 error).LineSafe ↔
      Json.KeepsLine (error.message.take 2000) ∧
      (∀ s ∈ error.modelResponseSha256, Json.KeepsLine s) ∧
      (∀ s ∈ error.modelResponseExcerpts, Json.KeepsLine s) ∧
      (∀ s ∈ error.accounting.requestIds, Json.KeepsLine s) ∧
      ∀ s ∈ error.accounting.finishReasons, Json.KeepsLine s := by
  have caseId := Json.keepsLine_of_ascii (nameChars_ascii (caseIds_chars key.caseId hk).2)
  have constants : Json.KeepsLine (lit "case-evaluation-v2") ∧
      Json.KeepsLine (lit "model_output_error") := by decide
  unfold modelOutputError
  rw [Json.lineSafe_object]
  simp [rowHead, untestedFields, caseId, constants, typeName_keepsLine]
  intro _ _ _ _ _
  decide

theorem noTestRow_lineSafe (hk : key.caseId ∈ caseIds) {artifacts : Str} {findings : Nat}
    {input : ScanInput} {result : LLMResult} (path : Json.KeepsLine (asPosix runDir))
    (hash : Json.KeepsLine artifacts) :
    (noTestRow key source agentRepoSha256 runDir artifacts findings
      (accountingFields input result)).LineSafe ↔
      (∀ s ∈ result.accounting.requestIds, Json.KeepsLine s) ∧
      ∀ s ∈ result.accounting.finishReasons, Json.KeepsLine s := by
  have caseId := Json.keepsLine_of_ascii (nameChars_ascii (caseIds_chars key.caseId hk).2)
  have constants : Json.KeepsLine (lit "case-evaluation-v2") ∧
      Json.KeepsLine (lit "completed") := by decide
  unfold noTestRow
  rw [Json.lineSafe_object]
  simp [rowHead, untestedFields, accountingFields, caseId, constants, path, hash]
  intro _ _
  decide

theorem completedRow_lineSafe (hk : key.caseId ∈ caseIds) {test differentialSha256 artifacts : Str}
    {runs : Executions} {differential : Differential} {findings : Nat} {input : ScanInput}
    {result : LLMResult} (path : Json.KeepsLine (asPosix runDir))
    (evidence : Json.KeepsLine (asPosix (differentialNames runDir))) (testHash : Json.KeepsLine test)
    (differentialHash : Json.KeepsLine differentialSha256) (hash : Json.KeepsLine artifacts) :
    (completedRow key source agentRepoSha256 test runDir differentialSha256 artifacts runs
      differential findings (accountingFields input result)).LineSafe ↔
      (∀ s ∈ result.accounting.requestIds, Json.KeepsLine s) ∧
      ∀ s ∈ result.accounting.finishReasons, Json.KeepsLine s := by
  have caseId := Json.keepsLine_of_ascii (nameChars_ascii (caseIds_chars key.caseId hk).2)
  have constants : Json.KeepsLine (lit "case-evaluation-v2") ∧
      Json.KeepsLine (lit "completed") := by decide
  rw [differentialNames] at evidence
  unfold completedRow
  rw [Json.lineSafe_object]
  simp [rowHead, accountingFields, caseId, constants, path, evidence, testHash, differentialHash,
    hash]
  intro _ _
  decide

end Lines

end EdgecaseForge

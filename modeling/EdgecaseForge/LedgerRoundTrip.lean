import EdgecaseForge.LedgerFile

namespace EdgecaseForge

open Text Effect Program

section Folders

theorem runName_injective {m n : Nat} (h : runName m = runName n) : m = n := by
  have value : ∀ k : Nat, Decimal.natValue (if k < 10 then 0x30 :: decimalText k else decimalText k) =
      k := by
    intro k
    have text : Decimal.natValue (decimalText k) = k := by
      rw [decimalText_eq, Decimal.natValue_natText]
    split
    next => simpa [Decimal.natValue, Decimal.natValueFrom, Decimal.digitValue] using text
    next => exact text
  have same := List.append_cancel_left h
  rw [← value m, same, value]

theorem runFolder_ne {key key' : CaseKey} (h : key ≠ key') (input input' : CaseInput) :
    runFolder key input ≠ runFolder key' input' := by
  intro he
  simp only [runFolder, caseFolder, List.cons_append, List.nil_append, List.cons.injEq] at he
  obtain ⟨-, names, ids, -⟩ := he
  exact h (CaseKey.ext (runName_injective names) ids)

/-- A file of the suite itself is not where the cases write. -/
theorem suiteFile_apart (suiteDir : Path) {name : Str} (hn : name ≠ lit "agent-runs")
    (key : CaseKey) (input : CaseInput) :
    ¬ suiteDir ++ runFolder key input <+: suiteDir ++ [name] ∧
      ¬ suiteDir ++ [name] <+: suiteDir ++ runFolder key input := by
  rw [List.prefix_append_right_inj, List.prefix_append_right_inj]
  constructor
  · intro h
    have short := h.length_le
    simp [runFolder, caseFolder] at short
  · intro h
    obtain ⟨same, -⟩ := List.cons_prefix_cons.mp h
    exact hn same

end Folders

section Rows

variable {context : SuiteContext} {key : CaseKey} {input : CaseInput} {expectedCase row : Json}
  {t t' : FileTree} {line : Nat}

/-- A row with the pair and the case that it is about. -/
structure Entry where
  key : CaseKey
  input : CaseInput
  row : Json

def Entry.listing (e : Entry) : CaseKey × Json :=
  (e.key, e.row)

/-- The artifacts of an entry are on disk, if its row has any. -/
def ArtifactsStand (suiteDir : Path) (e : Entry) (t : FileTree) : Prop :=
  (∃ error source agent, e.row = modelOutputError e.key source agent error) ∨
    e.row.get (lit "status") = .str (lit "completed") ∧
      RunStands suiteDir (runFolder e.key e.input) e.row t

theorem ArtifactsStand.congr {suiteDir : Path} {e : Entry} (h : ArtifactsStand suiteDir e t)
    (agree : AgreesBelow (suiteDir ++ runFolder e.key e.input) t t') :
    ArtifactsStand suiteDir e t' := by
  rcases h with h | ⟨status, stands⟩
  · exact Or.inl h
  · exact Or.inr ⟨status, stands.congr agree⟩

/-- Of a row whose artifacts stand the reader only asks for its shape. -/
theorem ArtifactsStand.accepted {suiteDir : Path} {e : Entry} (h : ArtifactsStand suiteDir e t) :
    validateEvaluationArtifacts e.row suiteDir line t = .ok () ↔ Shaped e.row := by
  unfold validateEvaluationArtifacts
  rw [Except.bind_eq_ok]
  rcases h with ⟨error, source, agent, he⟩ | ⟨status, stands⟩
  · have status : e.row.get (lit "status") = .str (lit "model_output_error") := by
      simp [he, modelOutputError, rowHead, List.lookup_cons]
    have known : checkStatus (.str (lit "model_output_error")) line = .ok () := rfl
    have artifacts : validateModelError e.row line = .ok () := by
      simp [validateModelError, checkFields, Except.check, he, modelOutputError, rowHead,
        List.lookup_cons, isTexts_texts, isNone]
    simp [checkShape_eq_ok, status, known, artifacts]
  · have known : checkStatus (.str (lit "completed")) line = .ok () := rfl
    have other : (lit "completed" == lit "model_output_error") = false := by simp
    simp [checkShape_eq_ok, status, known, other, stands.accepted line]

/-- What is known of an entry once its row is in the ledger. -/
structure EntryStands (context : SuiteContext) (e : Entry) : Prop where
  known : e.key.caseId ∈ caseIds
  ledgerRow : LedgerRow context e.key e.input e.row
  printable : e.row.printable = true

/-- What the reader is given for a suite. -/
def SuiteContext.progress (context : SuiteContext) (repetitions : Nat) (selectedCases : List Str) :
    ProgressContext where
  suiteDir := context.suiteDir
  repetitions := repetitions
  selectedCases := selectedCases
  sourceHashes := hashesPayload context.sourceHashes

theorem hashesPayload_eq (hashes : Dict Str Sha256.Digest) (caseId : Str) : (hashesPayload hashes).get? caseId =
    (hashes.get? caseId).map fun hash => .str hash.text := by
  obtain ⟨entries, once⟩ := hashes
  change List.lookup caseId (entries.map fun entry => (entry.1, Json.str entry.2.text)) = _
  unfold Dict.get?
  dsimp only
  clear once
  induction entries with
  | nil => rfl
  | cons entry entries ih =>
    rw [List.map_cons, List.lookup_cons, ih, Dict.lookup_cons_if]
    by_cases same : caseId = entry.1
    · simp [same]
    · simp [same, beq_eq_false_iff_ne.mpr same]

theorem hashesPayload_get? {hashes : Dict Str Sha256.Digest} {caseId : Str} {hash : Sha256.Digest}
    (h : hashes.get? caseId = some hash) :
    (hashesPayload hashes).get? caseId = some (.str hash.text) := by
  rw [hashesPayload_eq, h, Option.map_some]

theorem EntryStands.listed {e : Entry} (h : EntryStands context e) (repetitions : Nat)
    (selectedCases : List Str) : Listed (context.progress repetitions selectedCases) e.key e.row := by
  obtain ⟨source, found, recorded⟩ := h.ledgerRow.source
  have hash : context.sourceHashes.get? e.key.caseId = some source := by
    unfold sourceHash at found
    split at found
    next hash hg =>
      cases found
      exact hg
    next => cases found
  refine ⟨h.ledgerRow.isObj, h.ledgerRow.distinct, h.printable, h.ledgerRow.version,
    h.ledgerRow.repetition, h.ledgerRow.caseId, _, hashesPayload_get? hash, ?_⟩
  rw [recorded, pyEq_str, beq_self_eq_true]

/-- The row of a case, appended, is an entry whose artifacts stand. -/
theorem runCase_entry (hk : key.caseId ∈ caseIds) (expected : expectedCase.distinct = true)
    (h : (runCase context key expectedCase input).Returns t row t')
    (printable : row.printable = true) :
    EntryStands context ⟨key, input, row⟩ ∧ ArtifactsStand context.suiteDir ⟨key, input, row⟩ t' :=
  have made := runCase_returns h
  ⟨⟨hk, made.ledgerRow hk, printable⟩, made.stands hk expected⟩

end Rows

section Evaluation

/-- One evaluation of a suite: its pair, the contract of its case and what it meets. -/
structure CaseRun where
  key : CaseKey
  expectedCase : Json
  input : CaseInput
  expected : expectedCase.distinct = true

/-- Cases evaluated one after the other, each row appended to the ledger. -/
def evaluateAll (context : SuiteContext) : List CaseRun → Disk (List Json)
  | [] => pure []
  | run :: runs => do
    let row ← runCase context run.key run.expectedCase run.input
    appendJsonl (ledgerPath context.suiteDir) row
    let rows ← evaluateAll context runs
    pure (row :: rows)

variable {context : SuiteContext} {entries : List Entry} {runs : List CaseRun} {run : CaseRun}
  {row : Json} {rows : List Json} {t t' t'' : FileTree}

/-- The ledger has the rows of these entries, and their artifacts are on disk. -/
structure LedgerStands (context : SuiteContext) (entries : List Entry) (t : FileTree) : Prop where
  holds : LedgerHolds context.suiteDir (entries.map Entry.row) t
  readable : t.isDir (ledgerPath context.suiteDir) = false
  stands : ∀ e ∈ entries, EntryStands context e
  artifacts : ∀ e ∈ entries, ArtifactsStand context.suiteDir e t

theorem runCase_keeps_file {name : Str} (hn : name ≠ lit "agent-runs")
    (h : (runCase context run.key run.expectedCase run.input).Returns t row t') :
    t'.get? (context.suiteDir ++ [name]) = t.get? (context.suiteDir ++ [name]) := by
  obtain ⟨above, below⟩ := suiteFile_apart context.suiteDir hn run.key run.input
  exact h.keeps (runCase_below context run.key run.expectedCase run.input _ above below)

theorem appendJsonl_returns {p : Path} {u : Unit} (h : (appendJsonl p row).Returns t u t') :
    (appendLine p row t).2 = .ok () ∧ (appendLine p row t).1 = t' := by
  rw [appendJsonl, Disk.write, returns_act] at h
  rw [h]
  exact ⟨rfl, rfl⟩

/-- Another case and its row leave the artifacts of an entry alone. -/
theorem ArtifactsStand.step {e : Entry} (h : ArtifactsStand context.suiteDir e t)
    (other : e.key ≠ run.key)
    (evaluated : (runCase context run.key run.expectedCase run.input).Returns t row t')
    {u : Unit} (appended : (appendJsonl (ledgerPath context.suiteDir) row).Returns t' u t'') :
    ArtifactsStand context.suiteDir e t'' := by
  have differ : context.suiteDir ++ runFolder e.key e.input ≠
      context.suiteDir ++ runFolder run.key run.input := fun he =>
    runFolder_ne other e.input run.input (List.append_cancel_left he)
  have ran : AgreesBelow (context.suiteDir ++ runFolder e.key e.input) t t' :=
    (runCase_below context run.key run.expectedCase run.input).agrees
      (by simp [runFolder, caseFolder]) differ evaluated
  obtain ⟨-, rfl⟩ := appendJsonl_returns appended
  refine h.congr (ran.trans fun q hq => (appendLine_ne ?_).symm)
  rintro rfl
  exact (suiteFile_apart context.suiteDir (by simp) e.key e.input).1 hq

/-- Evaluating one more pair adds its row to the ledger. -/
theorem LedgerStands.step (h : LedgerStands context entries t) (known : run.key.caseId ∈ caseIds)
    (fresh : run.key ∉ entries.map Entry.key)
    (evaluated : (runCase context run.key run.expectedCase run.input).Returns t row t')
    {u : Unit} (appended : (appendJsonl (ledgerPath context.suiteDir) row).Returns t' u t'') :
    LedgerStands context (entries ++ [⟨run.key, run.input, row⟩]) t'' := by
  obtain ⟨written, after⟩ := appendJsonl_returns appended
  obtain ⟨printable, line, -, stored⟩ := appendLine_ok written
  obtain ⟨stands, artifacts⟩ := runCase_entry known run.expected evaluated printable
  have notRuns : lit "case-evaluations.jsonl" ≠ lit "agent-runs" := by simp
  have before := h.holds.congr (runCase_keeps_file notRuns evaluated)
  have artifactsAfter : ArtifactsStand context.suiteDir ⟨run.key, run.input, row⟩ t'' := by
    rw [← after]
    refine artifacts.congr fun q hq => (appendLine_ne ?_).symm
    rintro rfl
    exact (suiteFile_apart context.suiteDir (by simp) run.key run.input).1 hq
  constructor
  · rw [List.map_append, ← after]
    exact before.append written
  · rw [← after, FileTree.isDir, stored]
    simp [ledgerPath]
  · exact List.forall_mem_append.mpr ⟨h.stands, List.forall_mem_singleton.mpr stands⟩
  · refine List.forall_mem_append.mpr ⟨fun e he => ?_, List.forall_mem_singleton.mpr artifactsAfter⟩
    have other : e.key ≠ run.key := fun same =>
      fresh (List.mem_map.mpr ⟨e, he, same⟩)
    exact (h.artifacts e he).step other evaluated appended

/-- Evaluating distinct pairs adds their rows to the ledger, in order. -/
theorem evaluateAll_stands (h : LedgerStands context entries t)
    (known : ∀ run ∈ runs, run.key.caseId ∈ caseIds)
    (once : (entries.map Entry.key ++ runs.map CaseRun.key).Nodup)
    (evaluated : (evaluateAll context runs).Returns t rows t') :
    ∃ new : List Entry, LedgerStands context (entries ++ new) t' ∧
      new.map (fun e => (e.key, e.input)) = runs.map (fun run => (run.key, run.input)) ∧
      new.map Entry.row = rows := by
  induction runs generalizing entries t rows with
  | nil =>
    obtain ⟨rfl, rfl⟩ := returns_pure.mp evaluated
    exact ⟨[], by rwa [List.append_nil], rfl, rfl⟩
  | cons run runs ih =>
    obtain ⟨row, _, first, evaluated⟩ := returns_bind.mp evaluated
    obtain ⟨_, after, appended, evaluated⟩ := returns_bind.mp evaluated
    obtain ⟨rest, _, others, last⟩ := returns_bind.mp evaluated
    obtain ⟨rfl, rfl⟩ := returns_pure.mp last
    have fresh : run.key ∉ entries.map Entry.key := by
      intro hm
      exact (List.disjoint_of_nodup_append once) hm (by simp)
    have stepped := h.step (known run List.mem_cons_self) fresh first appended
    obtain ⟨new, stands, inputs, rfl⟩ := ih stepped
      (fun r hr => known r (List.mem_cons_of_mem run hr)) (by simpa using once) others
    refine ⟨⟨run.key, run.input, row⟩ :: new, ?_, ?_, rfl⟩
    · simpa using stands
    · rw [List.map_cons, inputs, List.map_cons]

/-- Of a ledger whose rows stand the reader only asks what the texts and counts of its cases are. -/
theorem LedgerStands.read {repetitions : Nat} {selectedCases : List Str}
    (h : LedgerStands context entries t)
    (scheduled : ∀ e ∈ entries, e.key ∈ schedule repetitions selectedCases)
    (once : (entries.map Entry.key).Nodup) :
    readProgress (context.progress repetitions selectedCases) (ledgerPath context.suiteDir) t =
      .ok (entries.map Entry.row) ↔ ∀ e ∈ entries, LedgerSafe e.input := by
  have rows : entries.map Entry.row = (entries.map Entry.listing).map Prod.snd := by
    simp [Entry.listing, Function.comp_def]
  have keys : entries.map Entry.key = (entries.map Entry.listing).map Prod.fst := by
    simp [Entry.listing, Function.comp_def]
  have listed : ∀ e ∈ entries.map Entry.listing,
      Listed (context.progress repetitions selectedCases) e.1 e.2 :=
    List.forall_mem_map.mpr fun e he => (h.stands e he).listed repetitions selectedCases
  have holds := h.holds
  rw [rows] at holds ⊢
  rw [keys] at once
  constructor
  · intro read e he
    obtain ⟨-, accepted⟩ := readProgress_inv holds listed read
    obtain ⟨safe, -, line, valid⟩ := accepted _ (List.mem_map_of_mem he)
    have row := (h.stands e he).ledgerRow
    obtain ⟨input, output⟩ := row.shaped.mp ((h.artifacts e he).accepted.mp valid)
    exact ⟨row.lineSafe.mp safe, input, output⟩
  · intro safe
    refine readProgress_ok holds h.readable listed ?_ (List.forall_mem_map.mpr scheduled) once ?_
    · refine List.forall_mem_map.mpr fun e he => ?_
      exact (h.stands e he).ledgerRow.lineSafe.mpr (safe e he).texts
    · refine List.forall_mem_map.mpr fun e he line => (h.artifacts e he).accepted.mpr ?_
      exact (h.stands e he).ledgerRow.shaped.mpr ⟨(safe e he).inputTokens, (safe e he).outputTokens⟩

/-- The reader returns the rows that the evaluation of distinct scheduled pairs wrote exactly if no
text from outside ends a line past ASCII and no token count is negative. -/
theorem readProgress_evaluateAll {repetitions : Nat} {selection : Option (List Str)}
    {selectedCases : List Str} (selected : validateCases selection = .ok selectedCases)
    (scheduled : ∀ run ∈ runs, run.key ∈ schedule repetitions selectedCases)
    (once : (runs.map CaseRun.key).Nodup) (fresh : t.exists_ (ledgerPath context.suiteDir) = false)
    (evaluated : (evaluateAll context runs).Returns t rows t') :
    readProgress (context.progress repetitions selectedCases) (ledgerPath context.suiteDir) t' =
      .ok rows ↔ ∀ run ∈ runs, LedgerSafe run.input := by
  have isDir : t.isDir (ledgerPath context.suiteDir) = false := by
    rw [FileTree.exists_, Bool.or_eq_false_iff] at fresh
    exact fresh.2
  have start : LedgerStands context [] t := by
    refine ⟨?_, isDir, by simp, by simp⟩
    rw [LedgerHolds, contentOrEmpty_of_absent fresh]
    rfl
  have known : ∀ run ∈ runs, run.key.caseId ∈ caseIds := by
    intro run hr
    obtain ⟨-, -, inside⟩ := validateCases_ok selected
    exact inside _ (mem_schedule.mp (scheduled run hr)).2
  obtain ⟨entries, stands, inputs, rfl⟩ := evaluateAll_stands start known (by simpa using once)
    evaluated
  rw [List.nil_append] at stands
  have keys : entries.map Entry.key = runs.map CaseRun.key := by
    simpa [Function.comp_def] using congrArg (List.map Prod.fst) inputs
  have same : entries.map Entry.input = runs.map CaseRun.input := by
    simpa [Function.comp_def] using congrArg (List.map Prod.snd) inputs
  rw [stands.read ?_ (keys ▸ once)]
  · rw [← List.forall_mem_map (f := Entry.input) (P := LedgerSafe), same, List.forall_mem_map]
  · rw [← List.forall_mem_map (f := Entry.key) (P := (· ∈ schedule repetitions selectedCases)), keys,
      List.forall_mem_map]
    exact scheduled

end Evaluation

section Example

def errorContext : SuiteContext where
  suiteDir := [lit "suite"]
  sourceHashes := Dict.empty.set (lit "M01") (Sha256.digest [])
  manifestSha256 := lit "cd"

/-- A case whose model answered with a text that could not be parsed. -/
def errorRun (excerpt : Str) : CaseRun where
  key := ⟨1, lit "M01"⟩
  expectedCase := .null
  expected := rfl
  input :=
    { agentRepoSha256 := .ok (Sha256.digest [])
      scan :=
        { runId := firstRunId
          response := .error (.provider
            { kind := .responseParse
              message := lit "not JSON"
              modelResponseExcerpts := [excerpt] })
          runtimeSeconds := .zero
          files := ⟨[], [], [], []⟩ }
      clean := .error .other
      mutant := .error .other }

theorem readProgress_evaluateAll_plain : ∃ rows t',
    (evaluateAll errorContext [errorRun (lit "x")]).Returns Dict.empty rows t' ∧
      readProgress (errorContext.progress 1 [lit "M01"]) (ledgerPath errorContext.suiteDir) t' =
        .ok rows := by
  have returned : ∃ rows, (evaluateAll errorContext [errorRun (lit "x")]).Returns Dict.empty rows
      (evaluateAll errorContext [errorRun (lit "x")] Dict.empty).state :=
    exists_returns (by decide +kernel)
  obtain ⟨rows, h⟩ := returned
  have selected : validateCases (some [lit "M01"]) = .ok [lit "M01"] := rfl
  refine ⟨rows, _, h, (readProgress_evaluateAll selected (by decide) (by decide)
    (by decide) h).mpr ?_⟩
  intro run hr
  cases List.mem_singleton.mp hr
  exact ⟨by decide, by decide, by decide⟩

/-- A line separator in the answer of the model breaks the line of its row. -/
theorem readProgress_lineSeparator : ∃ rows t',
    (evaluateAll errorContext [errorRun [0x2028]]).Returns Dict.empty rows t' ∧
      readProgress (errorContext.progress 1 [lit "M01"]) (ledgerPath errorContext.suiteDir) t' ≠
        .ok rows := by
  have returned : ∃ rows, (evaluateAll errorContext [errorRun [0x2028]]).Returns Dict.empty rows
      (evaluateAll errorContext [errorRun [0x2028]] Dict.empty).state :=
    exists_returns (by decide +kernel)
  obtain ⟨rows, h⟩ := returned
  refine ⟨rows, _, h, fun read => ?_⟩
  have refused : (readProgress (errorContext.progress 1 [lit "M01"])
      (ledgerPath errorContext.suiteDir)
      (evaluateAll errorContext [errorRun [0x2028]] Dict.empty).state).isOk = false := by
    decide +kernel
  rw [read] at refused
  cases refused

end Example

end EdgecaseForge

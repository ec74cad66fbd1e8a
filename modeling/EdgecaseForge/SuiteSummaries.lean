import EdgecaseForge.FrozenBenchmark
import EdgecaseForge.Medians
import EdgecaseForge.PySums

namespace EdgecaseForge

open Text Effect Binary64 Statistics

/-- The numbers that scores are computed with. -/
structure Arithmetic (α : Type) where
  ratio : Int → Nat → Except PyError α
  le : α → α → Prop
  decidable : DecidableRel le
  mean : α → α → α

instance decidableLe {α : Type} (A : Arithmetic α) : DecidableRel A.le :=
  A.decidable

/-- The floats of the interpreter. -/
def floats : Arithmetic Double where
  ratio := divideInts
  le x y := x.le y = true
  decidable := inferInstance
  mean x y := (x.add y).half

section Scores

variable {α : Type}

/-- `min(values)`, with the values after the first. -/
def Arithmetic.least (A : Arithmetic α) (first : α) (values : List α) : α :=
  values.foldl (fun least x => if A.le least x then least else x) first

def Arithmetic.greatest (A : Arithmetic α) (first : α) (values : List α) : α :=
  values.foldl (fun greatest x => if A.le x greatest then greatest else x) first

/-- The median of scores and their range. -/
structure Spread (α : Type) where
  median : α
  least : α
  greatest : α

def Arithmetic.spread (A : Arithmetic α) (values : List α) : Except PyError (Spread α) :=
  match values with
  | [] => .error .other
  | first :: rest =>
    match medianBy A.le A.mean values with
    | none => .error .other
    | some median => .ok ⟨median, A.least first rest, A.greatest first rest⟩

structure RepetitionScore (α : Type) where
  repetition : Nat
  complete : Bool
  evaluatedMutants : Nat
  expectedMutants : Nat
  candidateKills : Int
  score : Option α

structure CandidateScores (α : Type) where
  complete : Bool
  repetitionScores : List (RepetitionScore α)
  candidateKills : Int
  spread : Option (Spread α)

/-- The rows that pass a check. -/
def selectRows (check : Json → Except PyError Bool) : List Json → Except PyError (List Json)
  | [] => .ok []
  | row :: rows => do
    let passes ← check row
    let rest ← selectRows check rows
    pure (if passes then row :: rest else rest)

def isMutant (row : Json) : Except PyError Bool := do
  let caseId ← subscript row "case_id"
  pure !(caseId.pyEq (.str cleanControl))

def hasRepetition (repetition : Nat) (row : Json) : Except PyError Bool := do
  let value ← subscript row "repetition"
  pure (value.pyEq (.int repetition))

/-- The scheduled pair of a row, for the set of pairs. -/
def observedPair (expected : List CaseKey) (row : Json) : Except PyError (Option CaseKey) := do
  let repetition ← subscript row "repetition"
  let caseId ← subscript row "case_id"
  Except.check (isHashable repetition && isHashable caseId) .typeError
  pure (expected.find? fun key =>
    repetition.pyEq (.int key.repetition) && caseId.pyEq (.str key.caseId))

/-- `observed_pairs == expected_pairs`. -/
def coversAll (expected : List CaseKey) (observed : List (Option CaseKey)) : Bool :=
  expected.all (fun key => observed.contains (some key)) && !observed.contains none

/-- `sum(int(item[name]) for item in rows)`. -/
def intTotal (k : DigitTable) (name : String) (rows : List Json) : Except PyError Int := do
  let values ← rows.mapM fun row => do
    let value ← subscript row name
    pyInt k value
  pure values.sum

def selectedMutants (selectedCases : List Str) : List Str :=
  selectedCases.filter (· ≠ cleanControl)

/-- The share of kills, where there is one. -/
def shareOf (A : Arithmetic α) (kills : Int) (expected : Nat) (available : Bool) :
    Except PyError (Option α) :=
  if available ∧ expected ≠ 0 then (A.ratio kills expected).map some else .ok none

/-- The spread of scores, where there is one. -/
def spreadOf (A : Arithmetic α) (values : List α) (available : Bool) :
    Except PyError (Option (Spread α)) :=
  if available then (A.spread values).map some else .ok none

def repetitionScore (A : Arithmetic α) (k : DigitTable) (selectedCases : List Str)
    (observed : List (Option CaseKey)) (mutants : List Json) (repetition : Nat) :
    Except PyError (RepetitionScore α) := do
  let rows ← selectRows (hasRepetition repetition) mutants
  let kills ← intTotal k "candidate_kill" rows
  let complete := selectedCases.all fun caseId => observed.contains (some ⟨repetition, caseId⟩)
  let expected := (selectedMutants selectedCases).length
  let score ← shareOf A kills expected complete
  pure { repetition, complete, evaluatedMutants := rows.length, expectedMutants := expected,
         candidateKills := kills, score }

/-- The scores of `_write_summary`. -/
def candidateScores (A : Arithmetic α) (k : DigitTable) (repetitions : Nat)
    (selectedCases : List Str) (rows : List Json) : Except PyError (CandidateScores α) := do
  let mutants ← selectRows isMutant rows
  let expected := schedule repetitions selectedCases
  let observed ← rows.mapM (observedPair expected)
  let complete := coversAll expected observed
  let scores ← (List.range' 1 repetitions).mapM
    (repetitionScore A k selectedCases observed mutants)
  let kills ← intTotal k "candidate_kill" mutants
  let spread ← spreadOf A (scores.filterMap (·.score))
    (complete ∧ selectedMutants selectedCases ≠ [])
  pure { complete, repetitionScores := scores, candidateKills := kills, spread }

end Scores

section Payload

/-- What `_write_summary` is given besides the rows. -/
structure SummarySettings where
  suiteId : Json
  providerName : Str
  providerModel : Str
  agentConfig : Json
  repetitions : Nat
  selectedCases : List Str

def statusText (complete : Bool) : Json :=
  .str (lit (if complete then "complete" else "partial"))

def floatOrNull (x : Option Double) : Json :=
  x.elim .null .float

def medianJson (spread : Option (Spread Double)) : Json :=
  floatOrNull (spread.map (·.median))

def rangeJson (spread : Option (Spread Double)) : Json :=
  spread.elim .null fun s => .list [.float s.least, .float s.greatest]

def RepetitionScore.payload (score : RepetitionScore Double) : Json :=
  .object [("repetition", .int score.repetition), ("status", statusText score.complete),
    ("evaluated_mutants", .int score.evaluatedMutants),
    ("expected_mutants", .int score.expectedMutants),
    ("candidate_kills", .int score.candidateKills), ("score", floatOrNull score.score)]

/-- `any(item[name] for item in rows)`. -/
def anyTruthy (name : String) : List Json → Except PyError Bool
  | [] => .ok false
  | row :: rows => do
    let value ← subscript row name
    if value.truthy then pure true else anyTruthy name rows

/-- The score blockers, given which of them hold. -/
def blockerList (marks : List (Bool × String)) : List Str :=
  (marks.filter (·.1)).map fun mark => lit mark.2

def summaryBlockers (selectedCases : List Str) (complete : Bool) (gitState : Json)
    (rows : List Json) : Except PyError (List Str) := do
  let integrity ← anyTruthy "integrity_error_count" rows
  let infrastructure ← anyTruthy "evaluator_infrastructure_error_count" rows
  let available ← dictGet gitState "available" .null
  let dirty ← dictGet gitState "dirty" .null
  let pending ← anyTruthy "requires_invariant_adjudication" rows
  pure (blockerList [(selectedCases ≠ caseIds, "subset_selection"),
    (!complete, "incomplete_case_matrix"), (integrity, "integrity_check_failed"),
    (infrastructure, "evaluator_infrastructure_error"),
    (!available.truthy || dirty.truthy, "unfrozen_git_state"), (pending, "pending_adjudication")])

def isCleanControl (row : Json) : Except PyError Bool := do
  let caseId ← subscript row "case_id"
  if caseId.pyEq (.str cleanControl) then do
    let status ← subscript row "status"
    pure (status.pyEq (.str (lit "completed")))
  else pure false

def hasClaims (row : Json) : Except PyError Bool := do
  let findings ← subscript row "reported_findings"
  let number ← numberOf findings
  pure number.isPositive

/-- `sum(item[name] for item in rows)`. -/
def total (name : String) (rows : List Json) : Except PyError Number := do
  let values ← rows.mapM (subscript · name)
  sumValues values

def isModelError (row : Json) : Except PyError Bool := do
  let status ← subscript row "status"
  pure (status.pyEq (.str (lit "model_output_error")))

/-- The frequency of a kind of rows, if there are rows. -/
def perRow (count : Number) (rows : List Json) : Except PyError Json :=
  if rows = [] then .ok .null else (count.divide rows.length).map .float

/-- The summary that `_write_summary` writes. -/
def summaryPayload (k : DigitTable) (settings : SummarySettings) (gitState : Json)
    (scores : CandidateScores Double) (rows : List Json) : Except PyError Json := do
  let blockers ← summaryBlockers settings.selectedCases scores.complete gitState rows
  let controls ← selectRows isCleanControl rows
  let claimed ← selectRows hasClaims controls
  let claims ← total "reported_findings" controls
  let frequency ← perRow (.int claimed.length) controls
  let claimsEach ← perRow claims controls
  let assertionFailures ← intTotal k "clean_assertion_failure" rows
  let assertionNodes ← total "clean_assertion_failure_nodes" rows
  let invalidNodes ← total "invalid_nodes" rows
  let modelErrors ← selectRows isModelError rows
  let invalidTests ← total "invalid_generated_test_count" rows
  let infrastructure ← total "evaluator_infrastructure_error_count" rows
  let inputTokens ← total "input_tokens" rows
  let outputTokens ← total "output_tokens" rows
  let latency ← total "model_latency_seconds" rows
  let semantic ← total "semantic_attempts" rows
  let transport ← total "transport_attempts" rows
  let repairs ← intTotal k "repair_used" rows
  let runtime ← total "runtime_seconds" rows
  let execution ← total "execution_runtime_seconds" rows
  pure (.object [("suite_id", settings.suiteId), ("benchmark_version", .str benchmarkVersion),
    ("status", statusText scores.complete), ("official_score_eligible", .bool blockers.isEmpty),
    ("official_score_blockers", texts blockers), ("provider", .str settings.providerName),
    ("model", .str settings.providerModel), ("agent", settings.agentConfig),
    ("repetitions", .int settings.repetitions), ("selected_cases", texts settings.selectedCases),
    ("cases", .list rows), ("candidate_kills", .int scores.candidateKills),
    ("candidate_mutation_score", medianJson scores.spread),
    ("candidate_mutation_score_range", rangeJson scores.spread),
    ("repetition_scores", .list (scores.repetitionScores.map RepetitionScore.payload)),
    ("confirmed_kills", .int 0), ("confirmed_mutation_score", .null),
    ("clean_control_evaluations_expected",
      .int (if settings.selectedCases.contains cleanControl then settings.repetitions else 0)),
    ("clean_control_evaluations_completed", .int controls.length),
    ("clean_control_evaluations_with_claims", .int claimed.length),
    ("clean_control_claims_reported", claims.json), ("clean_control_claim_frequency", frequency),
    ("clean_control_claims_per_completed_evaluation", claimsEach),
    ("evaluations_with_clean_assertion_failures", .int assertionFailures),
    ("clean_assertion_failure_nodes", assertionNodes.json), ("invalid_nodes", invalidNodes.json),
    ("model_output_errors", .int modelErrors.length),
    ("invalid_generated_tests", invalidTests.json),
    ("evaluator_infrastructure_errors", infrastructure.json), ("input_tokens", inputTokens.json),
    ("output_tokens", outputTokens.json), ("model_latency_seconds", latency.round4.json),
    ("semantic_attempts", semantic.json), ("transport_attempts", transport.json),
    ("repair_used_evaluations", .int repairs), ("runtime_seconds", runtime.round4.json),
    ("execution_runtime_seconds", execution.round4.json),
    ("note", .str (lit
      "Candidate kills require independent invariant adjudication before confirmation."))])

/-- What the summary says of the scores and the rows. -/
theorem summaryPayload_fields {k : DigitTable} {settings : SummarySettings} {gitState summary : Json}
    {scores : CandidateScores Double} {rows : List Json}
    (h : summaryPayload k settings gitState scores rows = .ok summary) :
    summary.get (lit "suite_id") = settings.suiteId ∧
      summary.get (lit "status") = statusText scores.complete ∧
      summary.get (lit "cases") = .list rows ∧
      summary.get (lit "candidate_mutation_score") = medianJson scores.spread := by
  unfold summaryPayload at h
  iterate 20 obtain ⟨_, -, h⟩ := Except.bind_eq_ok.mp h
  cases h
  simp only [Json.get_object]
  exact ⟨rfl, rfl, rfl, rfl⟩

def configPath (suiteDir : Path) : Path :=
  suiteDir ++ [lit "suite-config.json"]

def summaryPath (suiteDir : Path) : Path :=
  suiteDir ++ [lit "suite-summary.json"]

/-- `_write_summary`. -/
def writeSummary (k : DigitTable) (suiteDir : Path) (settings : SummarySettings)
    (rows : List Json) : Disk Unit := do
  let scores ← Program.lift
    (candidateScores floats k settings.repetitions settings.selectedCases rows)
  let config ← Disk.read (readJson (configPath suiteDir))
  let frozen ← Program.lift (subscript config "frozen")
  let gitState ← Program.lift (subscript frozen "git_state")
  let summary ← Program.lift (summaryPayload k settings gitState scores rows)
  writeJsonAtomic (summaryPath suiteDir) summary

end Payload

end EdgecaseForge

import EdgecaseForge.Adjudications

namespace EdgecaseForge

open Text Effect Binary64 Statistics

/-- The hashes of the inputs of an adjudication. -/
structure SourceHashes where
  config : Str
  progress : Str
  summary : Str
  decisions : Str

def sourceHashes (suiteDir decisionsPath : Path) (t : FileTree) : Except PyError SourceHashes := do
  let config ← fileSha256 (configPath suiteDir) t
  let progress ← fileSha256 (progressPath suiteDir) t
  let summary ← fileSha256 (summaryPath suiteDir) t
  let decisions ← fileSha256 decisionsPath t
  pure { config, progress, summary, decisions }

/-- What is written of an adjudication, before it is payload. -/
structure SuiteAdjudication where
  suiteId : Str
  suiteFingerprintSha256 : Sha256.Digest
  reviewer : Str
  reviewPolicy : Str
  sources : SourceHashes
  decisions : List CaseDecision

def SuiteAdjudication.payload (adjudication : SuiteAdjudication) : Json :=
  .object [("schema_version", .str (lit "suite-adjudication-v1")),
    ("suite_id", .str adjudication.suiteId),
    ("suite_fingerprint_sha256", .str adjudication.suiteFingerprintSha256.text),
    ("reviewer", .str adjudication.reviewer), ("review_policy", .str adjudication.reviewPolicy),
    ("source_config_sha256", .str adjudication.sources.config),
    ("source_progress_sha256", .str adjudication.sources.progress),
    ("source_summary_sha256", .str adjudication.sources.summary),
    ("source_decisions_sha256", .str adjudication.sources.decisions),
    ("candidate_kills_reviewed", .int adjudication.decisions.length),
    ("decisions", .list (adjudication.decisions.map CaseDecision.payload))]

/-- A suite with the adjudication that its decision file asks for. -/
structure Review where
  suite : RawSuite
  adjudication : SuiteAdjudication

/-- The part of `adjudicate_suite` before it writes. -/
def reviewSuite (decode : DecisionReader) (suiteDir decisionsPath : Path) (t : FileTree) :
    Except PyError Review := do
  requireFiles t
    [configPath suiteDir, progressPath suiteDir, summaryPath suiteDir, decisionsPath]
  let suite ← readSuite suiteDir t
  let decisions ← readDecisions decode decisionsPath t
  Except.check ((Json.str decisions.suiteId).pyEq (suite.config.config.get (lit "suite_id")))
    (.valueError (lit "Decision file targets a different suite ID"))
  Except.check (decisions.suiteFingerprintSha256.text == suite.config.fingerprint)
    (.valueError (lit "Decision file targets a different suite fingerprint"))
  let caseDecisions ← decideCases suite.config.schedule suite.evaluations decisions.decisions
  let sources ← sourceHashes suiteDir decisionsPath t
  pure { suite, adjudication := {
    suiteId := decisions.suiteId
    suiteFingerprintSha256 := decisions.suiteFingerprintSha256
    reviewer := strip decisions.reviewer
    reviewPolicy := strip decisions.reviewPolicy
    sources, decisions := caseDecisions } }

section Summary

/-- What a `for` loop goes through. -/
def iterate : Json → Except PyError (List Json)
  | .list items => .ok items
  | .str s => .ok (s.map fun c => .str [c])
  | .obj fields => .ok (fields.map fun field => .str field.1)
  | _ => .error .typeError

/-- The blockers that are left when the decisions are no longer pending. -/
def remainingBlockers (rawSummary : Json) : Except PyError (List Json) := do
  let named ← dictGet rawSummary "official_score_blockers" (.list [])
  let blockers ← iterate named
  pure (blockers.filter fun blocker => !blocker.pyEq (.str (lit "pending_adjudication")))

def ConfirmedScore.payload (score : ConfirmedScore Double) : Json :=
  .object [("repetition", .int score.repetition), ("expected_mutants", .int score.expectedMutants),
    ("confirmed_kills", .int score.confirmedKills), ("score", floatOrNull score.score)]

/-- `_build_adjudicated_summary`. -/
def buildAdjudicatedSummary (review : Review) (adjudicationSha256 : Str) : Except PyError Json := do
  let config := review.suite.config
  let raw := review.suite.rawSummary
  let scores ← confirmedScores floats config.repetitions config.selectedCases
    review.adjudication.decisions
  let blockers ← remainingBlockers raw
  let suiteId ← subscript config.config "suite_id"
  let benchmarkVersion ← subscript raw "benchmark_version"
  let provider ← subscript raw "provider"
  let model ← subscript raw "model"
  let candidateKills ← subscript raw "candidate_kills"
  let candidateScore ← subscript raw "candidate_mutation_score"
  let claims ← subscript raw "clean_control_claims_reported"
  let failures ← subscript raw "evaluations_with_clean_assertion_failures"
  let modelErrors ← subscript raw "model_output_errors"
  let invalidTests ← subscript raw "invalid_generated_tests"
  let infrastructure ← subscript raw "evaluator_infrastructure_errors"
  pure (.object ([("schema_version", .str (lit "adjudicated-summary-v1")), ("suite_id", suiteId),
    ("suite_fingerprint_sha256", .str config.fingerprint), ("benchmark_version", benchmarkVersion),
    ("provider", provider), ("model", model), ("repetitions", .int config.repetitions),
    ("selected_cases", texts config.selectedCases),
    ("source_summary_sha256", .str review.adjudication.sources.summary),
    ("adjudication_sha256", .str adjudicationSha256),
    ("official_score_eligible", .bool blockers.isEmpty), ("official_score_blockers", .list blockers),
    ("candidate_kills", candidateKills), ("candidate_mutation_score", candidateScore),
    ("confirmed_kills", .int scores.confirmed), ("rejected_candidate_kills", .int scores.rejected),
    ("confirmed_mutation_score", medianJson scores.spread),
    ("confirmed_mutation_score_range", rangeJson scores.spread),
    ("repetition_scores", .list (scores.repetitionScores.map ConfirmedScore.payload)),
    ("clean_control_claims_reported", claims),
    ("evaluations_with_clean_assertion_failures", failures), ("model_output_errors", modelErrors),
    ("invalid_generated_tests", invalidTests), ("evaluator_infrastructure_errors", infrastructure),
    ("decisions", .list (review.adjudication.decisions.map CaseDecision.payload)),
    ("note", .str (lit
      "Confirmed score is an immutable overlay; raw suite evidence is unchanged."))] ++
    ((raw.get? (lit "agent")).map fun agent => ("agent", agent)).toList))

end Summary

section Overlay

def adjudicationName : Str :=
  lit "adjudication.json"

def adjudicatedName : Str :=
  lit "adjudicated-summary.json"

def adjudicationPath (suiteDir : Path) : Path :=
  suiteDir ++ [adjudicationName]

def adjudicatedPath (suiteDir : Path) : Path :=
  suiteDir ++ [adjudicatedName]

/-- `_write_once`. -/
def writeOnce (directory : Path) (name : Str) (payload : Json) : Disk Unit := do
  let present ← Disk.read fun t => .ok (t.exists_ (directory ++ [name]))
  if present then do
    let existing ← Disk.read (readObject (directory ++ [name]) name)
    Program.lift (Except.check (existing.pyEq payload)
      (.valueError (lit "Refusing to replace existing immutable " ++ name)))
  else writeJsonAtomic (directory ++ [name]) payload

/-- `adjudicate_suite`. -/
def adjudicateSuite (decode : DecisionReader) (suiteDir decisionsPath : Path) :
    Disk (Path × Path) := do
  let review ← Disk.read (reviewSuite decode suiteDir decisionsPath)
  writeOnce suiteDir adjudicationName review.adjudication.payload
  let adjudicationSha256 ← Program.lift (jsonSha256 review.adjudication.payload)
  let summary ← Program.lift (buildAdjudicatedSummary review adjudicationSha256)
  writeOnce suiteDir adjudicatedName summary
  pure (adjudicationPath suiteDir, adjudicatedPath suiteDir)

end Overlay

end EdgecaseForge

import EdgecaseForge.SuiteSummaries

namespace EdgecaseForge

open Text Effect Binary64 Statistics

inductive Verdict
  | confirmed
  | rejected
  deriving DecidableEq

def Verdict.text : Verdict → Str
  | .confirmed => lit "confirmed"
  | .rejected => lit "rejected"

/-- `AdjudicationDecision`, as the validation lets it through. -/
structure AdjudicationDecision where
  repetition : Nat
  caseId : Str
  testSha256 : Sha256.Digest
  differentialSha256 : Sha256.Digest
  decision : Verdict
  reason : Str
  positive : 1 ≤ repetition
  mutant : caseId.length = 3 ∧ caseId.head? = some 0x4D
  reasoned : reason ≠ []

def AdjudicationDecision.key (decision : AdjudicationDecision) : CaseKey :=
  ⟨decision.repetition, decision.caseId⟩

structure AdjudicationDecisions where
  suiteId : Str
  suiteFingerprintSha256 : Sha256.Digest
  reviewer : Str
  reviewPolicy : Str
  decisions : List AdjudicationDecision
  named : suiteId ≠ [] ∧ reviewer ≠ [] ∧ reviewPolicy ≠ []

/-- `AdjudicationDecisions.model_validate_json` of a text. -/
abbrev DecisionReader :=
  Str → Option AdjudicationDecisions

section Inputs

/-- `_read_object`. -/
def readObject (p : Path) (label : Str) (t : FileTree) : Except PyError Json :=
  match readJson p t with
  | .error .unicodeDecodeError | .error (.jsonDecodeError _) =>
    .error (.valueError (lit "Invalid " ++ label ++ lit " JSON"))
  | .error e => .error e
  | .ok value =>
    if value.isObj then .ok value
    else .error (.valueError (lit "Invalid " ++ label ++ lit ": expected an object"))

def invalidSetting (problem label : String) : PyError :=
  .valueError (lit ("Suite configuration has " ++ problem ++ " " ++ label))

/-- `_positive_int`. -/
def positiveInt (value : Json) (label : String) : Except PyError Nat :=
  match value with
  | .int n => if 1 ≤ n then .ok n.toNat else .error (invalidSetting "invalid" label)
  | _ => .error (invalidSetting "invalid" label)

def asText : Json → Option Str
  | .str s => some s
  | _ => none

/-- `_string_tuple`. -/
def stringTuple (value : Json) (label : String) : Except PyError (List Str) :=
  match value with
  | .list items =>
    match items.mapM asText with
    | some (first :: rest) =>
      if (first :: rest).Nodup then .ok (first :: rest)
      else .error (invalidSetting "duplicate" label)
    | _ => .error (invalidSetting "invalid" label)
  | _ => .error (invalidSetting "invalid" label)

/-- The configuration of a suite, as far as it is checked. -/
structure SuiteConfig where
  config : Json
  frozen : Json
  repetitions : Nat
  selectedCases : List Str
  sourceHashes : Json
  fingerprint : Str

def readConfig (suiteDir : Path) (t : FileTree) : Except PyError SuiteConfig := do
  let config ← readObject (configPath suiteDir) (lit "suite configuration") t
  Except.check ((config.get (lit "config_schema_version")).pyEq (.str (lit "suite-config-v2")))
    (.valueError (lit "Suite uses an unsupported configuration schema"))
  let frozen := config.get (lit "frozen")
  Except.check frozen.isObj (.valueError (lit "Suite configuration has no frozen contract"))
  let repetitions ← positiveInt (frozen.get (lit "repetitions")) "repetitions"
  let selectedCases ← stringTuple (frozen.get (lit "selected_cases")) "selected_cases"
  let sourceHashes := frozen.get (lit "source_hashes")
  Except.check (sourceHashes.isObj && selectedCases.all fun id => (sourceHashes.get? id).isSome)
    (.valueError (lit "Suite configuration has invalid source hashes"))
  match frozen.get (lit "suite_fingerprint_sha256") with
  | .str fingerprint =>
    pure { config, frozen, repetitions, selectedCases, sourceHashes, fingerprint }
  | _ => .error (.valueError (lit "Suite configuration has no fingerprint"))

def progressPath (suiteDir : Path) : Path :=
  suiteDir ++ [lit "case-evaluations.jsonl"]

def SuiteConfig.progress (config : SuiteConfig) (suiteDir : Path) : ProgressContext where
  suiteDir := suiteDir
  repetitions := config.repetitions
  selectedCases := config.selectedCases
  sourceHashes := config.sourceHashes

def SuiteConfig.schedule (config : SuiteConfig) : List CaseKey :=
  EdgecaseForge.schedule config.repetitions config.selectedCases

def requireFiles (t : FileTree) : List Path → Except PyError Unit
  | [] => .ok ()
  | p :: ps => do
    Except.check (t.isFile p)
      (.valueError (lit "Required adjudication input is missing: " ++ 0x2F :: asPosix p))
    requireFiles t ps

/-- The complete suite that is adjudicated. -/
structure RawSuite where
  config : SuiteConfig
  evaluations : List Json
  rawSummary : Json

def readSuite (suiteDir : Path) (t : FileTree) : Except PyError RawSuite := do
  let config ← readConfig suiteDir t
  let evaluations ← readProgress (config.progress suiteDir) (progressPath suiteDir) t
  let observed ← evaluations.mapM (observedPair config.schedule)
  Except.check (coversAll config.schedule observed)
    (.valueError (lit "Only a complete suite can be adjudicated"))
  let rawSummary ← readObject (summaryPath suiteDir) (lit "suite summary") t
  Except.check ((rawSummary.get (lit "suite_id")).pyEq (config.config.get (lit "suite_id")))
    (.valueError (lit "Suite summary ID conflicts with its configuration"))
  Except.check ((rawSummary.get (lit "status")).pyEq (.str (lit "complete")))
    (.valueError (lit "Only a complete suite summary can be adjudicated"))
  Except.check ((rawSummary.get (lit "cases")).pyEq (.list evaluations))
    (.valueError (lit "Suite summary conflicts with the verified progress ledger"))
  pure { config, evaluations, rawSummary }

/-- `_read_decisions`. -/
def readDecisions (decode : DecisionReader) (p : Path) (t : FileTree) :
    Except PyError AdjudicationDecisions :=
  let mismatch := PyError.valueError (lit "Decision file does not match adjudication-decisions-v1")
  match readText p t with
  | .error .unicodeDecodeError => .error mismatch
  | .error e => .error e
  | .ok s =>
    match decode s with
    | some decisions => .ok decisions
    | none => .error mismatch

end Inputs

section Coverage

/-- The candidate rows with their pairs. -/
def candidateRows (expected : List CaseKey) : List Json → Except PyError (List (CaseKey × Json))
  | [] => .ok []
  | row :: rows => do
    let kill ← subscript row "candidate_kill"
    let rest ← candidateRows expected rows
    if kill.truthy then do
      let pair ← observedPair expected row
      pure ((pair.map fun key => (key, row)).toList ++ rest)
    else pure rest

def pairText (key : CaseKey) : Str :=
  lit "(" ++ Json.intText key.repetition ++ lit ", " ++ Json.reprText key.caseId ++ lit ")"

/-- The decisions by their pairs. -/
def indexDecisions (indexed : List (CaseKey × AdjudicationDecision)) :
    List AdjudicationDecision → Except PyError (List (CaseKey × AdjudicationDecision))
  | [] => .ok indexed
  | decision :: rest =>
    if decision.key ∈ indexed.map Prod.fst then
      .error (.valueError (lit "Decision file duplicates candidate " ++ pairText decision.key))
    else indexDecisions (indexed ++ [(decision.key, decision)]) rest

/-- The order of pairs. -/
def CaseKey.le (a b : CaseKey) : Bool :=
  a.repetition < b.repetition || a.repetition == b.repetition && a.caseId ≤ b.caseId

/-- `[pair, …]` of the texts of pairs. -/
def pairsText (pairs : List Str) : Str :=
  lit "[" ++ commaSpace pairs ++ lit "]"

def sortedKeys {α : Type} (entries : List (CaseKey × α)) : List (CaseKey × α) :=
  entries.insertionSort fun a b => a.1.le b.1

def coverageError (candidates : List (CaseKey × Json))
    (indexed : List (CaseKey × AdjudicationDecision)) : PyError :=
  let missing := (sortedKeys candidates).filter fun e => e.1 ∉ indexed.map Prod.fst
  let extra := (sortedKeys indexed).filter fun e => e.1 ∉ candidates.map Prod.fst
  .valueError (lit "Decision coverage must exactly match candidate kills; missing=" ++
    pairsText (missing.map fun e => keyText e.2) ++ lit ", extra=" ++
    pairsText (extra.map fun e => pairText e.1))

/-- A decision as the overlay records it. -/
structure CaseDecision where
  repetition : Nat
  caseId : Str
  testSha256 : Sha256.Digest
  differentialSha256 : Sha256.Digest
  decision : Verdict
  reason : Str

def CaseDecision.confirmedKill (decision : CaseDecision) : Bool :=
  decision.decision = .confirmed

def CaseDecision.payload (decision : CaseDecision) : Json :=
  .object [("repetition", .int decision.repetition), ("case_id", .str decision.caseId),
    ("test_sha256", .str decision.testSha256.text),
    ("differential_sha256", .str decision.differentialSha256.text),
    ("decision", .str decision.decision.text), ("confirmed_kill", .bool decision.confirmedKill),
    ("reason", .str decision.reason)]

def hashError (problem : String) (row : Json) : PyError :=
  .valueError (lit ("Decision " ++ problem ++ " hash does not match candidate ") ++ keyText row)

/-- One turn of the loop over the candidates. -/
def decideCase (indexed : List (CaseKey × AdjudicationDecision)) (candidate : CaseKey × Json) :
    Except PyError CaseDecision :=
  match indexed.lookup candidate.1 with
  | none => .error (.keyError (pairText candidate.1))
  | some decision => do
    let testSha256 ← subscript candidate.2 "test_sha256"
    Except.check ((Json.str decision.testSha256.text).pyEq testSha256)
      (hashError "test" candidate.2)
    let differentialSha256 ← subscript candidate.2 "differential_sha256"
    Except.check ((Json.str decision.differentialSha256.text).pyEq differentialSha256)
      (hashError "evidence" candidate.2)
    pure { repetition := decision.repetition, caseId := decision.caseId,
           testSha256 := decision.testSha256, differentialSha256 := decision.differentialSha256,
           decision := decision.decision, reason := strip decision.reason }

/-- The decisions of a file on exactly the candidates of a complete suite. -/
def decideCases (expected : List CaseKey) (evaluations : List Json)
    (decisions : List AdjudicationDecision) : Except PyError (List CaseDecision) := do
  let candidates ← candidateRows expected evaluations
  let indexed ← indexDecisions [] decisions
  Except.check (candidates.all (fun e => e.1 ∈ indexed.map Prod.fst) &&
    indexed.all fun e => e.1 ∈ candidates.map Prod.fst) (coverageError candidates indexed)
  (sortedKeys candidates).mapM (decideCase indexed)

end Coverage

section Confirmed

variable {α : Type}

structure ConfirmedScore (α : Type) where
  repetition : Nat
  expectedMutants : Nat
  confirmedKills : Nat
  score : Option α

structure ConfirmedScores (α : Type) where
  repetitionScores : List (ConfirmedScore α)
  spread : Option (Spread α)
  confirmed : Nat
  rejected : Nat

def confirmedIn (caseDecisions : List CaseDecision) (repetition : Nat) : Nat :=
  (caseDecisions.filter fun d => d.confirmedKill && d.repetition == repetition).length

def confirmedScore (A : Arithmetic α) (mutants : Nat) (caseDecisions : List CaseDecision)
    (repetition : Nat) : Except PyError (ConfirmedScore α) := do
  let kills := confirmedIn caseDecisions repetition
  let score ← shareOf A kills mutants true
  pure { repetition, expectedMutants := mutants, confirmedKills := kills, score }

/-- The scores of `_build_adjudicated_summary`. -/
def confirmedScores (A : Arithmetic α) (repetitions : Nat) (selectedCases : List Str)
    (caseDecisions : List CaseDecision) : Except PyError (ConfirmedScores α) := do
  let mutants := (selectedMutants selectedCases).length
  let scores ← (List.range' 1 repetitions).mapM (confirmedScore A mutants caseDecisions)
  let values := scores.filterMap (·.score)
  let confirmed := (caseDecisions.filter CaseDecision.confirmedKill).length
  let spread ← spreadOf A values (!values.isEmpty)
  pure { repetitionScores := scores, spread, confirmed,
         rejected := caseDecisions.length - confirmed }

end Confirmed

end EdgecaseForge

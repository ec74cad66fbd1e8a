import EdgecaseForge.RepositoryContext
import EdgecaseForge.RouteFacts

namespace EdgecaseForge

open Text RepositoryContext RouteMap

structure PriorityTarget where
  rank : Nat
  signal : Str
  endpoint : Str
  evidence : Str
  requiredOracle : Str

structure RepositoryMap where
  schemaVersion : Str
  repositorySha256 : Str
  analyzedFiles : List Str
  routes : List RouteContract
  priorityTargets : List PriorityTarget
  parseErrors : List Str

namespace RouteMap

def unstableIdentity : Str :=
  lit "unstable_external_effect_identity"

def clientTotal : Str :=
  lit "client_input_in_authoritative_total"

/-- A target before it is ranked. -/
structure Candidate where
  weight : Nat
  signal : Str
  route : RouteContract
  evidence : Str

def routeCandidates (py : PythonSource) (route : RouteContract) : List Candidate :=
  let evidence :=
    (route.externalEffects.find? fun effect => volatileMarkers.any (Text.contains (py.lower effect))).getD
      (lit "External-effect identity contains a volatile value.")
  (if route.riskSignals.contains unstableIdentity then [⟨0, unstableIdentity, route, evidence⟩] else []) ++
    (if route.riskSignals.contains clientTotal then
      [⟨1, clientTotal, route,
        lit "A request monetary field can become the authoritative order amount."⟩]
    else [])

/-- The sort key of the candidates. -/
def candidateLe (a b : Candidate) : Bool :=
  a.weight < b.weight || a.weight == b.weight && (a.route.path < b.route.path ||
    a.route.path == b.route.path && a.route.method ≤ b.route.method)

def endpoint (route : RouteContract) : Str :=
  route.method ++ 0x20 :: route.path

def requiredOracle (signal : Str) : Str :=
  if signal = unstableIdentity then
    lit "After timeout and retry, assert the provider effect ledger count before asserting secondary response statuses."
  else
    lit "Submit a manipulated monetary input and assert returned total and provider amount equal the server price multiplied by accepted quantity."

/-- `_priority_targets`. -/
def priorityTargets (py : PythonSource) (routes : List RouteContract) : List PriorityTarget :=
  let candidates := (routes.flatMap (routeCandidates py)).insertionSort fun a b => candidateLe a b
  candidates.mapIdx fun i candidate =>
    { rank := i + 1
      signal := candidate.signal
      endpoint := endpoint candidate.route
      evidence := candidate.evidence
      requiredOracle := requiredOracle candidate.signal }

/-- The sort key of the routes. -/
def routeLe (a b : RouteContract) : Bool :=
  a.path < b.path || a.path == b.path && (a.method < b.method || a.method == b.method &&
    (a.source < b.source || a.source == b.source && a.line ≤ b.line))

/-- The directories of a repository. -/
def directories (r : Repository) : List Path :=
  (r.files.keys.flatMap fun p => p.dropLast.inits.tail).dedup

def isPython (p : Path) : Bool :=
  endsWith (p.getLast?.getD []) (lit ".py")

/-- The files with their content, and the directories. -/
def treeEntries (r : Repository) : List (Path × Option Bytes) :=
  (r.files.entries.map fun (file : Path × Bytes) => (file.1, some file.2)) ++
    (directories r).map fun p => (p, none)

/-- What `rglob("*.py")` finds, in order. -/
def pythonEntries (r : Repository) : List (Path × Option Bytes) :=
  ((treeEntries r).filter fun entry => isPython entry.1).insertionSort fun a b => a.1 ≤ b.1

/-- What one entry adds to the map. -/
inductive Finding
  | skipped
  | failed (problem : Str)
  | analyzed (relative : Str) (digested : Bytes) (routes : List RouteContract)

/-- One turn of the loop over the entries. -/
def analyzeEntry (py : PythonSource) (entry : Path × Option Bytes) : Except PyError Finding :=
  if ignored entry.1 then .ok .skipped
  else
    match entry.2 with
    | none => .error .isADirectoryError
    | some content =>
      if maxFileBytes < content.length then .ok .skipped
      else
        let relative := asPosix entry.1
        match decodeText content with
        | none => .ok (.failed (relative ++ lit ":UnicodeDecodeError"))
        | some source =>
          match py.parse source with
          | .error problem => .ok (.failed (relative ++ 0x3A :: problem))
          | .ok body => do
            let name ← encodeUtf8 relative
            let text ← encodeUtf8 source
            pure (.analyzed relative (name ++ text) (moduleRoutes py body relative))

def Finding.path : Finding → List Str
  | .analyzed relative _ _ => [relative]
  | _ => []

def Finding.problem : Finding → List Str
  | .failed problem => [problem]
  | _ => []

def Finding.digested : Finding → Bytes
  | .analyzed _ bytes _ => bytes
  | _ => []

def Finding.routes : Finding → List RouteContract
  | .analyzed _ _ routes => routes
  | _ => []

/-- The map of what the loop has found. -/
def mapOf (py : PythonSource) (findings : List Finding) : RepositoryMap :=
  let routes := (findings.flatMap Finding.routes).insertionSort fun a b => routeLe a b
  { schemaVersion := lit "repository-map-v2"
    repositorySha256 := Sha256.sha256 (findings.flatMap Finding.digested)
    analyzedFiles := findings.flatMap Finding.path
    routes
    priorityTargets := priorityTargets py routes
    parseErrors := findings.flatMap Finding.problem }

/-- `build_repository_map`. -/
def build (py : PythonSource) (r : Repository) : Except PyError RepositoryMap := do
  let findings ← (pythonEntries r).mapM (analyzeEntry py)
  pure (mapOf py findings)

/-- `_joined`. -/
def joined (values : List Str) : Str :=
  if values = [] then lit "none detected" else List.flatten (values.intersperse (lit "; "))

def targetLines (target : PriorityTarget) : List Str :=
  [[], lit "PRIORITY " ++ Json.intText target.rank ++ lit ": " ++ target.signal ++ lit " at " ++ target.endpoint,
    lit "Evidence: " ++ target.evidence, lit "Required oracle: " ++ target.requiredOracle]

def routeLines (route : RouteContract) : List Str :=
  [[], lit "ROUTE " ++ endpoint route,
    lit "Handler: " ++ route.handler ++ lit " (" ++ route.source ++ lit ":" ++ Json.intText route.line ++ lit ")",
    lit "Parameters: " ++ joined route.parameters, lit "State reads: " ++ joined route.stateReads,
    lit "State writes: " ++ joined route.stateWrites,
    lit "External effects: " ++ joined route.externalEffects, lit "Guards: " ++ joined route.guards,
    lit "Risk signals: " ++ joined route.riskSignals]

/-- `RepositoryMap.render`. -/
def render (m : RepositoryMap) : Str :=
  join lineFeed ([lit "=== DETERMINISTIC API CONTRACT MAP ===",
      lit "Files analyzed: " ++ Json.intText m.analyzedFiles.length,
      lit "Routes discovered: " ++ Json.intText m.routes.length,
      lit "Priority targets: " ++ Json.intText m.priorityTargets.length] ++
    m.priorityTargets.flatMap targetLines ++ m.routes.flatMap routeLines ++
    (if m.parseErrors = [] then [] else [[], lit "Parse errors: " ++ joined m.parseErrors]) ++
    [lit "=== END DETERMINISTIC MAP ==="])

end RouteMap

structure AttackStep where
  sequence : Nat
  action : Str
  purpose : Str

structure AttackPlan where
  schemaVersion : Str
  targetSignal : Option Str
  endpoint : Option Str
  primaryOracle : Option Str
  steps : List AttackStep

namespace AttackPlan

def stepsOf (steps : List (String × String)) : List AttackStep :=
  steps.mapIdx fun i step => ⟨i + 1, lit step.1, lit step.2⟩

def unstableSteps : List AttackStep :=
  stepsOf [("Reset observable application and provider state", "Establish an isolated ledger"),
    ("Send a request that creates an external effect and returns a transient failure",
      "Create retry ambiguity"),
    ("Retry the same logical operation with the same idempotency identity",
      "Exercise effect identity stability"),
    ("Assert the provider effect ledger count", "Execute the primary business oracle first"),
    ("Assert secondary HTTP outcomes", "Describe recovery behavior without masking the oracle")]

def clientTotalSteps : List AttackStep :=
  stepsOf [("Read or identify the server catalog price", "Establish the authoritative value"),
    ("Submit a conflicting client monetary value", "Exercise the trust boundary"),
    ("Assert returned total equals server price multiplied by quantity",
      "Execute the primary integrity oracle"),
    ("Assert the provider amount matches the same total", "Verify downstream consistency")]

def otherSteps : List AttackStep :=
  stepsOf [("Establish isolated state", "Create a deterministic starting point"),
    ("Execute the mapped adversarial sequence", "Exercise the priority boundary"),
    ("Assert the mapped primary oracle", "Prove the invariant directly")]

def planVersion : Str :=
  lit "stateful-attack-plan-v1"

/-- `build_attack_plan`. -/
def build (m : RepositoryMap) : AttackPlan :=
  match m.priorityTargets with
  | [] => ⟨planVersion, none, none, none, []⟩
  | target :: _ =>
    let steps :=
      if target.signal = unstableIdentity then unstableSteps
      else if target.signal = clientTotal then clientTotalSteps
      else otherSteps
    ⟨planVersion, some target.signal, some target.endpoint, some target.requiredOracle, steps⟩

def stepLine (step : AttackStep) : Str :=
  lit "Step " ++ Json.intText step.sequence ++ lit ": " ++ step.action ++ lit " — " ++ step.purpose

def orNone (value : Option Str) : Str :=
  value.getD (lit "None")

/-- `AttackPlan.render`. -/
def render (plan : AttackPlan) : Str :=
  match plan.targetSignal with
  | none =>
    lit "=== STATEFUL ATTACK PLAN ===\nNo deterministic priority target.\n=== END ATTACK PLAN ==="
  | some signal =>
    join lineFeed ([lit "=== STATEFUL ATTACK PLAN ===", lit "Target: " ++ signal,
      lit "Endpoint: " ++ orNone plan.endpoint, lit "Primary oracle: " ++ orNone plan.primaryOracle] ++
      plan.steps.map stepLine ++ [lit "=== END ATTACK PLAN ==="])

end AttackPlan

/-- The agents, by their scanner. -/
inductive Agent
  | baseline
  | contract
  | stateful
  deriving DecidableEq

/-- What `_prepare_repository` gives. -/
structure Prepared where
  context : Str
  repositoryMap : Option RepositoryMap := none
  attackPlan : Option AttackPlan := none

def separator : Str :=
  lit "\n\n=== REPOSITORY SOURCE ==="

/-- `ContractScanner._prepare_repository` with the map of the repository. -/
def contractContext (py : PythonSource) (r : Repository) (m : RepositoryMap) : Str :=
  let rendered := RouteMap.render m
  let priority := m.routes.map (·.source)
  let budget := max 1 (maxContextChars - rendered.length - 40)
  rendered ++ separator ++ collect py.lower priority budget r

/-- `_prepare_repository` of the scanners. -/
def prepareRepository (py : PythonSource) (r : Repository) : Agent → Except PyError Prepared
  | .baseline => .ok { context := collect py.lower [] maxContextChars r }
  | .contract => do
    let m ← RouteMap.build py r
    pure { context := contractContext py r m, repositoryMap := some m }
  | .stateful => do
    let m ← RouteMap.build py r
    let plan := AttackPlan.build m
    pure { context := plan.render ++ lit "\n\n" ++ contractContext py r m,
           repositoryMap := some m, attackPlan := some plan }

end EdgecaseForge

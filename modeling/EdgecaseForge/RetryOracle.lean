import EdgecaseForge.JsonFiles
import EdgecaseForge.SyntaxTrees

namespace EdgecaseForge

open Text

namespace RetryOracle

def httpMethods : List Str :=
  [lit "delete", lit "get", lit "patch", lit "post", lit "put", lit "request"]

def ledgerMarkers : List Str :=
  [lit "charges", lit "effects", lit "ledger", lit "payments", lit "transfers"]

/-- `_is_http_call`. -/
def isHttpCall (py : PythonSource) : Ast → Bool
  | .call _ (.attribute _ _ attr _) _ _ => httpMethods.contains (py.lower attr)
  | _ => false

/-- `_unparse`. -/
def unparse (node : Ast) : Str :=
  node.origin.text.getD []

def nameTarget (line : Nat) : Ast → Option (Nat × Str)
  | .name _ id => some (line, id)
  | _ => none

/-- The variables that a node assigns an HTTP response to, with their line. -/
def responseTargets (py : PythonSource) : Ast → List (Nat × Str)
  | .assign o targets value =>
    if isHttpCall py value then targets.filterMap (nameTarget o.line) else []
  | _ => []

def assertionTexts (py : PythonSource) : Ast → List (Nat × Str)
  | .assert o test _ => [(o.line, py.lower (unparse test))]
  | _ => []

/-- The order of Python on pairs. -/
def pairLe (a b : Nat × Str) : Bool :=
  a.1 < b.1 || a.1 == b.1 && a.2 ≤ b.2

def responseAssignments (py : PythonSource) (function : Ast) : List (Nat × Str) :=
  (function.walk.flatMap (responseTargets py)).insertionSort fun a b => pairLe a b

def assertions (py : PythonSource) (function : Ast) : List (Nat × Str) :=
  (function.walk.flatMap (assertionTexts py)).insertionSort fun a b => pairLe a b

/-- `dict.fromkeys` of the names in the order of their lines. -/
def responseNames (py : PythonSource) (function : Ast) : List Str :=
  ((responseAssignments py function).map Prod.snd).eraseDups

def mentionsLedger (expression : Str) : Bool :=
  ledgerMarkers.any (Text.contains expression)

def mentionsStatus (retryName expression : Str) : Bool :=
  Text.contains expression retryName && Text.contains expression (lit "status_code")

def ledgerLines (py : PythonSource) (function : Ast) : List Nat :=
  ((assertions py function).filter fun a => mentionsLedger a.2).map Prod.fst

def retryStatusLines (py : PythonSource) (function : Ast) (retryName : Str) : List Nat :=
  ((assertions py function).filter fun a => mentionsStatus (py.lower retryName) a.2).map Prod.fst

def isNamed (testName : Str) : Ast → Bool
  | .function _ name _ _ _ => name == testName
  | _ => false

def refuse (message : Str) : Except PyError Unit :=
  .error (.valueError message)

/-- `_validate_retry_oracle_order`. -/
def validate (py : PythonSource) (code testName : Str) : Except PyError Unit :=
  match py.parse code with
  | .error _ => refuse (lit "generated_test_code is not valid Python")
  | .ok body =>
    match body.find? (isNamed testName) with
    | none => refuse (lit "generated_test_code is missing " ++ testName)
    | some function =>
      match responseNames py function with
      | _ :: retryName :: _ =>
        match (ledgerLines py function).min? with
        | none =>
          refuse (lit "Retry side-effect finding must assert the provider ledger or effect count")
        | some firstLedger =>
          match (retryStatusLines py function retryName).min? with
          | some firstStatus =>
            if firstStatus < firstLedger then
              refuse (lit "Primary oracle ordering violation: assert the provider ledger/effect count after the retry and before asserting the retry response status")
            else .ok ()
          | none => .ok ()
      | _ => refuse (lit "Stateful retry finding requires two HTTP requests with the same logical identity")

/-- The line of the first HTTP call that is assigned to a variable. -/
def firstAssignment (py : PythonSource) (function : Ast) (response : Str) : Option Nat :=
  ((responseAssignments py function).find? fun a => a.2 == response).map Prod.fst

/-- The second of the response variables, and the line from which on it holds a response. -/
def IsRetry (py : PythonSource) (function : Ast) (retryName : Str) (retryLine : Nat) : Prop :=
  (responseNames py function)[1]? = some retryName ∧
    firstAssignment py function retryName = some retryLine

/-- A ledger assertion comes after the retry, and no assertion of its status before that one. -/
def LedgerAfterRetry (py : PythonSource) (function : Ast) (retryName : Str) (retryLine : Nat) : Prop :=
  ∃ ledger ∈ ledgerLines py function, retryLine < ledger ∧
    ∀ line ∈ retryStatusLines py function retryName, ledger ≤ line

/-- Where a ledger assertion comes no later than the retry, another one lies between the retry and
the first assertion of its status. -/
def BaselineRepeated (py : PythonSource) (function : Ast) (retryName : Str) (retryLine : Nat) : Prop :=
  (∃ baseline ∈ ledgerLines py function, baseline ≤ retryLine) →
    ∃ ledger ∈ ledgerLines py function, retryLine < ledger ∧
      ∀ firstStatus, (retryStatusLines py function retryName).min? = some firstStatus →
        ledger ≤ firstStatus

section Accepted

variable {py : PythonSource} {code testName : Str}

theorem validate_isOk (h : (validate py code testName).isOk = true) :
    validate py code testName = .ok () := by
  cases hv : validate py code testName with
  | ok u => rfl
  | error e =>
    rw [hv] at h
    cases h

/-- What an accepted test is made of. -/
theorem validate_accepted (h : validate py code testName = .ok ()) :
    ∃ body function retryName firstLedger, py.parse code = .ok body ∧
      body.find? (isNamed testName) = some function ∧
      (responseNames py function)[1]? = some retryName ∧ firstLedger ∈ ledgerLines py function ∧
      ∀ line ∈ retryStatusLines py function retryName, firstLedger ≤ line := by
  unfold validate at h
  cases hp : py.parse code with
  | error problem =>
    rw [hp] at h
    cases h
  | ok body =>
    rw [hp] at h
    dsimp only at h
    cases hf : body.find? (isNamed testName) with
    | none =>
      rw [hf] at h
      cases h
    | some function =>
      rw [hf] at h
      dsimp only at h
      split at h
      next name retryName rest hn =>
        split at h
        next => cases h
        next firstLedger hl =>
          have ledger := List.min?_mem hl
          have second : (responseNames py function)[1]? = some retryName := by
            rw [hn]
            rfl
          refine ⟨body, function, retryName, firstLedger, rfl, hf, second, ledger, fun line hm => ?_⟩
          split at h
          next firstStatus hs =>
            split at h
            next => cases h
            next later =>
              have least := (List.min?_eq_some_iff.mp hs).2 line hm
              omega
          next hs =>
            rw [List.min?_eq_none_iff.mp hs] at hm
            cases hm
      next => cases h

/-- The retry of an accepted test has a line. -/
theorem exists_firstAssignment {function : Ast} {retryName : Str}
    (h : (responseNames py function)[1]? = some retryName) :
    ∃ retryLine, firstAssignment py function retryName = some retryLine := by
  have mem : retryName ∈ (responseAssignments py function).map Prod.snd :=
    List.mem_eraseDups.mp (List.mem_of_getElem? h)
  obtain ⟨a, ha, rfl⟩ := List.mem_map.mp mem
  have found : ((responseAssignments py function).find? fun b => b.2 == a.2).isSome = true :=
    List.find?_isSome.mpr ⟨a, ha, beq_self_eq_true a.2⟩
  obtain ⟨b, hb⟩ := Option.isSome_iff_exists.mp found
  exact ⟨b.1, by rw [firstAssignment, hb]; rfl⟩

end Accepted

/-- An accepted test asserts the ledger after the retry and before its status, provided that a ledger
assertion before the retry is not the only one that it makes in time. -/
theorem validate_ledgerAfterRetry {py : PythonSource} {code testName : Str}
    (h : validate py code testName = .ok ()) :
    ∃ body function retryName retryLine, py.parse code = .ok body ∧
      body.find? (isNamed testName) = some function ∧ IsRetry py function retryName retryLine ∧
      (LedgerAfterRetry py function retryName retryLine ↔
        BaselineRepeated py function retryName retryLine) := by
  obtain ⟨body, function, retryName, firstLedger, hp, hf, second, ledger, least⟩ := validate_accepted h
  obtain ⟨retryLine, hr⟩ := exists_firstAssignment second
  refine ⟨body, function, retryName, retryLine, hp, hf, ⟨second, hr⟩, ?_, fun repeated => ?_⟩
  · rintro ⟨ledger', mem, after, before⟩ -
    exact ⟨ledger', mem, after, fun firstStatus hs => before firstStatus (List.min?_mem hs)⟩
  · by_cases baseline : firstLedger ≤ retryLine
    · obtain ⟨ledger', mem, after, before⟩ := repeated ⟨firstLedger, ledger, baseline⟩
      refine ⟨ledger', mem, after, fun line hm => ?_⟩
      cases hs : (retryStatusLines py function retryName).min? with
      | none =>
        rw [List.min?_eq_none_iff.mp hs] at hm
        cases hm
      | some firstStatus =>
        have := before firstStatus hs
        have := (List.min?_eq_some_iff.mp hs).2 line hm
        omega
    · exact ⟨firstLedger, ledger, by omega, least⟩

/-- A statement of one line. -/
def onLine (line : Nat) (text : String) : Origin where
  line := line
  type := []
  text := some (lit text)

def postTo (line : Nat) (response : String) : Ast :=
  .assign (onLine line "") [.name (onLine line "") (lit response)]
    (.call (onLine line "") (.attribute (onLine line "") .load (lit "post") (.name (onLine line "") (lit "client")))
      [] [])

def asserting (line : Nat) (text : String) : Ast :=
  .assert (onLine line "") (.other (onLine line text) []) []

def retryTest (body : List Ast) : Ast :=
  .function (onLine 1 "") (lit "test_retry") [] [] body

def parsing (code : Str) (body : List Ast) : PythonSource where
  parse := fun s => if s = code then .ok [retryTest body] else .error (lit "SyntaxError")
  lower := Text.lower

def orderedCode : Str := lit
  "def test_retry():\n    first = client.post('/orders')\n    second = client.post('/orders')\n    assert len(STATE.payment.charges) == 1\n    assert second.status_code == 201"

def orderedSource : PythonSource :=
  parsing orderedCode [postTo 2 "first", postTo 3 "second",
    asserting 4 "len(STATE.payment.charges) == 1", asserting 5 "second.status_code == 201"]

theorem validate_ledgerAfterRetry_ordered :
    ∃ body function retryName retryLine, orderedSource.parse orderedCode = .ok body ∧
      body.find? (isNamed (lit "test_retry")) = some function ∧
      IsRetry orderedSource function retryName retryLine ∧
      (LedgerAfterRetry orderedSource function retryName retryLine ↔
        BaselineRepeated orderedSource function retryName retryLine) :=
  validate_ledgerAfterRetry (validate_isOk (by decide +kernel))

def baselineCode : Str := lit
  "def test_retry():\n    first = client.post('/orders')\n    assert len(STATE.payment.charges) == 1\n    second = client.post('/orders')\n    assert second.status_code == 201"

def baselineBody : List Ast :=
  [postTo 2 "first", asserting 3 "len(STATE.payment.charges) == 1", postTo 4 "second",
    asserting 5 "second.status_code == 201"]

def baselineSource : PythonSource :=
  parsing baselineCode baselineBody

/-- A test that asserts the ledger before the retry only is accepted. -/
theorem validate_baseline : validate baselineSource baselineCode (lit "test_retry") = .ok () ∧
    IsRetry baselineSource (retryTest baselineBody) (lit "second") 4 ∧
    ¬ LedgerAfterRetry baselineSource (retryTest baselineBody) (lit "second") 4 := by
  refine ⟨validate_isOk (by decide +kernel), ⟨by decide +kernel, by decide +kernel⟩, ?_⟩
  rintro ⟨ledger, mem, after, -⟩
  have lines : ledgerLines baselineSource (retryTest baselineBody) = [3] := by decide
  rw [lines, List.mem_singleton] at mem
  omega

end RetryOracle

end EdgecaseForge

import EdgecaseForge.DictCore
import EdgecaseForge.SyntaxTrees
import Mathlib.Data.List.Dedup
import Mathlib.Data.List.Lex
import Mathlib.Data.List.Sort

namespace EdgecaseForge

open Text

namespace RouteMap

def httpMethods : List Str :=
  [lit "delete", lit "get", lit "head", lit "options", lit "patch", lit "post", lit "put"]

def mutatingMethods : List Str :=
  [lit "add", lit "append", lit "clear", lit "commit", lit "delete", lit "discard", lit "extend",
    lit "pop", lit "remove", lit "setdefault", lit "update"]

def effectMethods : List Str :=
  [lit "charge", lit "commit", lit "execute", lit "publish", lit "refund", lit "send", lit "transfer"]

def volatileMarkers : List Str :=
  [lit "nonce", lit "random", lit "time_ns", lit "token_urlsafe", lit "uuid"]

def moneyTokens : List Str :=
  [lit "amount", lit "cost", lit "fee", lit "price", lit "total"]

def statePrefix : Str :=
  lit "STATE."

def dot : CodePoint := 0x2E

/-- `_safe_unparse`. -/
def safeUnparse (node : Ast) : Str :=
  match node.origin.text with
  | some text => (replace text lineFeed 0x20).take 300
  | none => node.origin.type

/-- The parts of `_attribute_chain`. -/
def chainParts : Ast → List Str
  | .attribute _ _ attr value => chainParts value ++ [attr]
  | .name _ id => [id]
  | _ => []

def attributeChain (node : Ast) : Str :=
  join dot (chainParts node)

/-- `_call_terminal`. -/
def callTerminal : Ast → Str
  | .attribute _ _ attr _ => attr
  | .name _ id => id
  | _ => []

/-- `_is_money_name`. -/
def isMoneyName (py : PythonSource) (value : Str) : Bool :=
  moneyTokens.any (Text.contains (py.lower value))

/-- `_contains_client_money`. -/
def containsClientMoney (py : PythonSource) (node : Ast) (requestParameters : List Str) : Bool :=
  node.walk.any fun candidate =>
    match candidate with
    | .attribute _ _ attr _ =>
      isMoneyName py attr && requestParameters.contains (splitAt dot (attributeChain candidate)).1
    | _ => false

/-- `_contains_unstable_identity`. -/
def containsUnstableIdentity (py : PythonSource) (node : Ast) : Bool :=
  volatileMarkers.any (Text.contains (py.lower (safeUnparse node)))

/-- `chain.rsplit(".", 1)[0]`. -/
def beforeLastDot (chain : Str) : Str :=
  let after := chain.reverse.takeWhile (· != dot)
  if after.length < chain.length then chain.take (chain.length - after.length - 1) else chain

/-- What `_Facts` gathers; its sets are lists whose order does not count. -/
structure Facts where
  stateReads : List Str := []
  stateWrites : List Str := []
  externalEffects : List Str := []
  guards : List Str := []
  hasIf : Bool := false
  hasRaise : Bool := false
  hasLock : Bool := false
  clientTotalAssignment : Bool := false
  unstableEffects : List Str := []

namespace Facts

def touch (facts : Facts) (ctx : ExprContext) (chain : Str) : Facts :=
  if startsWith chain statePrefix then
    if ctx = .store then { facts with stateWrites := chain :: facts.stateWrites }
    else { facts with stateReads := chain :: facts.stateReads }
  else facts

def visitCall (py : PythonSource) (facts : Facts) (node func : Ast) : Facts :=
  let expression := safeUnparse node
  let terminal := callTerminal func
  let chain := safeUnparse func
  let facts :=
    if effectMethods.contains terminal then
      { facts with
        externalEffects := expression :: facts.externalEffects
        unstableEffects :=
          if containsUnstableIdentity py node then expression :: facts.unstableEffects
          else facts.unstableEffects }
    else facts
  let facts :=
    if mutatingMethods.contains terminal && startsWith chain statePrefix then
      { facts with stateWrites := beforeLastDot chain :: facts.stateWrites }
    else facts
  if terminal = lit "HTTPException" then { facts with guards := expression :: facts.guards } else facts

def visitWith (py : PythonSource) (facts : Facts) (contexts : List Ast) : Facts :=
  let expressions := List.flatten ((contexts.map safeUnparse).intersperse (lit " | "))
  if Text.contains (py.lower expressions) (lit "lock") then
    { facts with hasLock := true, guards := (lit "lock " ++ expressions) :: facts.guards }
  else facts

/-- One node of a visit; every visit goes on to the children. -/
def visit (py : PythonSource) (requestParameters : List Str) (facts : Facts) (node : Ast) : Facts :=
  match node with
  | .attribute _ ctx _ _ => facts.touch ctx (attributeChain node)
  | .subscript _ ctx value _ => facts.touch ctx (safeUnparse value)
  | .call _ func _ _ => facts.visitCall py node func
  | .ifStatement _ test _ =>
    { facts with hasIf := true, guards := (lit "if " ++ safeUnparse test) :: facts.guards }
  | .raise _ _ => { facts with hasRaise := true }
  | .withStatement _ contexts _ => facts.visitWith py contexts
  | .dict _ keyTexts _ values =>
    let client := (keyTexts.zip values).any fun entry =>
      match entry.1 with
      | some key => isMoneyName py key && containsClientMoney py entry.2 requestParameters
      | none => false
    { facts with clientTotalAssignment := facts.clientTotalAssignment || client }
  | .assign _ targets value =>
    let client := (targets.any fun target => isMoneyName py (safeUnparse target)) &&
      containsClientMoney py value requestParameters
    { facts with clientTotalAssignment := facts.clientTotalAssignment || client }
  | _ => facts

def ofFunctions (py : PythonSource) (requestParameters : List Str) (functions : List Ast) : Facts :=
  (functions.flatMap Ast.walk).foldl (visit py requestParameters) {}

end Facts

/-- `sorted(set)`. -/
def sortedSet (texts : List Str) : List Str :=
  texts.dedup.insertionSort (· ≤ ·)

/-- `_risk_signals`. -/
def riskSignals (py : PythonSource) (functions : List Ast) (facts : Facts) : List Str :=
  let text := py.lower (join 0x20 (functions.map safeUnparse))
  let mentions := fun marker => Text.contains text (lit marker)
  let writes := !facts.stateWrites.isEmpty
  let effects := !facts.externalEffects.isEmpty
  [(writes, "shared_state_transition"),
    (writes && facts.hasIf && !facts.hasLock, "check_then_write_without_visible_lock"),
    (effects, "external_side_effect"),
    (effects && facts.hasRaise, "partial_failure_or_retry_after_effect"),
    (!facts.unstableEffects.isEmpty, "unstable_external_effect_identity"),
    (mentions "idempot" || mentions "operation_key", "idempotency_identity"),
    (mentions "webhook" || mentions "event_id", "webhook_replay_or_authenticity"),
    (mentions "authorization" || mentions "owner" || mentions "bearer", "resource_ownership"),
    (effects && facts.clientTotalAssignment, "client_input_in_authoritative_total")].filterMap
      fun risk => if risk.1 then some (lit risk.2) else none

structure RouteContract where
  method : Str
  path : Str
  handler : Str
  source : Str
  line : Nat
  parameters : List Str
  stateReads : List Str
  stateWrites : List Str
  externalEffects : List Str
  guards : List Str
  riskSignals : List Str

def functionName : Ast → Option Str
  | .function _ ident _ _ _ => some ident
  | _ => none

def functionParameters : Ast → List Str
  | .function _ _ parameters _ _ => parameters
  | _ => []

/-- The functions of a module by name; a later one replaces an earlier one in its place. -/
def functionTable (body : List Ast) : Dict Str Ast :=
  body.foldl (fun table node =>
    match functionName node with
    | some ident => table.set ident node
    | none => table) Dict.empty

def routeOf (py : PythonSource) : Ast → Option (Str × Str)
  | .call _ (.attribute _ _ attr _) (.constant _ (some path) :: _) _ =>
    if httpMethods.contains (py.lower attr) then some (py.lower attr, path) else none
  | _ => none

/-- `_route_decorator`. -/
def routeDecorator (py : PythonSource) : Ast → Option (Str × Str)
  | .function _ _ _ decorators _ => decorators.findSome? (routeOf py)
  | _ => none

def calledName : Ast → Option Str
  | .call _ (.name _ id) _ _ => some id
  | _ => none

/-- The loop of `_reachable_functions`. -/
def reachFrom (functions : Dict Str Ast) : Nat → List Str → List Ast → List Ast
  | 0, _, _ => []
  | _, _, [] => []
  | fuel + 1, seen, current :: queue =>
    let ident := (functionName current).getD []
    if seen.contains ident then reachFrom functions fuel seen queue
    else
      let seen := ident :: seen
      let called := sortedSet (current.walk.filterMap calledName)
      let next := called.filterMap fun name => if seen.contains name then none else functions.get? name
      current :: reachFrom functions fuel seen (queue ++ next)

/-- `_reachable_functions`. Each function adds at most all functions to the queue, once. -/
def reachableFunctions (functions : Dict Str Ast) (root : Ast) : List Ast :=
  reachFrom functions ((functions.size + 1) * (functions.size + 1)) [] [root]

/-- `str.upper` of an HTTP method. -/
def upperMethod (method : Str) : Str :=
  method.map fun c => if h : 0x61 ≤ c.val ∧ c.val ≤ 0x7A then ⟨c.val - 0x20, by have := c.isLt; omega⟩ else c

/-- The contract of a handler, if it is one. -/
def handlerRoute (py : PythonSource) (functions : Dict Str Ast) (source : Str) (handler : Ast) :
    Option RouteContract :=
  (routeDecorator py handler).map fun route =>
    let reachable := reachableFunctions functions handler
    let parameters := functionParameters handler
    let facts := Facts.ofFunctions py parameters reachable
    { method := upperMethod route.1
      path := route.2
      handler := (functionName handler).getD []
      source
      line := handler.line
      parameters
      stateReads := sortedSet (facts.stateReads.filter fun chain => !facts.stateWrites.contains chain)
      stateWrites := sortedSet facts.stateWrites
      externalEffects := sortedSet facts.externalEffects
      guards := sortedSet facts.guards
      riskSignals := sortedSet (riskSignals py reachable facts) }

/-- `_module_routes`. -/
def moduleRoutes (py : PythonSource) (body : List Ast) (source : Str) : List RouteContract :=
  let functions := functionTable body
  functions.values.filterMap (handlerRoute py functions source)

end RouteMap

end EdgecaseForge

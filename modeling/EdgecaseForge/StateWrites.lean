import EdgecaseForge.RouteGather

namespace EdgecaseForge

open Text

namespace RouteMap

def stateName : Str :=
  lit "STATE"

/-- The name that a chain of attributes and subscripts starts from. -/
def rootName : Ast → Option Str
  | .name _ id => some id
  | .attribute _ _ _ value => rootName value
  | .subscript _ _ value _ => rootName value
  | _ => none

def bracket : CodePoint := 0x5B

/-- What follows the name in a chain: a dot before an attribute or a bracket before an item. -/
def firstSign : Ast → Option CodePoint
  | .attribute _ _ _ value => (firstSign value).or (some dot)
  | .subscript _ _ value _ => (firstSign value).or (some bracket)
  | _ => none

/-- The text that the syntax library gives a chain, or the chain that is called: each attribute adds a
dot and its name, each subscript a bracket. -/
def Unparsed : Ast → Prop
  | .name o id => o.text = some id
  | .attribute o _ attr value => (rootName value).isSome →
    Unparsed value ∧ dot ∉ attr ∧ o.text = value.origin.text.map (· ++ dot :: attr)
  | .subscript o _ value _ => (rootName value).isSome →
    Unparsed value ∧ ∃ index, o.text = value.origin.text.map (· ++ bracket :: index)
  | .call _ func _ _ => Unparsed func
  | _ => True

/-- A node that changes the shared state: a target that is a chain on `STATE`, assigned or deleted, or
a call of a mutating method on one. -/
inductive WritesState : Ast → Prop
  | attribute {o : Origin} {ctx : ExprContext} {attr : Str} {value : Ast} : ctx ≠ .load →
      rootName value = some stateName → WritesState (.attribute o ctx attr value)
  | subscript {o : Origin} {ctx : ExprContext} {value slice : Ast} : ctx ≠ .load →
      rootName value = some stateName → WritesState (.subscript o ctx value slice)
  | call {o p : Origin} {ctx : ExprContext} {attr : Str} {value : Ast} {args keywords : List Ast} :
      attr ∈ mutatingMethods → rootName value = some stateName →
      WritesState (.call o (.attribute p ctx attr value) args keywords)

/-- The writes that are seen: of an attribute that is assigned where the attributes before it are
`STATE` and those on it, without a subscript; of a subscript that is assigned on a chain that starts at
an attribute; and of a method on a chain that does so. -/
def Recognised : Ast → Prop
  | .attribute _ ctx _ value => ctx = .store ∧ (chainParts value).head? = some stateName
  | .subscript _ ctx value _ => ctx = .store ∧ firstSign value = some dot
  | .call _ func _ _ => firstSign func = some dot
  | _ => False

section Texts

/-- The text of a chain is its name and then the first sign. -/
theorem unparsed_text {root : Str} : ∀ {node : Ast}, Unparsed node → rootName node = some root →
    ∃ rest, node.origin.text = some (root ++ rest) ∧ rest.head? = firstSign node
  | .name o id, text, rooted => by
    cases rooted
    exact ⟨[], by rw [List.append_nil]; exact text, rfl⟩
  | .attribute o ctx attr value, text, rooted => by
    have some : (rootName value).isSome := Option.isSome_of_eq_some rooted
    obtain ⟨inner, -, own⟩ := text some
    obtain ⟨rest, known, sign⟩ := unparsed_text inner rooted
    refine ⟨rest ++ dot :: attr, ?_, ?_⟩
    · rw [known, Option.map_some, List.append_assoc] at own
      exact own
    · rw [List.head?_append, sign]
      rfl
  | .subscript o ctx value slice, text, rooted => by
    have some : (rootName value).isSome := Option.isSome_of_eq_some rooted
    obtain ⟨inner, index, own⟩ := text some
    obtain ⟨rest, known, sign⟩ := unparsed_text inner rooted
    refine ⟨rest ++ bracket :: index, ?_, ?_⟩
    · rw [known, Option.map_some, List.append_assoc] at own
      exact own
    · rw [List.head?_append, sign]
      rfl

theorem startsWith_iff {text : Str} : startsWith (stateName ++ text) statePrefix = true ↔
    text.head? = some dot := by
  rw [startsWith, List.isPrefixOf_iff_prefix, show statePrefix = stateName ++ [dot] from by decide,
    List.prefix_append_right_inj]
  cases text with
  | nil => simp
  | cons c rest => simp [List.cons_prefix_cons, eq_comm]

/-- The text of a chain on `STATE` has the prefix that is looked for when it goes on with an attribute. -/
theorem startsWith_safeUnparse {node : Ast} (text : Unparsed node) (rooted : rootName node = some stateName) :
    startsWith (safeUnparse node) statePrefix = true ↔ firstSign node = some dot := by
  obtain ⟨rest, known, sign⟩ := unparsed_text text rooted
  have cut : safeUnparse node = stateName ++ (replace rest lineFeed 0x20).take 295 := by
    rw [safeUnparse, known]
    dsimp only
    rw [replace, List.map_append, show stateName.map (fun c => if c = lineFeed then 0x20 else c) = stateName
      from by decide, List.take_append]
    rfl
  rw [cut, startsWith_iff, ← sign]
  cases rest with
  | nil => rfl
  | cons c rest =>
    simp only [replace, List.map_cons, List.take_succ_cons, List.head?_cons, Option.some.injEq]
    split
    next feed =>
      rw [feed]
      decide
    next => rfl

theorem chainParts_plain : ∀ {node : Ast}, Unparsed node → rootName node = some stateName →
    ∀ part ∈ chainParts node, dot ∉ part
  | .name o id, _, rooted, part, mem => by
    cases rooted
    rw [List.mem_singleton.mp mem]
    decide
  | .attribute o ctx attr value, text, rooted, part, mem => by
    obtain ⟨inner, plain, -⟩ := text (Option.isSome_of_eq_some rooted)
    obtain old | new := List.mem_append.mp mem
    · exact chainParts_plain inner rooted part old
    · rw [List.mem_singleton.mp new]
      exact plain
  | .subscript o ctx value slice, _, _, part, mem => absurd mem List.not_mem_nil

theorem join_concat (separator : CodePoint) (part last : Str) (parts : List Str) :
    join separator (part :: (parts ++ [last])) = part ++ separator :: join separator (parts ++ [last]) := by
  cases parts <;> rfl

/-- The attributes of a chain, joined by dots, have the prefix that is looked for when the first of them
is `STATE` and there is one more. -/
theorem startsWith_attributeChain {o : Origin} {ctx : ExprContext} {attr : Str} {value : Ast}
    (text : Unparsed (.attribute o ctx attr value)) (rooted : rootName value = some stateName) :
    startsWith (attributeChain (.attribute o ctx attr value)) statePrefix = true ↔
      (chainParts value).head? = some stateName := by
  obtain ⟨inner, plain, -⟩ := text (Option.isSome_of_eq_some rooted)
  have parts := chainParts_plain inner rooted
  rw [attributeChain, chainParts, startsWith, List.isPrefixOf_iff_prefix]
  cases hp : chainParts value with
  | nil =>
    simp only [List.nil_append, List.head?_nil, reduceCtorEq, iff_false]
    intro h
    exact plain (h.subset (by decide))
  | cons part rest =>
    have first : dot ∉ part := parts part (by rw [hp]; exact .head _)
    rw [List.cons_append, join_concat, List.head?_cons, Option.some.injEq]
    constructor
    · rintro ⟨tail, h⟩
      have same := congrArg (splitAt dot) h
      rw [splitAt_append first, show statePrefix ++ tail = stateName ++ dot :: tail from rfl,
        splitAt_append (by decide)] at same
      exact (congrArg Prod.fst same).symm
    · intro same
      rw [same]
      exact ⟨_, rfl⟩

end Texts

section Writes

variable {py : PythonSource} {requestParameters : List Str} {node : Ast}

theorem touch_stateWrites (ctx : ExprContext) (chain : Str) :
    (Facts.touch {} ctx chain).stateWrites ≠ [] ↔ ctx = .store ∧ startsWith chain statePrefix = true := by
  unfold Facts.touch
  by_cases prefixed : startsWith chain statePrefix = true
  · by_cases store : ctx = .store <;> simp [prefixed, store]
  · simp [prefixed]

theorem visitCall_stateWrites (node func : Ast) : (Facts.visitCall py {} node func).stateWrites ≠ [] ↔
    callTerminal func ∈ mutatingMethods ∧ startsWith (safeUnparse func) statePrefix = true := by
  have noted : (Facts.visitCall py {} node func).stateWrites =
      if mutatingMethods.contains (callTerminal func) && startsWith (safeUnparse func) statePrefix then
        [beforeLastDot (safeUnparse func)] else [] := by
    unfold Facts.visitCall
    dsimp only
    split_ifs <;> rfl
  rw [noted]
  split
  next seen => simpa using seen
  next unseen => simpa using unseen

/-- A node that changes the shared state adds an entry when its form is recognised. -/
theorem visit_stateWrites (text : Unparsed node) (writes : WritesState node) :
    (Facts.visit py requestParameters {} node).stateWrites ≠ [] ↔ Recognised node := by
  cases writes with
  | @«attribute» o ctx attr value changed rooted =>
    rw [Facts.visit, touch_stateWrites, startsWith_attributeChain text rooted]
    rfl
  | @subscript o ctx value slice changed rooted =>
    obtain ⟨inner, -⟩ := text (Option.isSome_of_eq_some rooted)
    rw [Facts.visit, touch_stateWrites, startsWith_safeUnparse inner rooted]
    rfl
  | @call o p ctx attr value args keywords mutating rooted =>
    have func : Unparsed (.attribute p ctx attr value) := text
    rw [Facts.visit, visitCall_stateWrites, startsWith_safeUnparse func rooted]
    exact and_iff_right mutating

end Writes

/-- The entry of a node is among the writes of the route, which has the signal of shared state. -/
def Contributes (py : PythonSource) (contract : RouteContract) (node : Ast) : Prop :=
  (∃ entry ∈ (Facts.visit py contract.parameters {} node).stateWrites, entry ∈ contract.stateWrites) ∧
    lit "shared_state_transition" ∈ contract.riskSignals

/-- A node that changes the shared state, in a function that a handler reaches, is found exactly when
its form is one that is recognised. -/
theorem stateWrites_found (py : PythonSource) {body : List Ast} (source : Str) {handler : Ast}
    {contract : RouteContract} (parsed : ∀ function ∈ body, ∀ node ∈ function.walk, Unparsed node)
    (table : handler ∈ (functionTable body).values)
    (route : handlerRoute py (functionTable body) source handler = some contract) {function node : Ast}
    (reached : LocallyReachable (functionTable body) handler function) (mem : node ∈ function.walk)
    (writes : WritesState node) : Contributes py contract node ↔ Recognised node := by
  obtain ⟨⟨ident, handler⟩, entry, rfl⟩ := List.mem_map.mp table
  have named := functionTable_named body
  have found : (functionTable body).get? ident = some handler := Dict.get?_of_mem entry
  have listed : function ∈ body := by
    cases reached with
    | root => exact (functionName_of_get? found).2
    | call _ _ found => exact (functionName_of_get? found).2
  have reachable := (mem_reachableFunctions named found).mpr reached
  obtain ⟨_, -, rfl⟩ := Option.map_eq_some_iff.mp route
  have gathered : ∀ entry ∈ (Facts.visit py (functionParameters handler) {} node).stateWrites,
      entry ∈ (Facts.ofFunctions py (functionParameters handler)
        (reachableFunctions (functionTable body) handler)).stateWrites :=
    fun _ h => Facts.mem_stateWrites.mpr ⟨function, reachable, node, mem, h⟩
  rw [← visit_stateWrites (parsed function listed node mem) writes]
  constructor
  · rintro ⟨⟨entry, h, -⟩, -⟩ none
    rw [none] at h
    cases h
  · intro some
    obtain ⟨entry, h⟩ := List.exists_mem_of_ne_nil _ some
    exact ⟨⟨entry, h, mem_sortedSet.mpr (gathered entry h)⟩,
      mem_sortedSet.mpr (shared_state_transition_mem (gathered entry h))⟩

section Modules

def written (text : Option Str) : Origin where
  line := 1
  type := lit "expr"
  text := text

/-- `value.attr`, with its text. -/
def attributeOf (ctx : ExprContext) (value : Ast) (attr : String) : Ast :=
  .attribute (written (value.origin.text.map (· ++ dot :: lit attr))) ctx (lit attr) value

/-- `value[0]`, with its text. -/
def itemOf (ctx : ExprContext) (value : Ast) : Ast :=
  .subscript (written (value.origin.text.map (· ++ bracket :: lit "0]"))) ctx value
    (.constant (written (some (lit "0"))) none)

def named (ident : String) : Ast :=
  .name (written (some (lit ident))) (lit ident)

def callOf (func : Ast) (args : List Ast) : Ast :=
  .call (written (func.origin.text.map (· ++ lit "(..)"))) func args []

/-- A function, the handler of a route if it is decorated. -/
def functionOf (ident : String) (decorators body : List Ast) : Ast :=
  .function (written none) (lit ident) [] decorators body

/-- `@app.post('/reset')`. -/
def postRoute : Ast :=
  callOf (attributeOf .load (named "app") "post") [.constant (written none) (some (lit "/reset"))]

/-- Every node of a tree has the text of its form. -/
def AllUnparsed (tree : Ast) : Prop :=
  ∀ node ∈ tree.walk, Unparsed node

theorem allUnparsed_named (ident : String) : AllUnparsed (named ident) :=
  List.forall_mem_singleton.mpr rfl

theorem allUnparsed_attributeOf {ctx : ExprContext} {value : Ast} {attr : String} (h : AllUnparsed value)
    (plain : dot ∉ lit attr) : AllUnparsed (attributeOf ctx value attr) :=
  List.forall_mem_cons.mpr ⟨fun _ => ⟨h value value.mem_walk_self, plain, rfl⟩, h⟩

theorem allUnparsed_itemOf {ctx : ExprContext} {value : Ast} (h : AllUnparsed value) :
    AllUnparsed (itemOf ctx value) :=
  List.forall_mem_cons.mpr ⟨fun _ => ⟨h value value.mem_walk_self, lit "0]", rfl⟩,
    List.forall_mem_append.mpr ⟨h, List.forall_mem_singleton.mpr trivial⟩⟩

theorem allUnparsed_callOf {func : Ast} {args : List Ast} (h : AllUnparsed func)
    (others : ∀ tree ∈ args, AllUnparsed tree) : AllUnparsed (callOf func args) := by
  refine List.forall_mem_cons.mpr ⟨h func func.mem_walk_self, fun node hn => ?_⟩
  simp only [Ast.walkAll, List.append_nil, List.mem_append] at hn
  obtain own | arg := hn
  · exact h node own
  · obtain ⟨tree, ht, hn⟩ := Ast.mem_walkAll.mp arg
    exact others tree ht node hn

theorem allUnparsed_functionOf {ident : String} {decorators body : List Ast}
    (h : ∀ tree ∈ decorators ++ body, AllUnparsed tree) : AllUnparsed (functionOf ident decorators body) := by
  refine List.forall_mem_cons.mpr ⟨trivial, fun node hn => ?_⟩
  obtain first | second := List.mem_append.mp hn
  · obtain ⟨tree, ht, hn⟩ := Ast.mem_walkAll.mp first
    exact h tree (List.mem_append_left _ ht) node hn
  · obtain ⟨tree, ht, hn⟩ := Ast.mem_walkAll.mp second
    exact h tree (List.mem_append_right _ ht) node hn

theorem allUnparsed_postRoute : AllUnparsed postRoute :=
  allUnparsed_callOf (allUnparsed_attributeOf (allUnparsed_named "app") (by decide))
    (List.forall_mem_singleton.mpr (List.forall_mem_singleton.mpr trivial))

/-- `STATE[0] = ..`, `del STATE.orders`, `STATE.carts[0].total = ..` and `STATE[0].append()`. -/
def missedNodes : List Ast :=
  [itemOf .store (named "STATE"), attributeOf .del (named "STATE") "orders",
    attributeOf .store (itemOf .load (attributeOf .load (named "STATE") "carts")) "total",
    callOf (attributeOf .load (itemOf .load (named "STATE")) "append") []]

def missedHandler : Ast :=
  functionOf "reset" [postRoute] missedNodes

theorem missedHandler_unparsed : AllUnparsed missedHandler := by
  have state := allUnparsed_named "STATE"
  have carts : AllUnparsed (attributeOf .load (named "STATE") "carts") :=
    allUnparsed_attributeOf state (by decide)
  have append : AllUnparsed (attributeOf .load (itemOf .load (named "STATE")) "append") :=
    allUnparsed_attributeOf (allUnparsed_itemOf state) (by decide)
  refine allUnparsed_functionOf ?_
  simp only [missedNodes, List.cons_append, List.nil_append, List.forall_mem_cons, List.not_mem_nil,
    false_implies, implies_true, and_true]
  exact ⟨allUnparsed_postRoute, allUnparsed_itemOf state, allUnparsed_attributeOf state (by decide),
    allUnparsed_attributeOf (allUnparsed_itemOf carts) (by decide), allUnparsed_callOf append nofun⟩

/-- A handler that changes the shared state in four ways, none of which is found. -/
theorem stateWrites_missed : ∃ contract,
    handlerRoute plainSource (functionTable [missedHandler]) (lit "app.py") missedHandler = some contract ∧
      contract.stateWrites = [] ∧ lit "shared_state_transition" ∉ contract.riskSignals ∧
      AllUnparsed missedHandler ∧ ∀ node ∈ missedNodes, node ∈ missedHandler.walk ∧ WritesState node := by
  have evaluated : (handlerRoute plainSource (functionTable [missedHandler]) (lit "app.py") missedHandler).map
      (fun contract => (contract.stateWrites, contract.riskSignals)) = some ([], []) := by decide
  obtain ⟨contract, route, parts⟩ := Option.map_eq_some_iff.mp evaluated
  obtain ⟨writes, signals⟩ := Prod.mk.inj parts
  refine ⟨contract, route, writes, by rw [signals]; exact List.not_mem_nil, missedHandler_unparsed,
    fun node hn => ⟨?_, ?_⟩⟩
  · exact .tail _ (List.mem_append_right _ (Ast.mem_walkAll.mpr ⟨node, hn, node.mem_walk_self⟩))
  · revert node
    simp only [missedNodes, List.forall_mem_cons, List.not_mem_nil, false_implies, implies_true, and_true]
    exact ⟨.subscript nofun rfl, .attribute nofun rfl, .attribute nofun rfl, .call (by decide) rfl⟩

/-- `STATE.stock = ..` in a function of its own. -/
def stockNode : Ast :=
  attributeOf .store (named "STATE") "stock"

def reserveFunction : Ast :=
  functionOf "reserve" [] [stockNode]

def reservingHandler : Ast :=
  functionOf "order" [postRoute] [callOf (named "reserve") []]

theorem stateWrites_found_reserve : ∃ contract,
    handlerRoute plainSource (functionTable [reservingHandler, reserveFunction]) (lit "app.py")
        reservingHandler = some contract ∧
      (Contributes plainSource contract stockNode ↔ Recognised stockNode) := by
  have parsed : ∀ function ∈ [reservingHandler, reserveFunction], AllUnparsed function := by
    have stock : AllUnparsed stockNode := allUnparsed_attributeOf (allUnparsed_named "STATE") (by decide)
    refine List.forall_mem_cons.mpr ⟨allUnparsed_functionOf ?_, List.forall_mem_singleton.mpr
      (allUnparsed_functionOf (List.forall_mem_singleton.mpr stock))⟩
    exact List.forall_mem_cons.mpr ⟨allUnparsed_postRoute,
      List.forall_mem_singleton.mpr (allUnparsed_callOf (allUnparsed_named "reserve") nofun)⟩
  obtain ⟨contract, route⟩ := Option.isSome_iff_exists.mp (show (handlerRoute plainSource
    (functionTable [reservingHandler, reserveFunction]) (lit "app.py") reservingHandler).isSome = true
      by decide)
  have table : reservingHandler ∈ (functionTable [reservingHandler, reserveFunction]).values := .head _
  have called : (functionTable [reservingHandler, reserveFunction]).get? (lit "reserve") =
      some reserveFunction := rfl
  have reached : LocallyReachable (functionTable [reservingHandler, reserveFunction]) reservingHandler
      reserveFunction := .call .root (by decide) called
  exact ⟨contract, route, stateWrites_found plainSource (lit "app.py") parsed table route reached
    (.tail _ (.head _)) (.attribute nofun rfl)⟩

end Modules

end RouteMap

end EdgecaseForge

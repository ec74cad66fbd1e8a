import EdgecaseForge.StateWrites
import Mathlib.Data.List.Forall2

namespace EdgecaseForge

open Text

namespace RouteMap

mutual

/-- A tree and one where functions have become async functions, and `with` statements `async with`
statements over the same contexts. Only the statements around such a change have another text. -/
inductive Twin : Ast → Ast → Prop
  | same (node : Ast) : Twin node node
  | function {o p : Origin} {ident : Str} {parameters : List Str} {decorators others others' : List Ast} :
      Twins others others' →
      Twin (.function o ident parameters decorators others) (.function p ident parameters decorators others')
  | ifStatement {o p : Origin} {test : Ast} {others others' : List Ast} :
      Twins others others' → Twin (.ifStatement o test others) (.ifStatement p test others')
  | withStatement {o p : Origin} {contexts others others' : List Ast} :
      Twins others others' → Twin (.withStatement o contexts others) (.withStatement p contexts others')
  | asyncWith {o : Origin} {contexts others others' : List Ast} (text : Option Str) :
      Twins others others' → Twin (.withStatement o contexts others)
        (.other ⟨o.line, lit "AsyncWith", text⟩ (contexts ++ others'))
  | other {o p : Origin} {children children' : List Ast} :
      Twins children children' → Twin (.other o children) (.other p children')

inductive Twins : List Ast → List Ast → Prop
  | nil : Twins [] []
  | cons {node node' : Ast} {nodes nodes' : List Ast} :
      Twin node node' → Twins nodes nodes' → Twins (node :: nodes) (node' :: nodes')

end

/-- Two nodes at the same place of two twins: they are seen alike, or a `with` statement has become an
`async with` statement. -/
inductive SeenAlike : Ast → Ast → Prop
  | alike {node node' : Ast} : (∀ py requestParameters, Facts.visit py requestParameters {} node =
      Facts.visit py requestParameters {} node') → calledName node = calledName node' → SeenAlike node node'
  | asyncWith {o p : Origin} {contexts others children : List Ast} :
      SeenAlike (.withStatement o contexts others) (.other p children)

instance : Std.Refl SeenAlike :=
  ⟨fun _ => .alike (fun _ _ => rfl) rfl⟩

theorem walkAll_append (first second : List Ast) :
    Ast.walkAll (first ++ second) = Ast.walkAll first ++ Ast.walkAll second := by
  induction first with
  | nil => rfl
  | cons node nodes ih => rw [List.cons_append, Ast.walkAll, ih, Ast.walkAll, List.append_assoc]

mutual

theorem Twin.walk : ∀ {node node' : Ast}, Twin node node' → List.Forall₂ SeenAlike node.walk node'.walk
  | _, _, .same node => List.forall₂_refl _
  | _, _, .function others =>
    .cons (.alike (fun _ _ => rfl) rfl) (List.rel_append (List.forall₂_refl _) others.walkAll)
  | _, _, .ifStatement others =>
    .cons (.alike (fun _ _ => rfl) rfl) (List.rel_append (List.forall₂_refl _) others.walkAll)
  | _, _, .withStatement others =>
    .cons (.alike (fun _ _ => rfl) rfl) (List.rel_append (List.forall₂_refl _) others.walkAll)
  | _, _, .asyncWith _ others => by
    refine .cons .asyncWith ?_
    rw [walkAll_append]
    exact List.rel_append (List.forall₂_refl _) others.walkAll
  | _, _, .other children => .cons (.alike (fun _ _ => rfl) rfl) children.walkAll

theorem Twins.walkAll : ∀ {nodes nodes' : List Ast}, Twins nodes nodes' →
    List.Forall₂ SeenAlike (Ast.walkAll nodes) (Ast.walkAll nodes')
  | _, _, .nil => .nil
  | _, _, .cons node nodes => List.rel_append node.walk nodes.walkAll

end

section Tables

variable {body body' : List Ast} {node node' : Ast} {ident : Str}

theorem Twins.forall₂ (h : Twins body body') : List.Forall₂ Twin body body' := by
  induction body generalizing body' with
  | nil =>
    cases h
    exact .nil
  | cons node nodes ih =>
    cases h with
    | cons node nodes => exact .cons node (ih nodes)

theorem Twin.functionName (h : Twin node node') : functionName node = functionName node' := by
  cases h <;> rfl

theorem Twin.routes (py : PythonSource) (h : Twin node node') : routes py node = routes py node' := by
  cases h <;> rfl

theorem Twin.functionParameters (h : Twin node node') : functionParameters node = functionParameters node' := by
  cases h <;> rfl

theorem find?_twin {nodes nodes' : List Ast} (h : List.Forall₂ Twin nodes nodes') (ident : Str) :
    Option.Rel Twin (nodes.find? fun node => functionName node == some ident)
      (nodes'.find? fun node => functionName node == some ident) := by
  induction h with
  | nil => exact .none
  | cons node nodes ih =>
    rw [List.find?_cons, List.find?_cons, ← node.functionName]
    split
    · exact .some node
    · exact ih

/-- The tables of two twin modules have twins under the same names. -/
theorem functionTable_twin (twins : Twins body body') (ident : Str) :
    Option.Rel Twin ((functionTable body).get? ident) ((functionTable body').get? ident) := by
  rw [functionTable_get?, functionTable_get?]
  exact find?_twin (List.rel_reverse twins.forall₂) ident

theorem functionTable_twin_some (twins : Twins body body') (found : (functionTable body).get? ident = some node) :
    ∃ node', (functionTable body').get? ident = some node' ∧ Twin node node' := by
  have related := functionTable_twin twins ident
  rw [found] at related
  generalize (functionTable body').get? ident = other at related
  cases related with
  | some twin => exact ⟨_, rfl, twin⟩

theorem functionTable_twin_some' (twins : Twins body body')
    (found : (functionTable body').get? ident = some node') :
    ∃ node, (functionTable body).get? ident = some node ∧ Twin node node' := by
  have related := functionTable_twin twins ident
  rw [found] at related
  generalize (functionTable body).get? ident = other at related
  cases related with
  | some twin => exact ⟨_, rfl, twin⟩

theorem SeenAlike.calledName (h : SeenAlike node node') : calledName node = calledName node' := by
  cases h with
  | alike _ called => exact called
  | asyncWith => rfl

theorem Twin.calledNames (h : Twin node node') : node.walk.map calledName = node'.walk.map calledName := by
  have walked := h.walk
  generalize node.walk = nodes at walked
  generalize node'.walk = nodes' at walked
  induction walked with
  | nil => rfl
  | cons first _ ih => rw [List.map_cons, List.map_cons, first.calledName, ih]

/-- A function and its twin reach twins. -/
theorem LocallyReachable.twin (twins : Twins body body') {root root' function : Ast} (start : Twin root root')
    (h : LocallyReachable (functionTable body) root function) :
    ∃ function', LocallyReachable (functionTable body') root' function' ∧ Twin function function' := by
  induction h with
  | root => exact ⟨root', .root, start⟩
  | call _ called found ih =>
    obtain ⟨caller', reached, twin⟩ := ih
    obtain ⟨callee', found', other⟩ := functionTable_twin_some twins found
    exact ⟨callee', .call reached (twin.calledNames ▸ called) found', other⟩

theorem LocallyReachable.twin' (twins : Twins body body') {root root' function' : Ast} (start : Twin root root')
    (h : LocallyReachable (functionTable body') root' function') :
    ∃ function, LocallyReachable (functionTable body) root function ∧ Twin function function' := by
  induction h with
  | root => exact ⟨root, .root, start⟩
  | call _ called found ih =>
    obtain ⟨caller, reached, twin⟩ := ih
    obtain ⟨callee, found', other⟩ := functionTable_twin_some' twins found
    exact ⟨callee, .call reached (twin.calledNames ▸ called) found', other⟩

/-- A node of a function that a handler reaches. -/
def InReach (body : List Ast) (handler node : Ast) : Prop :=
  ∃ function, LocallyReachable (functionTable body) handler function ∧ node ∈ function.walk

theorem forall₂_mem {α : Type} {r : α → α → Prop} {xs ys : List α} (h : List.Forall₂ r xs ys) {x : α}
    (hx : x ∈ xs) : ∃ y ∈ ys, r x y := by
  induction h with
  | nil => cases hx
  | cons first _ ih =>
    cases hx with
    | head => exact ⟨_, .head _, first⟩
    | tail _ hx =>
      obtain ⟨y, hy, related⟩ := ih hx
      exact ⟨y, .tail _ hy, related⟩

theorem InReach.twin (twins : Twins body body') {root root' : Ast} (start : Twin root root')
    (h : InReach body root node) : ∃ node', InReach body' root' node' ∧ SeenAlike node node' := by
  obtain ⟨function, reached, mem⟩ := h
  obtain ⟨function', reached', twin⟩ := reached.twin twins start
  obtain ⟨node', mem', alike⟩ := forall₂_mem twin.walk mem
  exact ⟨node', ⟨function', reached', mem'⟩, alike⟩

theorem InReach.twin' (twins : Twins body body') {root root' : Ast} (start : Twin root root')
    (h : InReach body' root' node') : ∃ node, InReach body root node ∧ SeenAlike node node' := by
  obtain ⟨function', reached', mem'⟩ := h
  obtain ⟨function, reached, twin⟩ := reached'.twin' twins start
  obtain ⟨node, mem, alike⟩ := forall₂_mem twin.walk.flip mem'
  exact ⟨node, ⟨function, reached, mem⟩, alike⟩

end Tables

section Facts

variable {py : PythonSource} {body body' : List Ast} {handler handler' : Ast} {ident : Str}

/-- A fact of a handler comes from a node in its reach. -/
theorem gathered_inReach {parameters : List Str} (has : Facts → Prop) (none : ¬ has {})
    (joined : ∀ new old, has (Facts.join new old) ↔ has new ∨ has old)
    (found : (functionTable body).get? ident = some handler) :
    has (Facts.ofFunctions py parameters (reachableFunctions (functionTable body) handler)) ↔
      ∃ node, InReach body handler node ∧ has (Facts.visit py parameters {} node) := by
  have reachable : ∀ function, function ∈ reachableFunctions (functionTable body) handler ↔
      LocallyReachable (functionTable body) handler function :=
    fun _ => mem_reachableFunctions (functionTable_named body) found
  rw [Facts.gathered_iff has none joined]
  constructor
  · rintro ⟨function, hf, node, hn, fact⟩
    exact ⟨node, ⟨function, (reachable function).mp hf, hn⟩, fact⟩
  · rintro ⟨node, ⟨function, hf, hn⟩, fact⟩
    exact ⟨function, (reachable function).mpr hf, node, hn, fact⟩

theorem guards_inReach {parameters : List Str} {entry : Str}
    (found : (functionTable body).get? ident = some handler) :
    entry ∈ (Facts.ofFunctions py parameters (reachableFunctions (functionTable body) handler)).guards ↔
      ∃ node, InReach body handler node ∧ entry ∈ (Facts.visit py parameters {} node).guards :=
  gathered_inReach (fun facts => entry ∈ facts.guards) List.not_mem_nil (fun _ _ => List.mem_append) found

/-- A fact that no `with` statement adds is gathered from both twins or from neither. -/
theorem gathered_twin (py : PythonSource) (parameters : List Str) (has : Facts → Prop) (none : ¬ has {})
    (joined : ∀ new old, has (Facts.join new old) ↔ has new ∨ has old)
    (quiet : ∀ contexts, ¬ has (Facts.visitWith py {} contexts)) (twins : Twins body body')
    (start : Twin handler handler') (found : (functionTable body).get? ident = some handler)
    (found' : (functionTable body').get? ident = some handler') :
    has (Facts.ofFunctions py parameters (reachableFunctions (functionTable body) handler)) ↔
      has (Facts.ofFunctions py parameters (reachableFunctions (functionTable body') handler')) := by
  rw [gathered_inReach has none joined found, gathered_inReach has none joined found']
  constructor
  · rintro ⟨node, reach, fact⟩
    obtain ⟨node', reach', alike⟩ := reach.twin twins start
    cases alike with
    | alike same _ => exact ⟨node', reach', same py parameters ▸ fact⟩
    | asyncWith => exact absurd fact (quiet _)
  · rintro ⟨node', reach', fact⟩
    obtain ⟨node, reach, alike⟩ := reach'.twin' twins start
    cases alike with
    | alike same _ => exact ⟨node, reach, same py parameters ▸ fact⟩
    | asyncWith => exact absurd fact none

end Facts

/-- The contexts of a `with` statement as they are looked at. -/
def withText (contexts : List Ast) : Str :=
  List.flatten ((contexts.map safeUnparse).intersperse (lit " | "))

def locks (py : PythonSource) (contexts : List Ast) : Bool :=
  Text.contains (py.lower (withText contexts)) (lit "lock")

/-- A `with` statement with a lock, in the reach of a handler. -/
def LockInReach (py : PythonSource) (body : List Ast) (handler : Ast) (text : Str) : Prop :=
  ∃ o contexts others, InReach body handler (.withStatement o contexts others) ∧ locks py contexts = true ∧
    withText contexts = text

/-- Every lock that is taken in the reach of a handler is still taken in its twin by a `with` statement
that has not become an `async with` statement. -/
def LocksKept (py : PythonSource) (body : List Ast) (handler : Ast) (body' : List Ast) (handler' : Ast) :
    Prop :=
  ∀ text, LockInReach py body handler text → LockInReach py body' handler' text

/-- What the analysis says of two handlers, up to what asynchronous code may not change. -/
structure SameAnalysis (contract contract' : RouteContract) : Prop where
  stateReads : contract.stateReads = contract'.stateReads
  stateWrites : contract.stateWrites = contract'.stateWrites
  externalEffects : contract.externalEffects = contract'.externalEffects
  guards : contract.guards = contract'.guards
  unlocked : lit "check_then_write_without_visible_lock" ∈ contract.riskSignals ↔
    lit "check_then_write_without_visible_lock" ∈ contract'.riskSignals

/-- The text of an `HTTPException` call does not start the way the entry of a lock does. -/
def PlainCalls (body : List Ast) (handler : Ast) : Prop :=
  ∀ o func args keywords, InReach body handler (.call o func args keywords) →
    callTerminal func = lit "HTTPException" →
      startsWith (safeUnparse (.call o func args keywords)) (lit "lock ") = false

section Locks

variable {py : PythonSource} {parameters : List Str} {body body' : List Ast} {handler handler' node : Ast}

theorem visitWith_eq (contexts : List Ast) : Facts.visitWith py {} contexts =
    if locks py contexts then { hasLock := true, guards := [lit "lock " ++ withText contexts] } else {} :=
  rfl

theorem visitCall_guards (node func : Ast) : (Facts.visitCall py {} node func).guards =
    if callTerminal func = lit "HTTPException" then [safeUnparse node] else [] := by
  unfold Facts.visitCall
  dsimp only
  split_ifs <;> rfl

theorem visitCall_hasLock (node func : Ast) : (Facts.visitCall py {} node func).hasLock = false := by
  unfold Facts.visitCall
  dsimp only
  split_ifs <;> rfl

theorem touch_quiet (ctx : ExprContext) (chain : Str) :
    (Facts.touch {} ctx chain).guards = [] ∧ (Facts.touch {} ctx chain).hasLock = false := by
  unfold Facts.touch
  split_ifs <;> exact ⟨rfl, rfl⟩

/-- The node that gives the entry of a lock is a `with` statement. -/
theorem lock_entry {text : Str} (plain : PlainCalls body handler) (reach : InReach body handler node)
    (h : lit "lock " ++ text ∈ (Facts.visit py parameters {} node).guards) : LockInReach py body handler text := by
  cases node
  case withStatement o contexts others =>
    rw [Facts.visit, visitWith_eq] at h
    split at h
    next locked =>
      have same := List.append_cancel_left (List.mem_singleton.mp h)
      exact ⟨o, contexts, others, reach, locked, same.symm⟩
    next => cases h
  case call o func args keywords =>
    rw [Facts.visit, visitCall_guards] at h
    split at h
    next terminal =>
      have clash := plain o func args keywords reach terminal
      rw [← List.mem_singleton.mp h, startsWith, List.isPrefixOf_iff_prefix.mpr (List.prefix_append _ _)] at clash
      cases clash
    next => cases h
  case ifStatement o test others =>
    have clash := List.mem_singleton.mp h
    cases congrArg List.head? clash
  case «attribute» o ctx attr value =>
    rw [Facts.visit, (touch_quiet ctx _).1] at h
    cases h
  case subscript o ctx value slice =>
    rw [Facts.visit, (touch_quiet ctx _).1] at h
    cases h
  all_goals cases h

theorem hasLock_entry (h : (Facts.visit py parameters {} node).hasLock = true) :
    ∃ o contexts others, node = .withStatement o contexts others ∧ locks py contexts = true := by
  cases node
  case withStatement o contexts others =>
    rw [Facts.visit, visitWith_eq] at h
    split at h
    next locked => exact ⟨o, contexts, others, rfl, locked⟩
    next => cases h
  case call o func args keywords =>
    rw [Facts.visit, visitCall_hasLock] at h
    cases h
  case «attribute» o ctx attr value =>
    rw [Facts.visit, (touch_quiet ctx _).2] at h
    cases h
  case subscript o ctx value slice =>
    rw [Facts.visit, (touch_quiet ctx _).2] at h
    cases h
  all_goals cases h

/-- A handler has seen a lock when there is one in its reach. -/
theorem hasLock_inReach {ident : Str} (found : (functionTable body).get? ident = some handler) :
    (Facts.ofFunctions py parameters (reachableFunctions (functionTable body) handler)).hasLock = true ↔
      ∃ text, LockInReach py body handler text := by
  rw [gathered_inReach (fun facts => facts.hasLock = true) nofun (fun new old => by simp [Facts.join, or_comm])
    found]
  constructor
  · rintro ⟨node, reach, seen⟩
    obtain ⟨o, contexts, others, rfl, locked⟩ := hasLock_entry seen
    exact ⟨_, o, contexts, others, reach, locked, rfl⟩
  · rintro ⟨_, o, contexts, others, reach, locked, rfl⟩
    refine ⟨_, reach, ?_⟩
    rw [Facts.visit, visitWith_eq, if_pos locked]

theorem lockInReach_guard {text : Str} {ident : Str} (found : (functionTable body).get? ident = some handler)
    (h : LockInReach py body handler text) : lit "lock " ++ text ∈
      (Facts.ofFunctions py parameters (reachableFunctions (functionTable body) handler)).guards := by
  obtain ⟨o, contexts, others, reach, locked, rfl⟩ := h
  refine (guards_inReach found).mpr ⟨_, reach, ?_⟩
  rw [Facts.visit, visitWith_eq, if_pos locked]
  exact .head _

/-- The locks of a twin are locks of the handler. -/
theorem LockInReach.twin' (twins : Twins body body') (start : Twin handler handler')
    (plain : PlainCalls body handler) {text : Str} (h : LockInReach py body' handler' text) :
    LockInReach py body handler text := by
  obtain ⟨o, contexts, others, reach, locked, rfl⟩ := h
  obtain ⟨node, reach', alike⟩ := reach.twin' twins start
  cases alike with
  | alike same _ =>
    have given : lit "lock " ++ withText contexts ∈ (Facts.visit py [] {} node).guards := by
      rw [same py [], Facts.visit, visitWith_eq, if_pos locked]
      exact .head _
    exact lock_entry plain reach' given

/-- The guards of two twins are the same when the locks are kept. -/
theorem guards_twin {ident : Str} (twins : Twins body body') (start : Twin handler handler')
    (found : (functionTable body).get? ident = some handler)
    (found' : (functionTable body').get? ident = some handler') (kept : LocksKept py body handler body' handler')
    (entry : Str) :
    entry ∈ (Facts.ofFunctions py parameters (reachableFunctions (functionTable body) handler)).guards ↔
      entry ∈ (Facts.ofFunctions py parameters (reachableFunctions (functionTable body') handler')).guards := by
  constructor
  · intro h
    obtain ⟨node, reach, given⟩ := (guards_inReach found).mp h
    obtain ⟨node', reach', alike⟩ := reach.twin twins start
    cases alike with
    | alike same _ => exact (guards_inReach found').mpr ⟨node', reach', same py parameters ▸ given⟩
    | asyncWith =>
      rw [Facts.visit, visitWith_eq] at given
      split at given
      next locked =>
        rw [List.mem_singleton.mp given]
        exact lockInReach_guard found' (kept _ ⟨_, _, _, reach, locked, rfl⟩)
      next => cases given
  · intro h
    obtain ⟨node', reach', given⟩ := (guards_inReach found').mp h
    obtain ⟨node, reach, alike⟩ := reach'.twin' twins start
    cases alike with
    | alike same _ => exact (guards_inReach found).mpr ⟨node, reach, same py parameters ▸ given⟩
    | asyncWith => cases given

end Locks

theorem sortedSet_congr {xs ys : List Str} (h : ∀ text, text ∈ xs ↔ text ∈ ys) : sortedSet xs = sortedSet ys := by
  have members := (List.perm_ext_iff_of_nodup (sortedSet_nodup xs) (sortedSet_nodup ys)).mpr fun text => by
    rw [mem_sortedSet, mem_sortedSet, h]
  exact members.eq_of_pairwise (fun _ _ _ _ => antisymm) (sortedSet_sorted xs) (sortedSet_sorted ys)

theorem unlocked_mem_riskSignals {py : PythonSource} {functions : List Ast} {facts : Facts} :
    lit "check_then_write_without_visible_lock" ∈ riskSignals py functions facts ↔
      (∃ entry, entry ∈ facts.stateWrites) ∧ facts.hasIf = true ∧ facts.hasLock = false := by
  have writes : (!facts.stateWrites.isEmpty) = true ↔ ∃ entry, entry ∈ facts.stateWrites := by
    cases facts.stateWrites <;> simp
  rw [← writes]
  unfold riskSignals
  simp [and_assoc]

/-- What two twins are found to do alike, whatever becomes of their locks. -/
structure SameFacts (facts facts' : Facts) : Prop where
  stateReads : ∀ entry, entry ∈ facts.stateReads ↔ entry ∈ facts'.stateReads
  stateWrites : ∀ entry, entry ∈ facts.stateWrites ↔ entry ∈ facts'.stateWrites
  externalEffects : ∀ entry, entry ∈ facts.externalEffects ↔ entry ∈ facts'.externalEffects
  hasIf : facts.hasIf = true ↔ facts'.hasIf = true

section Contracts

variable {body body' : List Ast} {handler handler' : Ast} {ident : Str}

theorem visitWith_quiet (py : PythonSource) (contexts : List Ast) :
    (Facts.visitWith py {} contexts).stateReads = [] ∧ (Facts.visitWith py {} contexts).stateWrites = [] ∧
      (Facts.visitWith py {} contexts).externalEffects = [] ∧ (Facts.visitWith py {} contexts).hasIf = false := by
  rw [visitWith_eq]
  split <;> exact ⟨rfl, rfl, rfl, rfl⟩

theorem facts_twin (py : PythonSource) (parameters : List Str) (twins : Twins body body')
    (start : Twin handler handler') (found : (functionTable body).get? ident = some handler)
    (found' : (functionTable body').get? ident = some handler') :
    SameFacts (Facts.ofFunctions py parameters (reachableFunctions (functionTable body) handler))
      (Facts.ofFunctions py parameters (reachableFunctions (functionTable body') handler')) := by
  constructor
  · intro entry
    refine gathered_twin py parameters (fun facts => entry ∈ facts.stateReads) List.not_mem_nil
      (fun _ _ => List.mem_append) ?_ twins start found found'
    intro contexts h
    rw [(visitWith_quiet py contexts).1] at h
    cases h
  · intro entry
    refine gathered_twin py parameters (fun facts => entry ∈ facts.stateWrites) List.not_mem_nil
      (fun _ _ => List.mem_append) ?_ twins start found found'
    intro contexts h
    rw [(visitWith_quiet py contexts).2.1] at h
    cases h
  · intro entry
    refine gathered_twin py parameters (fun facts => entry ∈ facts.externalEffects) List.not_mem_nil
      (fun _ _ => List.mem_append) ?_ twins start found found'
    intro contexts h
    rw [(visitWith_quiet py contexts).2.2.1] at h
    cases h
  · refine gathered_twin py parameters (fun facts => facts.hasIf = true) nofun
      (fun new old => by simp [Facts.join, or_comm]) ?_ twins start found found'
    intro contexts h
    rw [(visitWith_quiet py contexts).2.2.2] at h
    cases h

/-- Where the locks of a handler are kept, the analysis of its twin says the same. -/
theorem sameAnalysis_of_kept {py : PythonSource} {source : Str} {route : Str × Str} (twins : Twins body body')
    (start : Twin handler handler') (found : (functionTable body).get? ident = some handler)
    (found' : (functionTable body').get? ident = some handler') (plain : PlainCalls body handler)
    (kept : LocksKept py body handler body' handler') :
    SameAnalysis (contractOf py (functionTable body) source handler route)
      (contractOf py (functionTable body') source handler' route) := by
  have same := facts_twin py (functionParameters handler) twins start found found'
  have locked : ∀ parameters,
      (Facts.ofFunctions py parameters (reachableFunctions (functionTable body) handler)).hasLock =
        (Facts.ofFunctions py parameters (reachableFunctions (functionTable body') handler')).hasLock := by
    intro parameters
    rw [Bool.eq_iff_iff, hasLock_inReach found, hasLock_inReach found']
    exact ⟨fun ⟨text, h⟩ => ⟨text, kept text h⟩, fun ⟨text, h⟩ => ⟨text, h.twin' twins start plain⟩⟩
  rw [contractOf, contractOf, ← start.functionParameters]
  constructor
  · refine sortedSet_congr fun text => ?_
    simp only [List.mem_filter, same.stateReads, Bool.not_eq_true', List.contains_eq_mem,
      decide_eq_false_iff_not, same.stateWrites]
  · exact sortedSet_congr same.stateWrites
  · exact sortedSet_congr same.externalEffects
  · exact sortedSet_congr (guards_twin twins start found found' kept)
  · simp only [mem_sortedSet, unlocked_mem_riskSignals, same.stateWrites, same.hasIf, locked]

end Contracts

/-- A handler of a module has a twin in every twin of the module, and the analysis says the same of both
exactly when the locks are kept. -/
theorem async_twins (py : PythonSource) {body body' : List Ast} (twins : Twins body body') (source : Str)
    {ident : Str} {handler : Ast} {contract : RouteContract}
    (found : (functionTable body).get? ident = some handler)
    (route : handlerRoute py (functionTable body) source handler = some contract) :
    ∃ handler' contract', (functionTable body').get? ident = some handler' ∧ Twin handler handler' ∧
      handlerRoute py (functionTable body') source handler' = some contract' ∧
      (PlainCalls body handler → PlainCalls body' handler' →
        (SameAnalysis contract contract' ↔ LocksKept py body handler body' handler')) := by
  obtain ⟨handler', found', start⟩ := functionTable_twin_some twins found
  rw [handlerRoute_eq, Option.map_eq_some_iff] at route
  obtain ⟨method, first, rfl⟩ := route
  have route' : handlerRoute py (functionTable body') source handler' =
      some (contractOf py (functionTable body') source handler' method) := by
    rw [handlerRoute_eq, ← start.routes py, first]
    rfl
  refine ⟨handler', _, found', start, route', fun plain plain' => ⟨fun same text lock => ?_, fun kept => ?_⟩⟩
  · have given : lit "lock " ++ text ∈ (contractOf py (functionTable body) source handler method).guards :=
      mem_sortedSet.mpr (lockInReach_guard found lock)
    rw [same.guards] at given
    obtain ⟨node, reach', entry⟩ := (guards_inReach found').mp (mem_sortedSet.mp given)
    exact lock_entry plain' reach' entry
  · exact sameAnalysis_of_kept twins start found found' plain kept

section Locked

/-- A function around `if STATE.stock: STATE.stock = ..`. -/
def guardedWrite : Ast :=
  .ifStatement (written none) (attributeOf .load (named "STATE") "stock")
    [.assign (written none) [attributeOf .store (named "STATE") "stock"] (.constant (written none) none)]

/-- A handler that takes a lock, and the same one as an async function. -/
def lockedHandler : Ast :=
  functionOf "reset" [postRoute] [.withStatement (written none) [named "lock"] [guardedWrite]]

def asyncHandler : Ast :=
  functionOf "reset" [postRoute] [.other ⟨1, lit "AsyncWith", none⟩ ([named "lock"] ++ [guardedWrite])]

theorem lockedHandler_twins : Twins [lockedHandler] [asyncHandler] :=
  .cons (.function (.cons (.asyncWith none (.cons (.same _) .nil)) .nil)) .nil

/-- A call that gives no guard, or one that does not look like a lock. -/
def plainCall : Ast → Bool
  | .call o func args keywords => callTerminal func != lit "HTTPException" ||
    !startsWith (safeUnparse (.call o func args keywords)) (lit "lock ")
  | _ => true

theorem plainCalls_of_all {body : List Ast} {handler : Ast} (mem : handler ∈ body)
    (h : (body.flatMap Ast.walk).all plainCall = true) : PlainCalls body handler := by
  rintro o func args keywords ⟨function, reached, hn⟩ terminal
  have listed : function ∈ body := by
    cases reached with
    | root => exact mem
    | call _ _ found => exact (functionName_of_get? found).2
  have plain := List.all_eq_true.mp h _ (List.mem_flatMap.mpr ⟨function, listed, hn⟩)
  simpa [plainCall, terminal] using plain

/-- The signal of an unlocked write and a missing guard are all that a lock that is taken by `async with`
leaves. -/
theorem async_twins_lost : ∃ contract contract',
    handlerRoute plainSource (functionTable [lockedHandler]) (lit "app.py") lockedHandler = some contract ∧
      handlerRoute plainSource (functionTable [asyncHandler]) (lit "app.py") asyncHandler = some contract' ∧
      Twins [lockedHandler] [asyncHandler] ∧ PlainCalls [lockedHandler] lockedHandler ∧
      PlainCalls [asyncHandler] asyncHandler ∧ ¬ SameAnalysis contract contract' := by
  have before : (handlerRoute plainSource (functionTable [lockedHandler]) (lit "app.py") lockedHandler).map
      (fun contract => contract.guards.length) = some 2 := by decide
  have after : (handlerRoute plainSource (functionTable [asyncHandler]) (lit "app.py") asyncHandler).map
      (fun contract => contract.guards.length) = some 1 := by decide
  obtain ⟨contract, route, two⟩ := Option.map_eq_some_iff.mp before
  obtain ⟨contract', route', one⟩ := Option.map_eq_some_iff.mp after
  refine ⟨contract, contract', route, route', lockedHandler_twins, plainCalls_of_all (.head _) (by decide),
    plainCalls_of_all (.head _) (by decide), fun same => ?_⟩
  rw [same.guards, one] at two
  cases two

theorem async_twins_reset : ∃ contract contract',
    handlerRoute plainSource (functionTable [lockedHandler]) (lit "app.py") lockedHandler = some contract ∧
      handlerRoute plainSource (functionTable [asyncHandler]) (lit "app.py") asyncHandler = some contract' ∧
      (SameAnalysis contract contract' ↔
        LocksKept plainSource [lockedHandler] lockedHandler [asyncHandler] asyncHandler) := by
  obtain ⟨contract, route⟩ := Option.isSome_iff_exists.mp (show (handlerRoute plainSource
    (functionTable [lockedHandler]) (lit "app.py") lockedHandler).isSome = true by decide)
  have found : (functionTable [lockedHandler]).get? (lit "reset") = some lockedHandler := rfl
  have known : (functionTable [asyncHandler]).get? (lit "reset") = some asyncHandler := rfl
  obtain ⟨handler', contract', found', -, route', same⟩ :=
    async_twins plainSource lockedHandler_twins (lit "app.py") found route
  cases known.symm.trans found'
  exact ⟨contract, contract', route, route', same (plainCalls_of_all (.head _) (by decide))
    (plainCalls_of_all (.head _) (by decide))⟩

end Locked

end RouteMap

end EdgecaseForge

import EdgecaseForge.RouteReach

namespace EdgecaseForge

open Text

namespace Ast

theorem mem_walk_self (tree : Ast) : tree ∈ tree.walk := by
  cases tree <;> exact .head _

theorem mem_walkAll {trees : List Ast} {node : Ast} :
    node ∈ walkAll trees ↔ ∃ tree ∈ trees, node ∈ tree.walk := by
  induction trees with
  | nil => simp [walkAll]
  | cons tree trees ih => simp [walkAll, ih]

end Ast

namespace RouteMap

namespace Facts

/-- Facts with those gathered before them. -/
def join (new old : Facts) : Facts where
  stateReads := new.stateReads ++ old.stateReads
  stateWrites := new.stateWrites ++ old.stateWrites
  externalEffects := new.externalEffects ++ old.externalEffects
  guards := new.guards ++ old.guards
  hasIf := old.hasIf || new.hasIf
  hasRaise := old.hasRaise || new.hasRaise
  hasLock := old.hasLock || new.hasLock
  clientTotalAssignment := old.clientTotalAssignment || new.clientTotalAssignment
  unstableEffects := new.unstableEffects ++ old.unstableEffects

theorem touch_join (facts : Facts) (ctx : ExprContext) (chain : Str) :
    facts.touch ctx chain = (touch {} ctx chain).join facts := by
  unfold touch
  split
  · split <;> simp [join]
  · simp [join]

theorem visitCall_join (py : PythonSource) (facts : Facts) (node func : Ast) :
    facts.visitCall py node func = (visitCall py {} node func).join facts := by
  unfold visitCall
  dsimp only
  split_ifs <;> simp [join]

theorem visitWith_join (py : PythonSource) (facts : Facts) (contexts : List Ast) :
    facts.visitWith py contexts = (visitWith py {} contexts).join facts := by
  unfold visitWith
  dsimp only
  split_ifs <;> simp [join]

/-- What one node adds does not depend on what was gathered before it. -/
theorem visit_join (py : PythonSource) (requestParameters : List Str) (facts : Facts) (node : Ast) :
    visit py requestParameters facts node = (visit py requestParameters {} node).join facts := by
  cases node
  case «attribute» o ctx attr value => exact touch_join facts ctx _
  case subscript o ctx value slice => exact touch_join facts ctx _
  case call o func args keywords => exact visitCall_join py facts _ func
  case withStatement o contexts others => exact visitWith_join py facts contexts
  all_goals simp [visit, join]

variable {py : PythonSource} {requestParameters : List Str}

/-- A fact is gathered from the nodes when it comes from one of them. -/
theorem gathered_iff (has : Facts → Prop) (none : ¬ has {}) (joined : ∀ new old, has (new.join old) ↔
    has new ∨ has old) (functions : List Ast) : has (ofFunctions py requestParameters functions) ↔
      ∃ function ∈ functions, ∃ node ∈ function.walk, has (visit py requestParameters {} node) := by
  have nodes : ∀ (nodes : List Ast) (facts : Facts), has (nodes.foldl (visit py requestParameters) facts) ↔
      has facts ∨ ∃ node ∈ nodes, has (visit py requestParameters {} node) := by
    intro nodes
    induction nodes with
    | nil => simp
    | cons node nodes ih =>
      intro facts
      rw [List.foldl_cons, ih, visit_join, joined]
      simp only [List.mem_cons, exists_eq_or_imp]
      tauto
  rw [ofFunctions, nodes]
  constructor
  · rintro (old | ⟨node, hn, found⟩)
    · exact absurd old none
    · obtain ⟨function, hf, hn⟩ := List.mem_flatMap.mp hn
      exact ⟨function, hf, node, hn, found⟩
  · rintro ⟨function, hf, node, hn, found⟩
    exact .inr ⟨node, List.mem_flatMap.mpr ⟨function, hf, hn⟩, found⟩

theorem mem_stateWrites {functions : List Ast} {entry : Str} :
    entry ∈ (ofFunctions py requestParameters functions).stateWrites ↔ ∃ function ∈ functions,
      ∃ node ∈ function.walk, entry ∈ (visit py requestParameters {} node).stateWrites :=
  gathered_iff (fun facts => entry ∈ facts.stateWrites) List.not_mem_nil (fun _ _ => List.mem_append) functions

theorem mem_stateReads {functions : List Ast} {entry : Str} :
    entry ∈ (ofFunctions py requestParameters functions).stateReads ↔ ∃ function ∈ functions,
      ∃ node ∈ function.walk, entry ∈ (visit py requestParameters {} node).stateReads :=
  gathered_iff (fun facts => entry ∈ facts.stateReads) List.not_mem_nil (fun _ _ => List.mem_append) functions

theorem mem_externalEffects {functions : List Ast} {entry : Str} :
    entry ∈ (ofFunctions py requestParameters functions).externalEffects ↔ ∃ function ∈ functions,
      ∃ node ∈ function.walk, entry ∈ (visit py requestParameters {} node).externalEffects :=
  gathered_iff (fun facts => entry ∈ facts.externalEffects) List.not_mem_nil (fun _ _ => List.mem_append)
    functions

theorem mem_guards {functions : List Ast} {entry : Str} :
    entry ∈ (ofFunctions py requestParameters functions).guards ↔ ∃ function ∈ functions,
      ∃ node ∈ function.walk, entry ∈ (visit py requestParameters {} node).guards :=
  gathered_iff (fun facts => entry ∈ facts.guards) List.not_mem_nil (fun _ _ => List.mem_append) functions

theorem hasIf_iff {functions : List Ast} : (ofFunctions py requestParameters functions).hasIf = true ↔
    ∃ function ∈ functions, ∃ node ∈ function.walk, (visit py requestParameters {} node).hasIf = true :=
  gathered_iff (fun facts => facts.hasIf = true) nofun (fun new old => by simp [join, or_comm]) functions

theorem hasLock_iff {functions : List Ast} : (ofFunctions py requestParameters functions).hasLock = true ↔
    ∃ function ∈ functions, ∃ node ∈ function.walk, (visit py requestParameters {} node).hasLock = true :=
  gathered_iff (fun facts => facts.hasLock = true) nofun (fun new old => by simp [join, or_comm]) functions

end Facts

/-- The signals of a handler: some are there whenever it writes the shared state. -/
theorem shared_state_transition_mem {py : PythonSource} {functions : List Ast} {facts : Facts} {entry : Str}
    (h : entry ∈ facts.stateWrites) : lit "shared_state_transition" ∈ riskSignals py functions facts := by
  have writes : (!facts.stateWrites.isEmpty) = true := by
    cases hw : facts.stateWrites with
    | nil =>
      rw [hw] at h
      cases h
    | cons => rfl
  unfold riskSignals
  simp [writes]

end RouteMap

end EdgecaseForge

import EdgecaseForge.BreadthFirst
import EdgecaseForge.RouteDiscovery

namespace EdgecaseForge

open Text BreadthFirst

namespace RouteMap

/-- The functions of a table that a function calls by name, one after the other. -/
inductive LocallyReachable (functions : Dict Str Ast) (root : Ast) : Ast → Prop
  | root : LocallyReachable functions root root
  | call {caller callee : Ast} {ident : Str} : LocallyReachable functions root caller →
      some ident ∈ caller.walk.map calledName → functions.get? ident = some callee →
      LocallyReachable functions root callee

/-- Every function is in the table under its own name. -/
def Named (functions : Dict Str Ast) : Prop :=
  ∀ ident function, functions.get? ident = some function → functionName function = some ident

theorem functionTable_named (body : List Ast) : Named (functionTable body) :=
  fun _ _ h => (functionName_of_get? h).1

theorem mem_sortedSet {texts : List Str} {text : Str} : text ∈ sortedSet texts ↔ text ∈ texts := by
  rw [sortedSet, List.mem_insertionSort, List.mem_dedup]

theorem sortedSet_nodup (texts : List Str) : (sortedSet texts).Nodup :=
  (List.perm_insertionSort _ _).nodup_iff.mpr (List.nodup_dedup texts)

theorem sortedSet_sorted (texts : List Str) : (sortedSet texts).Pairwise fun a b => a ≤ b :=
  List.pairwise_insertionSort _ _

section Queue

variable {functions : Dict Str Ast} {seen : List Str} {queue : List Ast} {current : Ast}

/-- The names of a table that have not been seen. -/
def unseen (functions : Dict Str Ast) (seen : List Str) : List Str :=
  functions.keys.filter fun ident => !seen.contains ident

/-- What one function adds to the queue. -/
def calls (functions : Dict Str Ast) (seen : List Str) (current : Ast) : List Ast :=
  (sortedSet (current.walk.filterMap calledName)).filterMap fun name =>
    if seen.contains name then none else functions.get? name

theorem mem_calls {callee : Ast} : callee ∈ calls functions seen current ↔
    ∃ ident, some ident ∈ current.walk.map calledName ∧ ident ∉ seen ∧ functions.get? ident = some callee := by
  simp only [calls, List.mem_filterMap, mem_sortedSet, List.mem_map]
  constructor
  · rintro ⟨ident, ⟨node, hn, called⟩, found⟩
    split at found
    next => cases found
    next new => exact ⟨ident, ⟨node, hn, called⟩, by simpa using new, found⟩
  · rintro ⟨ident, ⟨node, hn, called⟩, new, found⟩
    exact ⟨ident, ⟨node, hn, called⟩, by rw [if_neg (by simpa using new), found]⟩

theorem calls_length_le (functions : Dict Str Ast) (seen : List Str) (current : Ast) :
    (calls functions seen current).length ≤ functions.size := by
  have nodup := (sortedSet_nodup (current.walk.filterMap calledName)).filter fun name =>
    (if seen.contains name then none else functions.get? name).isSome
  have keys : (sortedSet (current.walk.filterMap calledName)).filter (fun name =>
      (if seen.contains name then none else functions.get? name).isSome) ⊆ functions.keys := by
    intro name h
    have some := (List.mem_filter.mp h).2
    split at some
    · cases some
    · exact Dict.get?_isSome_iff.mp some
  have fewer := (List.subperm_of_subset nodup keys).length_le
  rw [← List.countP_eq_length_filter, ← List.length_filterMap_eq_countP] at fewer
  have size : functions.keys.length = functions.size := List.length_map _
  rw [size] at fewer
  exact fewer

theorem unseen_cons_lt {ident : Str} (listed : ident ∈ functions.keys) (new : ident ∉ seen) :
    (unseen functions (ident :: seen)).length < (unseen functions seen).length := by
  have nodup : (unseen functions (ident :: seen)).Nodup := List.Nodup.filter _ functions.nodup
  have found : ident ∈ unseen functions seen := by simp [unseen, listed, new]
  have rest : unseen functions (ident :: seen) ⊆ (unseen functions seen).erase ident := by
    intro name h
    have both : name ∈ functions.keys ∧ name ≠ ident ∧ name ∉ seen := by simpa [unseen] using h
    exact (List.mem_erase_of_ne both.2.1).mpr (by simp [unseen, both.1, both.2.2])
  have fewer := (List.subperm_of_subset nodup rest).length_le
  rw [List.length_erase_of_mem found] at fewer
  have := List.length_pos_of_mem found
  omega

/-- One function of the queue. -/
theorem reachFrom_cons (functions : Dict Str Ast) (fuel : Nat) (seen : List Str) (current : Ast)
    (queue : List Ast) : reachFrom functions (fuel + 1) seen (current :: queue) =
      if seen.contains ((functionName current).getD []) then reachFrom functions fuel seen queue
      else current :: reachFrom functions fuel ((functionName current).getD [] :: seen)
        (queue ++ calls functions ((functionName current).getD [] :: seen) current) :=
  rfl

/-- A queue of functions of the table. -/
def Listed (functions : Dict Str Ast) (queue : List Ast) : Prop :=
  ∀ function ∈ queue, ∃ ident, functionName function = some ident ∧ functions.get? ident = some function

theorem Listed.calls (named : Named functions) : Listed functions (calls functions seen current) := by
  intro callee h
  obtain ⟨ident, -, -, found⟩ := mem_calls.mp h
  exact ⟨ident, named ident callee found, found⟩

theorem Listed.append {more : List Ast} (first : Listed functions queue) (second : Listed functions more) :
    Listed functions (queue ++ more) :=
  fun function h => (List.mem_append.mp h).elim (first function) (second function)

/-- The functions that a function calls by name, in the order of their names. -/
def callees (functions : Dict Str Ast) (current : Ast) : List Ast :=
  (sortedSet (current.walk.filterMap calledName)).filterMap functions.get?

/-- The name that the loop knows a function by. -/
def functionKey (function : Ast) : Str :=
  (functionName function).getD []

theorem Named.key (named : Named functions) {ident : Str} {function : Ast}
    (found : functions.get? ident = some function) : functionKey function = ident := by
  rw [functionKey, named ident function found, Option.getD_some]

theorem mem_callees {callee : Ast} : callee ∈ callees functions current ↔
    ∃ ident, some ident ∈ current.walk.map calledName ∧ functions.get? ident = some callee := by
  simp only [callees, List.mem_filterMap, mem_sortedSet, List.mem_map]

/-- What one function adds to the queue are the functions it calls that have not been seen. -/
theorem calls_eq (named : Named functions) : calls functions seen current =
    (callees functions current).filter fun callee => !seen.contains (functionKey callee) := by
  rw [calls, callees, List.filter_filterMap]
  refine List.filterMap_congr fun ident _ => ?_
  cases found : functions.get? ident with
  | none => simp
  | some callee =>
    have key := named.key found
    by_cases old : ident ∈ seen <;> simp [Option.filter, key, old]

/-- The loop comes to its end. The fuel that is left covers the queue and what the unseen functions can
add to it. -/
theorem reachFrom_loop (named : Named functions) {fuel : Nat} (listed : Listed functions queue)
    (enough : queue.length + functions.size * (unseen functions seen).length ≤ fuel) :
    Loop functionKey (callees functions) seen queue (reachFrom functions fuel seen queue) := by
  induction fuel generalizing seen queue with
  | zero =>
    have empty : queue = [] := List.length_eq_zero_iff.mp (by omega)
    subst empty
    exact .done
  | succ fuel ih =>
    cases queue with
    | nil => exact .done
    | cons current queue =>
      obtain ⟨ident, own, found⟩ := listed current (.head _)
      have rest : Listed functions queue := fun function h => listed function (.tail _ h)
      have key : (functionName current).getD [] = functionKey current := rfl
      rw [reachFrom_cons, key]
      rw [List.length_cons] at enough
      split
      next old => exact .skip (by simpa using old) (ih rest (by omega))
      next new =>
        have listedKey : functionKey current ∈ functions.keys := by
          rw [named.key found]
          exact Dict.mem_keys_of_get? found
        have fewer : (unseen functions (functionKey current :: seen)).length <
            (unseen functions seen).length := unseen_cons_lt listedKey (by simpa using new)
        have added := calls_length_le functions (functionKey current :: seen) current
        have smaller : functions.size * (unseen functions (functionKey current :: seen)).length +
            functions.size ≤ functions.size * (unseen functions seen).length := by
          rw [← Nat.mul_succ]
          exact Nat.mul_le_mul_left _ fewer
        have queued : Listed functions (queue ++ calls functions (functionKey current :: seen) current) :=
          rest.append (.calls named)
        have covered : (queue ++ calls functions (functionKey current :: seen) current).length +
            functions.size * (unseen functions (functionKey current :: seen)).length ≤ fuel := by
          rw [List.length_append]
          omega
        have later := ih queued covered
        rw [calls_eq named] at later ⊢
        exact .visit (by simpa using new) later

theorem reached_iff {root function : Ast} :
    Reached (callees functions) root function ↔ LocallyReachable functions root function := by
  constructor
  · rintro ⟨n, path⟩
    induction path with
    | refl => exact .root
    | step _ hb ih =>
      obtain ⟨ident, called, found⟩ := mem_callees.mp hb
      exact .call ih called found
  · intro h
    induction h with
    | root => exact ⟨0, .refl⟩
    | call _ called found ih =>
      obtain ⟨n, path⟩ := ih
      exact ⟨n + 1, path.step (mem_callees.mpr ⟨_, called, found⟩)⟩

end Queue

section Handlers

variable {functions : Dict Str Ast} {root function : Ast} {ident : Str}

theorem reachableFunctions_loop (named : Named functions) (found : functions.get? ident = some root) :
    Loop functionKey (callees functions) [] [root] (reachableFunctions functions root) := by
  have listed : Listed functions [root] := by
    intro other ho
    rw [List.mem_singleton.mp ho]
    exact ⟨ident, named ident root found, found⟩
  have size : functions.keys.length = functions.size := List.length_map _
  have all : (unseen functions []).length ≤ functions.size := size ▸ List.length_filter_le _ _
  refine reachFrom_loop named listed ?_
  have := Nat.mul_le_mul_left functions.size all
  rw [List.length_singleton, Nat.succ_mul_succ]
  omega

/-- Reachable functions with one name are one function. -/
theorem reached_inj (named : Named functions) (found : functions.get? ident = some root) (f g : Ast)
    (hf : Reached (callees functions) root f) (hg : Reached (callees functions) root g)
    (same : functionKey f = functionKey g) : f = g := by
  have own : ∀ {h}, Reached (callees functions) root h → functions.get? (functionKey h) = some h := by
    rintro h ⟨n, path⟩
    cases path with
    | refl => rw [named.key found, found]
    | step _ hb =>
      obtain ⟨other, -, there⟩ := mem_callees.mp hb
      rw [named.key there, there]
  have first := own hf
  rw [same, own hg] at first
  exact (Option.some.inj first).symm

/-- The reachable functions of a handler are all those that it reaches by local calls. -/
theorem mem_reachableFunctions (named : Named functions) (found : functions.get? ident = some root) :
    function ∈ reachableFunctions functions root ↔ LocallyReachable functions root function := by
  rw [(reachableFunctions_loop named found).mem_iff (reached_inj named found), reached_iff]

end Handlers

end RouteMap

end EdgecaseForge

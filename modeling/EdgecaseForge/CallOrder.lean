import EdgecaseForge.RouteReach

namespace EdgecaseForge

open Text BreadthFirst

namespace RouteMap

/-- A list of functions in breadth-first order from a root: what fewer calls reach comes first, and
what as many reach in the order of its callers, those of one caller by name. -/
structure BreadthFirstOrder (functions : Dict Str Ast) (root : Ast) (result : List Ast) : Prop where
  head : ∃ rest, result = root :: rest
  exact : ∀ function, function ∈ result ↔ LocallyReachable functions root function
  once : result.Nodup
  levels : ∀ calls, ∃ level, level <+: result ∧
    ∀ function, function ∈ level ↔ ∃ n ≤ calls, ReachedIn (callees functions) root n function
  queued : result.map functionKey =
    (functionKey root :: (result.flatMap (callees functions)).map functionKey).eraseDups
  alphabetical : ∀ function,
    (callees functions function).Pairwise fun f g => functionKey f < functionKey g

section Order

variable {functions : Dict Str Ast} {root function : Ast} {ident : Str}

theorem sortedSet_strict (texts : List Str) : (sortedSet texts).Pairwise fun a b => a < b := by
  have both := (sortedSet_sorted texts).and (sortedSet_nodup texts)
  exact both.imp fun h => lt_of_le_of_ne h.1 h.2

theorem callees_alphabetical (named : Named functions) (function : Ast) :
    (callees functions function).Pairwise fun f g => functionKey f < functionKey g := by
  rw [callees, List.pairwise_filterMap]
  refine (sortedSet_strict _).imp fun {a b} less f hf g hg => ?_
  rwa [named.key hf, named.key hg]

/-- The loop over the functions that a handler reaches ends in one way, with all of them in
breadth-first order. -/
theorem reachableFunctions_breadthFirst {body : List Ast}
    (found : (functionTable body).get? ident = some root) :
    (∀ result, Loop functionKey (callees (functionTable body)) [] [root] result ↔
      result = reachableFunctions (functionTable body) root) ∧
    BreadthFirstOrder (functionTable body) root (reachableFunctions (functionTable body) root) := by
  have named := functionTable_named body
  have loop := reachableFunctions_loop named found
  have inj := reached_inj named found
  refine ⟨fun result => ⟨fun h => h.unique loop, ?_⟩, loop.head, fun function => ?_, ?_, ?_,
    loop.root_keys, callees_alphabetical named⟩
  · rintro rfl
    exact loop
  · exact mem_reachableFunctions named found
  · exact loop.nodup.of_map
  · exact loop.levels inj

end Order

section Example

/-- A function whose body calls the functions of these names. -/
def calling (ident : String) (called : List String) : Ast :=
  .function ⟨1, lit "FunctionDef", none⟩ (lit ident) [] []
    (called.map fun other => .call ⟨2, lit "Call", none⟩ (.name ⟨2, lit "Name", none⟩ (lit other)) [] [])

/-- Three functions that call each other, and one that nobody calls. -/
def ring : List Ast :=
  [calling "a" ["c", "b", "print"], calling "b" ["a"], calling "c" ["b", "c"], calling "d" ["a"]]

example : (reachableFunctions (functionTable ring) (calling "a" ["c", "b", "print"])).map functionKey =
    [lit "a", lit "b", lit "c"] := by decide

theorem reachableFunctions_breadthFirst_ring :
    Loop functionKey (callees (functionTable ring)) [] [calling "b" ["a"]]
      (reachableFunctions (functionTable ring) (calling "b" ["a"])) ∧
    BreadthFirstOrder (functionTable ring) (calling "b" ["a"])
      (reachableFunctions (functionTable ring) (calling "b" ["a"])) := by
  have found : (functionTable ring).get? (lit "b") = some (calling "b" ["a"]) := rfl
  obtain ⟨loop, order⟩ := reachableFunctions_breadthFirst found
  exact ⟨(loop _).mpr rfl, order⟩

end Example

end RouteMap

end EdgecaseForge

import EdgecaseForge.RouteFacts
import Mathlib.Data.List.Induction

namespace EdgecaseForge

open Text

namespace RouteMap

/-- The route decorators of a function. -/
def routes (py : PythonSource) : Ast → List (Str × Str)
  | .function _ _ _ decorators _ => decorators.filterMap (routeOf py)
  | _ => []

/-- The contract of a function for one of its routes. -/
def contractOf (py : PythonSource) (functions : Dict Str Ast) (source : Str) (handler : Ast)
    (route : Str × Str) : RouteContract :=
  let reachable := reachableFunctions functions handler
  let parameters := functionParameters handler
  let facts := Facts.ofFunctions py parameters reachable
  { method := upperMethod route.1
    path := route.2
    handler := (functionName handler).getD []
    source
    line := handler.line
    parameters
    stateReads := sortedSet (facts.stateReads.filter fun chain => !facts.stateWrites.contains chain)
    stateWrites := sortedSet facts.stateWrites
    externalEffects := sortedSet facts.externalEffects
    guards := sortedSet facts.guards
    riskSignals := sortedSet (riskSignals py reachable facts) }

/-- A contract for every top-level function and every one of its route decorators. -/
def allContracts (py : PythonSource) (body : List Ast) (source : Str) : List RouteContract :=
  body.flatMap fun node => (routes py node).map (contractOf py (functionTable body) source node)

/-- No function has two route decorators, and none that has one is defined again. -/
structure RoutesApart (py : PythonSource) (body : List Ast) : Prop where
  single : ∀ node ∈ body, (routes py node).length ≤ 1
  last : body.Pairwise fun node later => routes py node ≠ [] → functionName later ≠ functionName node

/-- The functions of a module that are not defined again. -/
def lastDefinitions : List Ast → List Ast
  | [] => []
  | node :: rest =>
    if (functionName node).isSome ∧ ∀ later ∈ rest, functionName later ≠ functionName node then
      node :: lastDefinitions rest
    else lastDefinitions rest

section Table

variable {body : List Ast} {ident : Str} {node : Ast}

theorem functionTable_concat (body : List Ast) (node : Ast) :
    functionTable (body ++ [node]) =
      match functionName node with
      | some ident => (functionTable body).set ident node
      | none => functionTable body := by
  rw [functionTable, List.foldl_concat]
  rfl

/-- The table has the last function of a name. -/
theorem functionTable_get? (body : List Ast) (ident : Str) :
    (functionTable body).get? ident =
      body.reverse.find? fun node => functionName node == some ident := by
  induction body using List.reverseRecOn with
  | nil => rfl
  | append_singleton body node ih =>
    rw [functionTable_concat, List.reverse_concat, List.find?_cons, ← ih]
    cases hn : functionName node with
    | none => simp
    | some other =>
      dsimp only
      rw [Dict.get?_set]
      by_cases same : ident = other
      · simp [same]
      · have apart : (other == ident) = false := beq_eq_false_iff_ne.mpr (Ne.symm same)
        simp [same, apart]

theorem functionName_of_get? (h : (functionTable body).get? ident = some node) :
    functionName node = some ident ∧ node ∈ body := by
  rw [functionTable_get?] at h
  have found := List.find?_some h
  exact ⟨by simpa using found, List.mem_reverse.mp (List.mem_of_find?_eq_some h)⟩

theorem lastDefinitions_sublist (body : List Ast) : (lastDefinitions body).Sublist body := by
  induction body with
  | nil => exact .slnil
  | cons node rest ih =>
    rw [lastDefinitions]
    split
    · exact ih.cons_cons node
    · exact ih.cons node

/-- The functions that are not defined again are the last ones of their names. -/
theorem mem_lastDefinitions : node ∈ lastDefinitions body ↔
    ∃ ident, (functionTable body).get? ident = some node := by
  simp only [functionTable_get?]
  induction body with
  | nil => simp [lastDefinitions]
  | cons first rest ih =>
    have named : ∀ ident, (first :: rest).reverse.find? (fun other => functionName other == some ident) =
        (rest.reverse.find? fun other => functionName other == some ident).or
          (if functionName first = some ident then some first else none) := by
      intro ident
      rw [List.reverse_cons, List.find?_append]
      by_cases h : functionName first = some ident <;> simp [h]
    simp only [named, Option.or_eq_some_iff]
    rw [lastDefinitions]
    split
    next final =>
      obtain ⟨ident, own⟩ := Option.isSome_iff_exists.mp final.1
      constructor
      · intro h
        cases h with
        | head =>
          refine ⟨ident, .inr ⟨List.find?_eq_none.mpr fun later hl => ?_, if_pos own⟩⟩
          have other := final.2 later (List.mem_reverse.mp hl)
          rw [own] at other
          simpa using other
        | tail _ h =>
          obtain ⟨other, h⟩ := ih.mp h
          exact ⟨other, .inl h⟩
      · rintro ⟨other, h | ⟨-, h⟩⟩
        · exact .tail _ (ih.mpr ⟨other, h⟩)
        · split at h
          · cases h
            exact .head _
          · cases h
    next again =>
      rw [ih]
      constructor
      · rintro ⟨other, h⟩
        exact ⟨other, .inl h⟩
      · rintro ⟨other, h | ⟨absent, h⟩⟩
        · exact ⟨other, h⟩
        · split at h
          next own =>
            refine absurd ⟨by simp [own], fun later hl same => ?_⟩ again
            have := List.find?_eq_none.mp absent later (List.mem_reverse.mpr hl)
            simp [same, own] at this
          next => cases h

theorem lastDefinitions_apart (body : List Ast) :
    (lastDefinitions body).Pairwise fun node later => functionName later ≠ functionName node := by
  induction body with
  | nil => exact .nil
  | cons node rest ih =>
    rw [lastDefinitions]
    split
    next final => exact .cons (fun later h => final.2 later ((lastDefinitions_sublist rest).subset h)) ih
    next => exact ih

end Table

section Handlers

variable (py : PythonSource) (body : List Ast) (source : Str)

theorem nodup_of_apart {nodes : List Ast}
    (apart : nodes.Pairwise fun node later => functionName later ≠ functionName node) : nodes.Nodup :=
  apart.imp fun ne same => ne (congrArg functionName same.symm)

theorem functionTable_values_nodup : (functionTable body).values.Nodup := by
  refine List.Nodup.map_on ?_ (functionTable body).nodup.of_map
  rintro ⟨ident, node⟩ h ⟨other, _⟩ h' rfl
  have first := (functionName_of_get? (Dict.get?_of_mem h)).1
  have second := (functionName_of_get? (Dict.get?_of_mem h')).1
  rw [first, Option.some.injEq] at second
  rw [second]

/-- The values of the table are the functions that are not defined again. -/
theorem functionTable_values_perm : (functionTable body).values.Perm (lastDefinitions body) := by
  refine (List.perm_ext_iff_of_nodup (functionTable_values_nodup body)
    (nodup_of_apart (lastDefinitions_apart body))).mpr fun node => ?_
  rw [mem_lastDefinitions]
  constructor
  · intro h
    obtain ⟨⟨ident, _⟩, entry, rfl⟩ := List.mem_map.mp h
    exact ⟨ident, Dict.get?_of_mem entry⟩
  · rintro ⟨ident, h⟩
    exact List.mem_map.mpr ⟨(ident, node), Dict.mem_of_get? h, rfl⟩

theorem routeDecorator_eq (node : Ast) : routeDecorator py node = (routes py node).head? := by
  cases node
  case function => exact List.head?_filterMap.symm
  all_goals rfl

theorem handlerRoute_eq (functions : Dict Str Ast) (node : Ast) :
    handlerRoute py functions source node =
      (routes py node).head?.map (contractOf py functions source node) := by
  rw [handlerRoute, routeDecorator_eq]
  rfl

theorem moduleRoutes_perm : (moduleRoutes py body source).Perm ((lastDefinitions body).flatMap fun node =>
    ((routes py node).take 1).map (contractOf py (functionTable body) source node)) := by
  have single : ∀ node, ((routes py node).take 1).map (contractOf py (functionTable body) source node) =
      (handlerRoute py (functionTable body) source node).toList := by
    intro node
    rw [handlerRoute_eq]
    cases routes py node <;> rfl
  simp only [single, ← List.filterMap_eq_flatMap_toList]
  exact (functionTable_values_perm body).filterMap _

end Handlers

section Completeness

variable {py : PythonSource} {body : List Ast} {node : Ast}

theorem functionName_of_routes (h : routes py node ≠ []) : (functionName node).isSome := by
  cases node
  case function => rfl
  all_goals exact absurd rfl h

theorem routesApart_cons : RoutesApart py (node :: body) ↔ (routes py node).length ≤ 1 ∧
    (routes py node ≠ [] → ∀ later ∈ body, functionName later ≠ functionName node) ∧
    RoutesApart py body := by
  constructor
  · intro h
    obtain ⟨own, rest⟩ := List.pairwise_cons.mp h.last
    exact ⟨h.single node (.head _), fun some later hl => own later hl some,
      fun other ho => h.single other (.tail _ ho), rest⟩
  · rintro ⟨single, last, rest⟩
    exact ⟨List.forall_mem_cons.mpr ⟨single, rest.single⟩,
      .cons (fun later hl some => last some later hl) rest.last⟩

/-- Where the routes are apart, the functions not defined again have all of them. -/
theorem lastDefinitions_flatMap {γ : Type} (f : Ast → Str × Str → γ) (apart : RoutesApart py body) :
    ((lastDefinitions body).flatMap fun node => ((routes py node).take 1).map (f node)) =
      body.flatMap fun node => (routes py node).map (f node) := by
  induction body with
  | nil => rfl
  | cons node rest ih =>
    obtain ⟨single, last, restApart⟩ := routesApart_cons.mp apart
    rw [lastDefinitions]
    split
    next => rw [List.flatMap_cons, List.flatMap_cons, ih restApart, List.take_of_length_le single]
    next again =>
      have none : routes py node = [] := by
        by_contra some
        exact again ⟨functionName_of_routes some, last some⟩
      rw [List.flatMap_cons, none, ih restApart]
      rfl

theorem lastDefinitions_length_le (py : PythonSource) (body : List Ast) :
    ((lastDefinitions body).map fun node => ((routes py node).take 1).length).sum ≤
      (body.map fun node => (routes py node).length).sum := by
  induction body with
  | nil => exact Nat.le_refl 0
  | cons node rest ih =>
    rw [lastDefinitions]
    split <;> simp only [List.map_cons, List.sum_cons, List.length_take] at ih ⊢ <;> omega

theorem routesApart_of_length
    (h : (body.map fun node => (routes py node).length).sum ≤
      ((lastDefinitions body).map fun node => ((routes py node).take 1).length).sum) :
    RoutesApart py body := by
  induction body with
  | nil => exact ⟨fun _ hn => absurd hn List.not_mem_nil, .nil⟩
  | cons node rest ih =>
    have below := lastDefinitions_length_le py rest
    rw [lastDefinitions] at h
    split at h
    next final =>
      simp only [List.map_cons, List.sum_cons, List.length_take] at h below ih
      exact routesApart_cons.mpr ⟨by omega, fun _ => final.2, ih (by omega)⟩
    next =>
      simp only [List.map_cons, List.sum_cons, List.length_take] at h below ih
      have none : (routes py node).length = 0 := by omega
      exact routesApart_cons.mpr ⟨by omega, fun some => absurd (List.length_eq_zero_iff.mp none) some,
        ih (by omega)⟩

/-- Every route of every function has its contract exactly when no function has two and none that
has one is defined again. -/
theorem moduleRoutes_complete (py : PythonSource) (body : List Ast) (source : Str) :
    (moduleRoutes py body source).Perm (allContracts py body source) ↔ RoutesApart py body := by
  have found := moduleRoutes_perm py body source
  constructor
  · intro h
    have same := (found.symm.trans h).length_eq
    simp only [allContracts, List.length_flatMap, List.length_map] at same
    exact routesApart_of_length same.ge
  · intro h
    rwa [lastDefinitions_flatMap _ h] at found

end Completeness

section Redefined

def plainSource : PythonSource where
  parse _ := .ok []
  lower text := text

def getRoute (path : Str) : Ast :=
  .call ⟨1, lit "Call", none⟩ (.attribute ⟨1, lit "Attribute", none⟩ .load (lit "get") (.name ⟨1, lit "Name", none⟩ (lit "app")))
    [.constant ⟨1, lit "Constant", none⟩ (some path)] []

/-- One function for two routes, one below the other. -/
def twiceRouted : List Ast :=
  [.function ⟨1, lit "FunctionDef", none⟩ (lit "read") [] [getRoute (lit "/a"), getRoute (lit "/b")] []]

/-- Two functions of one name for two routes, as in a module that reuses the name of a handler. -/
def twiceDefined : List Ast :=
  [.function ⟨1, lit "FunctionDef", none⟩ (lit "read") [] [getRoute (lit "/a")] [],
    .function ⟨3, lit "FunctionDef", none⟩ (lit "read") [] [getRoute (lit "/b")] []]

theorem moduleRoutes_lost :
    ¬ (moduleRoutes plainSource twiceDefined (lit "app.py")).Perm
        (allContracts plainSource twiceDefined (lit "app.py")) ∧
      ¬ (moduleRoutes plainSource twiceRouted (lit "app.py")).Perm
        (allContracts plainSource twiceRouted (lit "app.py")) := by
  constructor
  · intro h
    exact absurd h.length_eq (by decide)
  · intro h
    exact absurd h.length_eq (by decide)

end Redefined

end RouteMap

end EdgecaseForge

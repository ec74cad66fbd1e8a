import EdgecaseForge.JsonEquality
import EdgecaseForge.Preflights
import EdgecaseForge.ProgressAccepted

namespace EdgecaseForge

open Text Json

section Values

variable {value x : Json} {key : String} {default : Json} {s : Str} {ids : List Str} {items : List Json}

theorem pyEq_text : value.pyEq (.str s) = true ↔ value = .str s := by
  refine ⟨pyEq_str_right, ?_⟩
  rintro rfl
  simp [pyEq]

theorem pyEq_texts : (Json.list items).pyEq (texts ids) = true ↔ items = ids.map .str := by
  rw [texts, pyEq, pyEqItems_eq_true]
  constructor
  · intro h
    refine List.forall₂_eq_eq_eq ▸ ?_
    rw [List.forall₂_map_right_iff] at h ⊢
    exact h.imp fun item id same => matchesEntry_str same
  · rintro rfl
    rw [List.forall₂_map_left_iff, List.forall₂_map_right_iff]
    exact List.forall₂_same.mpr fun id _ => by simp [matchesEntry, pyEq]

theorem dictGet_eq_ok : dictGet value key default = .ok x ↔
    value.isObj = true ∧ (value.get? (lit key)).getD default = x := by
  cases value <;> simp [dictGet, isObj, get?]

theorem isFilled_empty : isFilled (.str []) = false := by
  decide

end Values

section Mutants

variable {mutant : Json} {mutants : List Json} {id : Str} {u : Unit}

/-- A mutant of the manifest with everything that its contract is made of. -/
structure ValidMutant (id : Str) (mutant : Json) : Prop where
  id : mutant.get? (lit "id") = some (.str id)
  filled : ∀ field ∈ requiredFields, ∃ value, mutant.get? (lit field) = some value ∧ isFilled value = true

theorem filled_getD {value : Option Json} : isFilled (value.getD (.str [])) = true ↔
    ∃ given, value = some given ∧ isFilled given = true := by
  cases value with
  | none => simp [isFilled_empty]
  | some given => simp

theorem validateMutant_ok : validateMutant mutant = .ok u ↔ mutant.isObj = true ∧
    ∀ field ∈ requiredFields, ∃ value, mutant.get? (lit field) = some value ∧ isFilled value = true := by
  simp only [validateMutant, Except.bind_eq_ok, Except.check_eq_ok, Except.mapM_eq_ok]
  constructor
  · rintro ⟨values, read, id, found, filled⟩
    obtain ⟨obj, -⟩ := dictGet_eq_ok.mp found
    refine ⟨obj, fun field hf => ?_⟩
    obtain ⟨value, hv, got⟩ := read.exists_of_mem_left hf
    obtain ⟨-, rfl⟩ := dictGet_eq_ok.mp got
    exact filled_getD.mp (List.all_eq_true.mp filled _ hv)
  · rintro ⟨obj, filled⟩
    refine ⟨requiredFields.map fun field => (mutant.get? (lit field)).getD (.str []), ?_, _,
      dictGet_eq_ok.mpr ⟨obj, rfl⟩, ?_⟩
    · rw [List.forall₂_map_right_iff]
      exact List.forall₂_same.mpr fun field _ => dictGet_eq_ok.mpr ⟨obj, rfl⟩
    · refine List.all_eq_true.mpr fun value hv => ?_
      obtain ⟨field, hf, rfl⟩ := List.mem_map.mp hv
      exact filled_getD.mpr (filled field hf)

theorem validateMutants_ok : validateMutants mutants = .ok u ↔ ∀ mutant ∈ mutants, mutant.isObj = true ∧
    ∀ field ∈ requiredFields, ∃ value, mutant.get? (lit field) = some value ∧ isFilled value = true := by
  induction mutants with
  | nil => simp [validateMutants]
  | cons mutant mutants ih =>
    rw [validateMutants, Except.bind_eq_ok, List.forall_mem_cons]
    constructor
    · rintro ⟨_, first, rest⟩
      exact ⟨validateMutant_ok.mp first, ih.mp rest⟩
    · rintro ⟨first, rest⟩
      exact ⟨(), validateMutant_ok.mpr first, ih.mpr rest⟩

theorem idOf_obj (h : mutant.isObj = true) : idOf mutant = some ((mutant.get? (lit "id")).getD .null) := by
  obtain ⟨fields, rfl⟩ := isObj_iff.mp h
  rfl

theorem isObj_of_get? {key : Str} {value : Json} (h : mutant.get? key = some value) : mutant.isObj = true := by
  cases mutant with
  | obj fields => rfl
  | _ => cases h

/-- The mutants are those of the benchmark in their order, each with its contract. -/
theorem forall_validMutant {ids : List Str} : List.Forall₂ ValidMutant ids mutants ↔
    mutants.filterMap idOf = ids.map .str ∧ ∀ mutant ∈ mutants, mutant.isObj = true ∧
      ∀ field ∈ requiredFields, ∃ value, mutant.get? (lit field) = some value ∧ isFilled value = true := by
  induction mutants generalizing ids with
  | nil => cases ids <;> simp
  | cons mutant mutants ih =>
    rw [List.forall₂_cons_right_iff, List.forall_mem_cons]
    constructor
    · rintro ⟨id, ids, valid, rest, rfl⟩
      obtain ⟨same, others⟩ := ih.mp rest
      have obj := isObj_of_get? valid.id
      rw [List.filterMap_cons_some (idOf_obj obj), valid.id, same]
      exact ⟨rfl, ⟨obj, valid.filled⟩, others⟩
    · rintro ⟨same, ⟨obj, filled⟩, others⟩
      rw [List.filterMap_cons_some (idOf_obj obj)] at same
      cases ids with
      | nil => cases same
      | cons id ids =>
        rw [List.map_cons, List.cons.injEq] at same
        refine ⟨id, ids, ⟨?_, filled⟩, ih.mpr ⟨same.2, others⟩, rfl⟩
        cases found : mutant.get? (lit "id") with
        | none =>
          rw [found] at same
          cases same.1
        | some value =>
          rw [found, Option.getD_some] at same
          rw [same.1]

end Mutants

section Manifests

variable {manifest : Json} {u : Unit}

/-- A manifest of this version of the benchmark that is frozen and complete. -/
structure ValidManifest (manifest : Json) : Prop where
  version : manifest.get? (lit "benchmark_version") = some (.str benchmarkVersion)
  status : manifest.get? (lit "status") = some (.str (lit "frozen"))
  control : manifest.get? (lit "clean_control") = some (.str cleanControl)
  mutants : ∃ mutants, manifest.get? (lit "mutants") = some (.list mutants) ∧
    List.Forall₂ ValidMutant caseIds.tail mutants

theorem getD_null {value : Option Json} {s : Str} : value.getD .null = .str s ↔ value = some (.str s) := by
  cases value <;> simp

theorem mutantsOf_ok {value : Json} {mutants : List Json} :
    mutantsOf value = .ok mutants ↔ value = .list mutants := by
  cases value <;> simp [mutantsOf]

theorem validateManifest_ok : validateManifest manifest = .ok u ↔ ValidManifest manifest := by
  simp only [validateManifest, Except.bind_eq_ok, Except.check_eq_ok, dictGet_eq_ok]
  constructor
  · rintro ⟨_, ⟨-, rfl⟩, -, version, _, ⟨-, rfl⟩, -, status, _, ⟨-, rfl⟩, -, control, value, ⟨obj, rfl⟩, mutants,
      listed, -, ids, valid⟩
    refine ⟨getD_null.mp (pyEq_text.mp version), getD_null.mp (pyEq_text.mp status),
      getD_null.mp (pyEq_text.mp control), mutants, ?_, forall_validMutant.mpr ⟨pyEq_texts.mp ids,
      validateMutants_ok.mp valid⟩⟩
    cases found : manifest.get? (lit "mutants") with
    | none =>
      rw [found] at listed
      cases listed
    | some value =>
      rw [found, Option.getD_some] at listed
      rw [mutantsOf_ok.mp listed]
  · rintro ⟨version, status, control, mutants, listed, valid⟩
    obtain ⟨ids, filled⟩ := forall_validMutant.mp valid
    have obj := isObj_of_get? version
    refine ⟨_, ⟨obj, rfl⟩, (), pyEq_text.mpr (getD_null.mpr version), _, ⟨obj, rfl⟩, (),
      pyEq_text.mpr (getD_null.mpr status), _, ⟨obj, rfl⟩, (), pyEq_text.mpr (getD_null.mpr control), _, ⟨obj, rfl⟩,
      mutants, ?_, (), pyEq_texts.mpr ids, validateMutants_ok.mpr filled⟩
    rw [listed]
    rfl

end Manifests

section Contracts

variable {manifest mutant : Json} {mutants : List Json} {ids : List Str} {caseId id : Str}

theorem item_ok {payload value : Json} {name : String} (h : payload.get? (lit name) = some value) :
    item payload name = .ok value := by
  rw [item, h]

theorem ValidMutant.contract (h : ValidMutant id mutant) : ∃ contract, contractOf mutant = .ok contract ∧
    contract.get? (lit "id") = some (.str id) := by
  obtain ⟨category, hc, -⟩ := h.filled "category" (by simp [requiredFields])
  obtain ⟨invariant, hi, -⟩ := h.filled "invariant" (by simp [requiredFields])
  obtain ⟨oracle, ho, -⟩ := h.filled "oracle" (by simp [requiredFields])
  refine ⟨.object [("id", .str id), ("category", category), ("invariant", invariant), ("oracle", oracle)], ?_, ?_⟩
  · simp only [contractOf, item_ok h.id, item_ok hc, item_ok hi, item_ok ho, Except.ok_bind]
    rfl
  · rw [get?_object]
    rfl

theorem findContract_valid (h : List.Forall₂ ValidMutant ids mutants) (hm : caseId ∈ ids) :
    ∃ contract, findContract caseId mutants = .ok contract ∧ contract.get? (lit "id") = some (.str caseId) := by
  induction h with
  | nil => cases hm
  | @cons id mutant ids mutants valid rest ih =>
    rw [findContract, item_ok valid.id, Except.ok_bind]
    by_cases same : id = caseId
    · subst same
      rw [if_pos (pyEq_text.mpr rfl)]
      exact valid.contract
    · have differ : ¬ (Json.str id).pyEq (.str caseId) = true := fun equal =>
        same (Json.str.inj (pyEq_text.mp equal))
      rw [if_neg differ]
      rcases List.mem_cons.mp hm with rfl | hm
      · exact absurd rfl same
      · exact ih hm

/-- In a manifest that was validated every case of the benchmark has its contract. -/
theorem ValidManifest.expectedCase (h : ValidManifest manifest) (hm : caseId ∈ caseIds) :
    ∃ contract, expectedCase manifest caseId = .ok contract ∧
      (caseId ≠ cleanControl → contract.get? (lit "id") = some (.str caseId)) := by
  rw [EdgecaseForge.expectedCase]
  split
  next control => exact ⟨.null, rfl, fun other => absurd control other⟩
  next other =>
    obtain ⟨mutants, listed, valid⟩ := h.mutants
    have mutant : caseId ∈ caseIds.tail := by
      rcases List.mem_cons.mp hm with control | hm
      · exact absurd control other
      · exact hm
    obtain ⟨contract, found, id⟩ := findContract_valid valid mutant
    refine ⟨contract, ?_, fun _ => id⟩
    rw [item_ok listed, Except.ok_bind, asItems, Except.ok_bind, found]

end Contracts

end EdgecaseForge

import EdgecaseForge.CaseEvaluation

namespace EdgecaseForge

open Text

def benchmarkVersion : Str :=
  lit "flashcart-v1.1.0"

/-- `CASE_IDS`. -/
def caseIds : List Str :=
  [lit "C00", lit "M01", lit "M02", lit "M03", lit "M04", lit "M05", lit "M06", lit "M07",
    lit "M08", lit "M09", lit "M10"]

def commaSpace : List Str → Str
  | [] => []
  | [s] => s
  | s :: rest => s ++ (lit ", " ++ commaSpace rest)

def validateCases (selection : Option (List Str)) : Except PyError (List Str) :=
  let selected := selection.getD caseIds
  let unknown := ((selected.filter fun id => !caseIds.contains id).dedup).insertionSort (· ≤ ·)
  if selected = [] then .error (.valueError (lit "At least one case must be selected"))
  else if ¬ selected.Nodup then .error (.valueError (lit "Case selection contains duplicates"))
  else if unknown ≠ [] then
    .error (.valueError (lit "Unknown FlashCart cases: " ++ commaSpace unknown))
  else .ok selected

def contractOf (mutant : Json) : Except PyError Json := do
  let id ← item mutant "id"
  let category ← item mutant "category"
  let invariant ← item mutant "invariant"
  let oracle ← item mutant "oracle"
  pure (.object [("id", id), ("category", category), ("invariant", invariant), ("oracle", oracle)])

def findContract (caseId : Str) : List Json → Except PyError Json
  | [] => .error (.runtimeError (lit "Missing manifest contract for " ++ caseId))
  | mutant :: mutants => do
    let id ← item mutant "id"
    if id.pyEq (.str caseId) then contractOf mutant else findContract caseId mutants

def expectedCase (manifest : Json) (caseId : Str) : Except PyError Json :=
  if caseId = cleanControl then .ok .null
  else do
    let mutants ← item manifest "mutants"
    let mutants ← asItems mutants
    findContract caseId mutants

/-- What the preflight vouches for: every case has a source, and the manifest was decoded. -/
structure Preflight where
  sourceHashes : Dict Str Sha256.Digest
  manifest : Json
  manifestSha256 : Str
  covers : ∀ id ∈ caseIds, (sourceHashes.get? id).isSome
  decoded : manifest.distinct = true

def hashesPayload (hashes : Dict Str Sha256.Digest) : Json :=
  .obj (hashes.entries.map fun entry => (entry.1, .str entry.2.text))

/-- The parts of the configuration that are taken from the installation. -/
structure Installation where
  provider : Json
  agent : Json
  artifactHashes : Json
  runtimeVersions : Json
  gitState : Json

def fingerprintPayload (preflight : Preflight) (installation : Installation)
    (executionBackend : Str) : Json :=
  .object [("benchmark_version", .str benchmarkVersion),
    ("source_hashes", hashesPayload preflight.sourceHashes),
    ("artifact_hashes", installation.artifactHashes),
    ("runtime_versions", installation.runtimeVersions), ("provider", installation.provider),
    ("agent", installation.agent), ("execution_backend", .str executionBackend),
    ("manifest_sha256", .str preflight.manifestSha256), ("git_state", installation.gitState)]

def frozenConfig (preflight : Preflight) (installation : Installation) (repetitions : Nat)
    (selectedCases : List Str) (executionBackend : Str) : Except PyError Json := do
  let sourceTree ← jsonSha256 installation.artifactHashes
  let fingerprint ← jsonSha256 (fingerprintPayload preflight installation executionBackend)
  pure (.object [("benchmark_version", .str benchmarkVersion),
    ("provider", installation.provider), ("agent", installation.agent),
    ("execution_backend", .str executionBackend), ("repetitions", .int repetitions),
    ("selected_cases", texts selectedCases),
    ("source_hashes", hashesPayload preflight.sourceHashes),
    ("benchmark_manifest_sha256", .str preflight.manifestSha256),
    ("artifact_hashes", installation.artifactHashes), ("source_tree_sha256", .str sourceTree),
    ("runtime_versions", installation.runtimeVersions), ("git_state", installation.gitState),
    ("suite_fingerprint_sha256", .str fingerprint)])

section Contracts

theorem validateCases_ok {selection : Option (List Str)} {selected : List Str}
    (h : validateCases selection = .ok selected) :
    selected ≠ [] ∧ selected.Nodup ∧ ∀ id ∈ selected, id ∈ caseIds := by
  unfold validateCases at h
  dsimp only at h
  split_ifs at h with some once unknown
  cases h
  refine ⟨some, by simpa using once, fun id hid => ?_⟩
  have known := by simpa only [not_not] using unknown
  have none := List.length_insertionSort (· ≤ ·)
    (((selection.getD caseIds).filter fun id => !caseIds.contains id).dedup)
  rw [known, List.length_nil] at none
  have empty := List.dedup_eq_nil _ |>.mp (List.length_eq_zero_iff.mp none.symm)
  simpa using List.filter_eq_nil_iff.mp empty id hid

theorem distinct_of_get? {payload value : Json} {key : Str} (hd : payload.distinct = true)
    (h : payload.get? key = some value) : value.distinct = true := by
  cases payload with
  | obj fields =>
    simp only [Json.distinct, Bool.and_eq_true, Json.distinctFields_eq_true] at hd
    obtain ⟨before, after, rfl, -⟩ := List.lookup_eq_some_iff.mp h
    exact hd.2 (key, value) (by simp)
  | _ => cases h

theorem item_distinct {payload value : Json} {name : String} (hd : payload.distinct = true)
    (h : item payload name = .ok value) : value.distinct = true := by
  unfold item at h
  split at h
  next found hf =>
    cases h
    exact distinct_of_get? hd hf
  next => cases h

theorem contractOf_distinct {mutant contract : Json} (hd : mutant.distinct = true)
    (h : contractOf mutant = .ok contract) : contract.distinct = true := by
  obtain ⟨id, hid, h⟩ := Except.bind_eq_ok.mp h
  obtain ⟨category, hcategory, h⟩ := Except.bind_eq_ok.mp h
  obtain ⟨invariant, hinvariant, h⟩ := Except.bind_eq_ok.mp h
  obtain ⟨oracle, horacle, h⟩ := Except.bind_eq_ok.mp h
  cases h
  refine Json.distinct_object (by simp) ?_
  simp [item_distinct hd hid, item_distinct hd hcategory, item_distinct hd hinvariant,
    item_distinct hd horacle]

theorem findContract_distinct {caseId : Str} {mutants : List Json} {contract : Json}
    (hd : ∀ mutant ∈ mutants, mutant.distinct = true)
    (h : findContract caseId mutants = .ok contract) : contract.distinct = true := by
  induction mutants with
  | nil => cases h
  | cons mutant mutants ih =>
    obtain ⟨id, -, h⟩ := Except.bind_eq_ok.mp h
    split at h
    next => exact contractOf_distinct (hd mutant List.mem_cons_self) h
    next => exact ih (fun m hm => hd m (List.mem_cons_of_mem mutant hm)) h

/-- The contract of a case has no key twice, as the manifest it is taken from. -/
theorem expectedCase_distinct {manifest contract : Json} {caseId : Str}
    (hd : manifest.distinct = true) (h : expectedCase manifest caseId = .ok contract) :
    contract.distinct = true := by
  unfold expectedCase at h
  split at h
  next => cases h; rfl
  next =>
    obtain ⟨mutants, listed, h⟩ := Except.bind_eq_ok.mp h
    obtain ⟨items, isList, h⟩ := Except.bind_eq_ok.mp h
    have whole := item_distinct hd listed
    unfold asItems at isList
    split at isList
    next =>
      cases isList
      exact findContract_distinct (Json.distinctItems_eq_true.mp whole) h
    next => cases isList

end Contracts

end EdgecaseForge

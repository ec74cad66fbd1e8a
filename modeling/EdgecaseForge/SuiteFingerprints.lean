import EdgecaseForge.ControlRuns

namespace Json

open Text

section SortedFields

variable {κ ν : Type*} {fields fields' : List (String × Json)}

/-- Entries with the same distinct keys in the same order are the same if they are a permutation. -/
theorem entries_eq_of_perm {xs ys : List (κ × ν)} (keys : xs.map Prod.fst = ys.map Prod.fst)
    (nodup : (xs.map Prod.fst).Nodup) (h : xs.Perm ys) : xs = ys := by
  induction xs generalizing ys with
  | nil => exact h.nil_eq
  | cons x xs ih =>
    cases ys with
    | nil => cases keys
    | cons y ys =>
      simp only [List.map_cons, List.cons.injEq, List.nodup_cons] at keys nodup
      have here : x = y := by
        by_contra other
        have later : x ∈ ys := (List.mem_cons.mp (h.subset List.mem_cons_self)).resolve_left other
        have again : x.1 ∈ xs.map Prod.fst := by
          rw [keys.2]
          exact List.mem_map_of_mem later
        exact nodup.1 again
      subst here
      rw [ih keys.2 nodup.2 h.cons_inv]

theorem sortKeysItems_eq (items : List Json) : sortKeysItems items = items.map sortKeys := by
  induction items with
  | nil => rfl
  | cons item items ih => rw [sortKeysItems, List.map_cons, ih]

theorem sortKeysFields_object (fields : List (String × Json)) :
    sortKeysFields (fields.map fun field => (lit field.1, field.2)) =
      ((fields.map Prod.fst).map lit).zip (fields.map fun field => field.2.sortKeys) := by
  induction fields with
  | nil => rfl
  | cons field fields ih =>
    simp only [List.map_cons, sortKeysFields, List.zip_cons_cons]
    rw [ih]

theorem values_of_insertionSort {keys : List Str} {xs ys : List Json} (nodup : keys.Nodup)
    (hx : keys.length = xs.length) (hy : keys.length = ys.length)
    (h : (keys.zip xs).insertionSort (fun a b => a.1 ≤ b.1) =
      (keys.zip ys).insertionSort fun a b => a.1 ≤ b.1) : xs = ys := by
  have keyed : (keys.zip xs).map Prod.fst = keys := List.map_fst_zip (by omega)
  have keyed' : (keys.zip ys).map Prod.fst = keys := List.map_fst_zip (by omega)
  have sorted := List.perm_insertionSort (fun a b : Str × Json => a.1 ≤ b.1) (keys.zip xs)
  rw [h] at sorted
  have perm := sorted.symm.trans (List.perm_insertionSort (fun a b => a.1 ≤ b.1) (keys.zip ys))
  have whole := entries_eq_of_perm (keyed.trans keyed'.symm) (by rwa [keyed]) perm
  have values := congrArg (List.map Prod.snd) whole
  rwa [List.map_snd_zip (by omega), List.map_snd_zip (by omega)] at values

/-- Objects with the same names are equal up to the order of keys if their values are. -/
theorem sortKeys_object_inj (names : fields.map Prod.fst = fields'.map Prod.fst)
    (nodup : (fields.map Prod.fst).Nodup) :
    (object fields).sortKeys = (object fields').sortKeys ↔
      fields.map (fun field => field.2.sortKeys) = fields'.map fun field => field.2.sortKeys := by
  have count : fields.length = fields'.length := by
    have lengths := congrArg List.length names
    rwa [List.length_map, List.length_map] at lengths
  have keys : ((fields'.map Prod.fst).map lit).Nodup := by
    rw [← names]
    exact nodup.map fun a b hab => lit_inj.mp hab
  simp only [object, sortKeys, sortKeysFields_object, obj.injEq, names]
  constructor
  · intro sorted
    exact values_of_insertionSort keys (by simp [count]) (by simp) sorted
  · intro values
    rw [values]

end SortedFields

end Json

namespace EdgecaseForge

open Text

/-- A call of `frozen_config`, with what it reads of the provider and the installation. -/
structure FreezeCall where
  provider : Json
  repetitions : Int
  selectedCases : List Str
  sourceHashes : Dict Str Str
  manifestSha256 : Str
  executionBackend : Str
  agentConfig : Json
  artifactHashes : Json
  runtimeVersions : Json
  gitState : Json

namespace FreezeCall

def hashes (c : FreezeCall) : Json :=
  .obj (c.sourceHashes.entries.map fun entry => (entry.1, .str entry.2))

def fingerprintPayload (c : FreezeCall) : Json :=
  .object [("benchmark_version", .str benchmarkVersion), ("source_hashes", c.hashes),
    ("artifact_hashes", c.artifactHashes), ("runtime_versions", c.runtimeVersions),
    ("provider", c.provider), ("agent", c.agentConfig),
    ("execution_backend", .str c.executionBackend), ("manifest_sha256", .str c.manifestSha256),
    ("git_state", c.gitState)]

def config (c : FreezeCall) (sourceTree fingerprint : Str) : Json :=
  .object [("benchmark_version", .str benchmarkVersion), ("provider", c.provider),
    ("agent", c.agentConfig), ("execution_backend", .str c.executionBackend),
    ("repetitions", .int c.repetitions), ("selected_cases", texts c.selectedCases),
    ("source_hashes", c.hashes), ("benchmark_manifest_sha256", .str c.manifestSha256),
    ("artifact_hashes", c.artifactHashes), ("source_tree_sha256", .str sourceTree),
    ("runtime_versions", c.runtimeVersions), ("git_state", c.gitState),
    ("suite_fingerprint_sha256", .str fingerprint)]

/-- `frozen_config`. -/
def frozen (c : FreezeCall) : Except PyError Json := do
  let sourceTree ← jsonSha256 c.artifactHashes
  let fingerprint ← jsonSha256 c.fingerprintPayload
  pure (c.config sourceTree fingerprint)

/-- The canonical text of a payload is told apart from another one, and so is its hash. -/
structure Identified (payload payload' : Json) : Prop where
  injective : canonicalJson payload = canonicalJson payload' → payload.sortKeys = payload'.sortKeys
  collisionFree : ∀ {canonical canonical' bytes bytes'}, canonicalJson payload = .ok canonical →
    canonicalJson payload' = .ok canonical' → encodeUtf8 canonical = .ok bytes →
    encodeUtf8 canonical' = .ok bytes' → Sha256.sha256 bytes = Sha256.sha256 bytes' → bytes = bytes'

/-- Two calls with the same hashed inputs, up to the order of keys. -/
structure SameBenchmark (c c' : FreezeCall) : Prop where
  provider : c.provider.sortKeys = c'.provider.sortKeys
  agentConfig : c.agentConfig.sortKeys = c'.agentConfig.sortKeys
  hashes : c.hashes.sortKeys = c'.hashes.sortKeys
  artifactHashes : c.artifactHashes.sortKeys = c'.artifactHashes.sortKeys
  runtimeVersions : c.runtimeVersions.sortKeys = c'.runtimeVersions.sortKeys
  gitState : c.gitState.sortKeys = c'.gitState.sortKeys
  manifestSha256 : c.manifestSha256 = c'.manifestSha256
  executionBackend : c.executionBackend = c'.executionBackend

end FreezeCall

section Calls

variable {c c' : FreezeCall} {json json' payload payload' : Json}

theorem jsonSha256_congr (h : payload.sortKeys = payload'.sortKeys) :
    jsonSha256 payload = jsonSha256 payload' := by
  rw [jsonSha256, jsonSha256, canonicalJson, canonicalJson, h]

theorem sortKeys_texts_inj {xs ys : List Str} :
    (texts xs).sortKeys = (texts ys).sortKeys ↔ xs = ys := by
  have plain (zs : List Str) : (texts zs).sortKeys = texts zs := by
    simp only [texts, Json.sortKeys, Json.sortKeysItems_eq, List.map_map]
    rfl
  rw [plain, plain, texts, texts, Json.list.injEq]
  exact (List.map_injective_iff.mpr fun _ _ h => Json.str.inj h).eq_iff

namespace FreezeCall

theorem fingerprintPayload_sortKeys : c.fingerprintPayload.sortKeys = c'.fingerprintPayload.sortKeys ↔
    SameBenchmark c c' := by
  rw [fingerprintPayload, fingerprintPayload, Json.sortKeys_object_inj (by rfl) (by simp)]
  simp only [List.map_cons, List.map_nil, List.cons.injEq, Json.sortKeys, Json.str.injEq, true_and,
    and_true]
  constructor
  · rintro ⟨hashes, artifacts, runtime, provider, agent, backend, manifest, git⟩
    exact ⟨provider, agent, hashes, artifacts, runtime, git, manifest, backend⟩
  · intro h
    exact ⟨h.hashes, h.artifactHashes, h.runtimeVersions, h.provider, h.agentConfig,
      h.executionBackend, h.manifestSha256, h.gitState⟩

theorem config_sortKeys {sourceTree fingerprint sourceTree' fingerprint' : Str} :
    (c.config sourceTree fingerprint).sortKeys = (c'.config sourceTree' fingerprint').sortKeys ↔
      (c.repetitions = c'.repetitions ∧ c.selectedCases = c'.selectedCases) ∧ SameBenchmark c c' ∧
        sourceTree = sourceTree' ∧ fingerprint = fingerprint' := by
  rw [config, config, Json.sortKeys_object_inj (by rfl) (by simp)]
  simp only [List.map_cons, List.map_nil, List.cons.injEq, sortKeys_texts_inj, true_and, and_true]
  simp only [Json.sortKeys, Json.str.injEq, Json.int.injEq]
  constructor
  · rintro ⟨provider, agent, backend, count, cases_, hashes, manifest, artifacts, tree, runtime, git, print⟩
    exact ⟨⟨count, cases_⟩, ⟨provider, agent, hashes, artifacts, runtime, git, manifest, backend⟩, tree, print⟩
  · rintro ⟨⟨count, cases_⟩, h, tree, print⟩
    exact ⟨h.provider, h.agentConfig, h.executionBackend, count, cases_, h.hashes, h.manifestSha256,
      h.artifactHashes, tree, h.runtimeVersions, h.gitState, print⟩

theorem frozen_ok (made : c.frozen = .ok json) : ∃ sourceTree fingerprint,
    jsonSha256 c.artifactHashes = .ok sourceTree ∧
    jsonSha256 c.fingerprintPayload = .ok fingerprint ∧ json = c.config sourceTree fingerprint := by
  obtain ⟨sourceTree, tree, made⟩ := Except.bind_eq_ok.mp made
  obtain ⟨fingerprint, print, made⟩ := Except.bind_eq_ok.mp made
  exact ⟨sourceTree, fingerprint, tree, print, (Except.ok.inj made).symm⟩

theorem config_fingerprint (c : FreezeCall) (sourceTree fingerprint : Str) :
    (c.config sourceTree fingerprint).get? (lit "suite_fingerprint_sha256") = some (.str fingerprint) := by
  rw [config, Json.get?_object]
  rfl

/-- The call that freezes the configuration of a suite. -/
def ofSuite (preflight : Preflight) (installation : Installation) (repetitions : Nat)
    (selectedCases : List Str) (executionBackend : Str) : FreezeCall where
  provider := installation.provider
  repetitions := repetitions
  selectedCases := selectedCases
  sourceHashes := ⟨preflight.sourceHashes.entries.map fun entry => (entry.1, entry.2.text), by
    rw [List.map_map]
    exact preflight.sourceHashes.nodup⟩
  manifestSha256 := preflight.manifestSha256
  executionBackend := executionBackend
  agentConfig := installation.agent
  artifactHashes := installation.artifactHashes
  runtimeVersions := installation.runtimeVersions
  gitState := installation.gitState

theorem ofSuite_hashes (preflight : Preflight) (installation : Installation) (repetitions : Nat)
    (selectedCases : List Str) (executionBackend : Str) :
    (ofSuite preflight installation repetitions selectedCases executionBackend).hashes =
      hashesPayload preflight.sourceHashes := by
  rw [hashes, ofSuite, hashesPayload, List.map_map]
  rfl

theorem ofSuite_frozen (preflight : Preflight) (installation : Installation) (repetitions : Nat)
    (selectedCases : List Str) (executionBackend : Str) :
    (ofSuite preflight installation repetitions selectedCases executionBackend).frozen =
      frozenConfig preflight installation repetitions selectedCases executionBackend := by
  simp only [frozen, fingerprintPayload, config, ofSuite_hashes]
  rfl

/-- Payloads with the same hash are the same up to the order of keys. -/
theorem Identified.sortKeys (h : Identified payload payload') {hash : Str}
    (hashed : jsonSha256 payload = .ok hash) (hashed' : jsonSha256 payload' = .ok hash) :
    payload.sortKeys = payload'.sortKeys := by
  obtain ⟨canonical, text, hashed⟩ := Except.bind_eq_ok.mp hashed
  obtain ⟨bytes, encoded, hashed⟩ := Except.bind_eq_ok.mp hashed
  obtain ⟨canonical', text', hashed'⟩ := Except.bind_eq_ok.mp hashed'
  obtain ⟨bytes', encoded', hashed'⟩ := Except.bind_eq_ok.mp hashed'
  have same : Sha256.sha256 bytes = Sha256.sha256 bytes' :=
    (Except.ok.inj hashed).trans (Except.ok.inj hashed').symm
  have streams := h.collisionFree text text' encoded encoded' same
  have decoded := utf8Decode_encode (encodeUtf8_ok encoded)
  rw [streams, utf8Decode_encode (encodeUtf8_ok encoded')] at decoded
  refine h.injective ?_
  rw [text, text', Option.some.inj decoded]

/-- The fingerprint identifies the configuration exactly if the calls agree on the schedule or
differ in what is hashed. -/
theorem suiteFingerprint_binds (identified : Identified c.fingerprintPayload c'.fingerprintPayload)
    (made : c.frozen = .ok json) (made' : c'.frozen = .ok json') :
    (json.get? (lit "suite_fingerprint_sha256") = json'.get? (lit "suite_fingerprint_sha256") →
        json.sortKeys = json'.sortKeys) ↔
      (SameBenchmark c c' → c.repetitions = c'.repetitions ∧ c.selectedCases = c'.selectedCases) := by
  obtain ⟨sourceTree, fingerprint, tree, print, rfl⟩ := frozen_ok made
  obtain ⟨sourceTree', fingerprint', tree', print', rfl⟩ := frozen_ok made'
  rw [config_fingerprint, config_fingerprint, config_sortKeys]
  constructor
  · intro binds same
    have hashed := jsonSha256_congr (fingerprintPayload_sortKeys.mpr same)
    rw [print, print'] at hashed
    exact (binds (by rw [Except.ok.inj hashed])).1
  · intro differ equal
    have one : fingerprint = fingerprint' := Json.str.inj (Option.some.inj equal)
    subst one
    have same := fingerprintPayload_sortKeys.mp (identified.sortKeys print print')
    have trees := jsonSha256_congr same.artifactHashes
    rw [tree, tree'] at trees
    exact ⟨differ same, same, Except.ok.inj trees, rfl⟩

/-- A call for the control case with a given number of repetitions. -/
def scheduled (repetitions : Nat) : FreezeCall :=
  ofSuite benchSources (controlCall none).installation repetitions [cleanControl] (lit "local")

theorem scheduled_payload (n m : Nat) :
    (scheduled n).fingerprintPayload = (scheduled m).fingerprintPayload :=
  rfl

theorem scheduled_identified (n m : Nat) :
    Identified (scheduled n).fingerprintPayload (scheduled m).fingerprintPayload := by
  rw [scheduled_payload n m]
  refine ⟨fun _ => rfl, fun text text' encoded encoded' _ => ?_⟩
  have one := Except.ok.inj (text.symm.trans text')
  subst one
  exact Except.ok.inj (encoded.symm.trans encoded')

theorem scheduled_frozen (n : Nat) : ∃ json, (scheduled n).frozen = .ok json := by
  obtain ⟨f, made, -⟩ := controlCall_frozen none
  have frozen : (scheduled 1).frozen = .ok f.json := (ofSuite_frozen _ _ _ _ _).trans made
  obtain ⟨sourceTree, fingerprint, tree, print, -⟩ := frozen_ok frozen
  refine ⟨(scheduled n).config sourceTree fingerprint, ?_⟩
  have tree' : jsonSha256 (scheduled n).artifactHashes = .ok sourceTree := tree
  rw [FreezeCall.frozen, tree', scheduled_payload n 1, print]
  rfl

theorem suiteFingerprint_binds_scheduled : ∃ json json' : Json, (scheduled 1).frozen = .ok json ∧
    (scheduled 2).frozen = .ok json' ∧
    ((json.get? (lit "suite_fingerprint_sha256") = json'.get? (lit "suite_fingerprint_sha256") →
        json.sortKeys = json'.sortKeys) ↔
      (SameBenchmark (scheduled 1) (scheduled 2) → (scheduled 1).repetitions = (scheduled 2).repetitions ∧
        (scheduled 1).selectedCases = (scheduled 2).selectedCases)) := by
  obtain ⟨json, made⟩ := scheduled_frozen 1
  obtain ⟨json', made'⟩ := scheduled_frozen 2
  exact ⟨json, json', made, made', suiteFingerprint_binds (scheduled_identified 1 2) made made'⟩

/-- One repetition and two repetitions have the same fingerprint. -/
theorem suiteFingerprint_ambiguous : ∃ json json' : Json, (scheduled 1).frozen = .ok json ∧
    (scheduled 2).frozen = .ok json' ∧
    Identified (scheduled 1).fingerprintPayload (scheduled 2).fingerprintPayload ∧
    json.get? (lit "suite_fingerprint_sha256") = json'.get? (lit "suite_fingerprint_sha256") ∧
    json.sortKeys ≠ json'.sortKeys := by
  obtain ⟨json, made⟩ := scheduled_frozen 1
  obtain ⟨json', made'⟩ := scheduled_frozen 2
  obtain ⟨sourceTree, fingerprint, -, print, rfl⟩ := frozen_ok made
  obtain ⟨sourceTree', fingerprint', -, print', rfl⟩ := frozen_ok made'
  rw [scheduled_payload 1 2, print'] at print
  refine ⟨_, _, made, made', scheduled_identified 1 2, ?_, ?_⟩
  · rw [config_fingerprint, config_fingerprint, Except.ok.inj print]
  · intro same
    have counts : (1 : Int) = 2 := (config_sortKeys.mp same).1.1
    omega

end FreezeCall

end Calls

end EdgecaseForge

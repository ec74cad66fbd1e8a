import EdgecaseForge.Overlays
import EdgecaseForge.SuiteRuns

namespace EdgecaseForge

open Text

/-- A configuration that was frozen for a suite. -/
structure Frozen where
  preflight : Preflight
  installation : Installation
  repetitions : Nat
  selectedCases : List Str
  executionBackend : Str
  suiteId : Str
  json : Json
  made : frozenConfig preflight installation repetitions selectedCases executionBackend = .ok json
  selected : ∃ selection, validateCases selection = .ok selectedCases
  installed : installation.provider.distinct ∧ installation.agent.distinct ∧
    installation.artifactHashes.distinct ∧ installation.runtimeVersions.distinct ∧
    installation.gitState.distinct

namespace Frozen

def schedule (f : Frozen) : List CaseKey :=
  EdgecaseForge.schedule f.repetitions f.selectedCases

def context (f : Frozen) (suiteDir : Path) : SuiteContext where
  suiteDir := suiteDir
  sourceHashes := f.preflight.sourceHashes
  manifestSha256 := f.preflight.manifestSha256

def config (f : Frozen) : Json :=
  suiteConfig (.str f.suiteId) f.json

end Frozen

section Hashes

variable {hashes hashes' : Dict Str Sha256.Digest}

theorem hashesPayload_distinct (hashes : Dict Str Sha256.Digest) :
    (hashesPayload hashes).distinct = true := by
  have keys : ((hashes.entries.map fun entry => (entry.1, Json.str entry.2.text)).map
      Prod.fst).Nodup := by
    rw [List.map_map]
    exact hashes.nodup
  rw [hashesPayload, Json.distinct, Bool.and_eq_true, decide_eq_true_iff]
  refine ⟨keys, Json.distinctFields_eq_true.mpr fun field hf => ?_⟩
  obtain ⟨entry, -, rfl⟩ := List.mem_map.mp hf
  rfl

theorem hashesPayload_encodable
    (h : ∀ entry ∈ hashes.entries, isUnicode entry.1 = true) :
    (hashesPayload hashes).encodable = true := by
  rw [hashesPayload, Json.encodable_obj]
  intro field hf
  obtain ⟨entry, he, rfl⟩ := List.mem_map.mp hf
  exact ⟨h entry he, Json.encodable_str.trans (Sha256.isUnicode_of_hex entry.2.hex)⟩

/-- Equal hashes of sources are the same hash for every case. -/
theorem hashesPayload_inj
    (h : (hashesPayload hashes).matchesEntry (hashesPayload hashes') = true) (caseId : Str) :
    hashes.get? caseId = hashes'.get? caseId := by
  have equal : (hashesPayload hashes).pyEq (hashesPayload hashes') = true := h
  cases hl : hashes.get? caseId with
  | some hash =>
    have found : (hashesPayload hashes).get? caseId = some (.str hash.text) := by
      rw [hashesPayload_eq, hl, Option.map_some]
    obtain ⟨value, there, same⟩ := Json.get?_right_of_pyEq equal rfl found
    rw [Json.str_matchesEntry same, hashesPayload_eq, Option.map_eq_some_iff] at there
    obtain ⟨other, ho, text⟩ := there
    rw [ho, Sha256.Digest.ext (Json.str.inj text)]
  | none =>
    cases hr : hashes'.get? caseId with
    | none => rfl
    | some hash =>
      have found : (hashesPayload hashes').get? caseId = some (.str hash.text) := by
        rw [hashesPayload_eq, hr, Option.map_some]
      obtain ⟨value, there, -⟩ :=
        Json.get?_left_of_pyEq equal (hashesPayload_distinct hashes) rfl found
      rw [hashesPayload_eq, hl] at there
      cases there

end Hashes

section Configurations

theorem texts_inj {xs ys : List Str} (h : (texts xs).matchesEntry (texts ys) = true) : xs = ys := by
  have each := Json.matchesEntry_list h
  rw [List.forall₂_map_left_iff, List.forall₂_map_right_iff] at each
  have same : List.Forall₂ Eq xs ys := each.imp fun _ _ hs =>
    Json.str.inj (Json.matchesEntry_str hs)
  rwa [List.forall₂_eq_eq_eq] at same

/-- What is read from the frozen configuration. -/
theorem frozenConfig_ok {preflight : Preflight} {installation : Installation} {repetitions : Nat}
    {selectedCases : List Str} {executionBackend : Str} {json : Json}
    (h : frozenConfig preflight installation repetitions selectedCases executionBackend = .ok json) :
    ∃ sourceTree fingerprint, json = .object [("benchmark_version", .str benchmarkVersion),
      ("provider", installation.provider), ("agent", installation.agent),
      ("execution_backend", .str executionBackend), ("repetitions", .int repetitions),
      ("selected_cases", texts selectedCases),
      ("source_hashes", hashesPayload preflight.sourceHashes),
      ("benchmark_manifest_sha256", .str preflight.manifestSha256),
      ("artifact_hashes", installation.artifactHashes), ("source_tree_sha256", .str sourceTree),
      ("runtime_versions", installation.runtimeVersions), ("git_state", installation.gitState),
      ("suite_fingerprint_sha256", .str fingerprint)] := by
  obtain ⟨sourceTree, -, h⟩ := Except.bind_eq_ok.mp h
  obtain ⟨fingerprint, -, h⟩ := Except.bind_eq_ok.mp h
  exact ⟨sourceTree, fingerprint, (Except.ok.inj h).symm⟩

/-- A configuration that is equal to a frozen one has its schedule and its sources. -/
theorem frozenConfig_inj {preflight preflight' : Preflight}
    {installation installation' : Installation} {repetitions repetitions' : Nat}
    {selectedCases selectedCases' : List Str} {executionBackend executionBackend' : Str}
    {json json' : Json}
    (h : frozenConfig preflight installation repetitions selectedCases executionBackend = .ok json)
    (h' : frozenConfig preflight' installation' repetitions' selectedCases' executionBackend' =
      .ok json') (equal : json.pyEq json' = true) :
    repetitions = repetitions' ∧ selectedCases = selectedCases' ∧
      ∀ caseId, preflight.sourceHashes.get? caseId = preflight'.sourceHashes.get? caseId := by
  obtain ⟨_, _, rfl⟩ := frozenConfig_ok h
  obtain ⟨_, _, rfl⟩ := frozenConfig_ok h'
  have values := Json.values_of_pyEq equal rfl (by simp)
  simp only [List.forall₂_cons, List.Forall₂.nil, and_true] at values
  obtain ⟨-, -, -, -, count, cases_, hashes, -⟩ := values
  exact ⟨Int.ofNat_inj.mp (Json.matchesEntry_int count), texts_inj cases_, hashesPayload_inj hashes⟩

theorem Frozen.json_distinct (f : Frozen) : f.json.distinct = true := by
  obtain ⟨_, _, made⟩ := frozenConfig_ok f.made
  obtain ⟨provider, agent, artifacts, runtime, git⟩ := f.installed
  have listed := Json.distinct_map Json.distinct_str f.selectedCases
  rw [made]
  refine Json.distinct_object (by simp) ?_
  simp [provider, agent, artifacts, runtime, git, hashesPayload_distinct, texts, listed]

theorem Frozen.config_distinct (f : Frozen) : f.config.distinct = true := by
  have frozen := f.json_distinct
  exact Json.distinct_object (by simp) (by simp [frozen])

theorem Frozen.schedule_nodup (f : Frozen) : f.schedule.Nodup := by
  obtain ⟨selection, selected⟩ := f.selected
  exact nodup_schedule (validateCases_ok selected).2.1

theorem Frozen.known (f : Frozen) {key : CaseKey} (h : key ∈ f.schedule) : key.caseId ∈ caseIds := by
  obtain ⟨selection, selected⟩ := f.selected
  exact (validateCases_ok selected).2.2 _ (mem_schedule.mp h).2

end Configurations

end EdgecaseForge

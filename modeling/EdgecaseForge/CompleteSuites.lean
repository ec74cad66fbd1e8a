import EdgecaseForge.SuiteHistories

namespace EdgecaseForge

open Text Effect Program

section Totals

variable {directory : Path} {name : Str} {payload : Json} {t : FileTree}

theorem appendLine_total (there : t.isDir directory = true)
    (free : t.isDir (directory ++ [name]) = false) (h : payload.encodable = true) :
    (appendLine (directory ++ [name]) payload t).2 = .ok () := by
  have text : isUnicode (Json.encode Json.compact 0 payload ++ [lineFeed]) = true :=
    isUnicode_append (Json.encode_compact_isUnicode h) (by decide)
  obtain ⟨line, encoded⟩ := exists_bytes text
  have printed : jsonLine payload = .ok line :=
    jsonLine_eq_ok.mpr ⟨Json.encodable_printable h, encoded⟩
  rw [appendLine, openable_child there free, printed]

theorem frozenConfig_total {preflight : Preflight} {installation : Installation}
    {executionBackend : Str} (repetitions : Nat) (selectedCases : List Str)
    (artifacts : installation.artifactHashes.printable = true)
    (covered : (fingerprintPayload preflight installation executionBackend).printable = true) :
    ∃ json sourceTree fingerprint, isUnicode sourceTree = true ∧ isUnicode fingerprint = true ∧
      frozenConfig preflight installation repetitions selectedCases executionBackend = .ok json ∧
      json = .object [("benchmark_version", .str benchmarkVersion),
        ("provider", installation.provider), ("agent", installation.agent),
        ("execution_backend", .str executionBackend), ("repetitions", .int repetitions),
        ("selected_cases", texts selectedCases),
        ("source_hashes", hashesPayload preflight.sourceHashes),
        ("benchmark_manifest_sha256", .str preflight.manifestSha256),
        ("artifact_hashes", installation.artifactHashes), ("source_tree_sha256", .str sourceTree),
        ("runtime_versions", installation.runtimeVersions), ("git_state", installation.gitState),
        ("suite_fingerprint_sha256", .str fingerprint)] := by
  obtain ⟨sourceTree, hashed, plain⟩ := exists_jsonSha256 artifacts
  obtain ⟨fingerprint, hashed', plain'⟩ := exists_jsonSha256 covered
  refine ⟨_, sourceTree, fingerprint, plain, plain', ?_, rfl⟩
  rw [frozenConfig, hashed, hashed']
  rfl

theorem checkCall_total {call : SuiteCall} (h : (checkCall call).isOk = true) :
    checkCall call = .ok call.selectedCases := by
  cases he : checkCall call with
  | error e =>
    rw [he] at h
    cases h
  | ok selected => rw [(checkCall_ok he).2]

end Totals

section Resumes

variable {suiteDir : Path} {f : Frozen} {entries : List Entry} {k : DigitTable} {call : SuiteCall}
  {t : FileTree} {plan : SuitePlan}

/-- A suite that stands is resumed under its own configuration. -/
theorem SuiteStands.resumedId (h : SuiteStands suiteDir f entries t) :
    resumedId suiteDir f.json t = .ok (.str f.suiteId) := by
  have number : f.json.isNaN = false := by
    obtain ⟨_, _, made⟩ := frozenConfig_ok f.made
    rw [made]
    rfl
  have same : f.json.pyEq f.json = true := Json.pyEq_self f.json_distinct number
  have version : dictGet f.config "config_schema_version" .null =
      .ok (.str (lit "suite-config-v2")) := rfl
  have id : subscript f.config "suite_id" = .ok (.str f.suiteId) := by
    refine subscript_of_get? ?_
    rw [Frozen.config, suiteConfig, Json.get?_object]
    rfl
  have frozen : dictGet f.config "frozen" .null = .ok f.json := by
    have found : f.config.get? (lit "frozen") = some f.json := by
      rw [Frozen.config, suiteConfig, Json.get?_object]
      rfl
    change Except.ok ((f.config.get? (lit "frozen")).getD .null) = _
    rw [found, Option.getD_some]
  have known : (Json.str (lit "suite-config-v2")).pyEq (.str (lit "suite-config-v2")) = true := by
    simp [Json.pyEq]
  unfold EdgecaseForge.resumedId
  simp only [h.config.readJson, Except.ok_bind, version, known, id, frozen, same, Except.check,
    if_true]
  rfl

/-- The ledger of a suite that stands is read if its texts and counts are those of a ledger. -/
theorem SuiteStands.readProgress (h : SuiteStands suiteDir f entries t)
    (follows : Follows suiteDir f plan) (readable : t.isDir (ledgerPath suiteDir) = false)
    (artifacts : ∀ e ∈ entries, ArtifactsStand suiteDir e t) :
    readProgress plan.progress (ledgerPath plan.context.suiteDir) t =
      .ok (entries.map Entry.row) ↔ ∀ e ∈ entries, LedgerSafe e.input := by
  have directory := follows.suiteDir
  refine LedgerStands.read ⟨?_, ?_, fun e he => follows.planned (h.stands e he), ?_⟩ ?_
    (f.schedule_nodup.sublist h.ordered.sublist)
  · rw [directory]
    exact h.ledger
  · rwa [directory]
  · rwa [directory]
  · intro e he
    have scheduled := h.ordered.subset (List.mem_map_of_mem he)
    rwa [← follows.schedule] at scheduled

theorem SuiteStands.opened (h : SuiteStands suiteDir f entries t) (event : String) :
    Opened suiteDir f f.json ⟨suiteDir, .str f.suiteId, event⟩ := by
  obtain ⟨-, equal⟩ := resumedId_ok h.config h.resumedId
  exact ⟨rfl, rfl, equal⟩

/-- A suite whose pairs are all in its ledger is resumed without a case being run. -/
theorem runFlashcartSuite_complete (stands : SuiteStands suiteDir f entries t)
    (all : entries.map Entry.key = f.schedule) (resumes : call.resumeDir = some suiteDir)
    (checked : checkCall call = .ok call.selectedCases) {preflight : Preflight}
    (given : call.preflight = .ok preflight)
    (made : frozenConfig preflight call.installation call.repetitions.toNat call.selectedCases
      call.executionBackend = .ok f.json)
    (readable : t.isDir (ledgerPath suiteDir) = false)
    (free : t.isDir (eventsPath suiteDir) = false)
    (announced : (eventPayload "suite_resumed" call entries.length).encodable = true)
    (artifacts : ∀ e ∈ entries, ArtifactsStand suiteDir e t)
    (safe : ∀ e ∈ entries, LedgerSafe e.input) :
    (runFlashcartSuite k call).Returns t suiteDir
      (appendLine (eventsPath suiteDir) (eventPayload "suite_resumed" call entries.length) t).1 := by
  have id := stands.resumedId
  have follows := (stands.opened "suite_resumed").follows made
  have rows := (stands.readProgress follows readable artifacts).mpr safe
  have appended := appendLine_total stands.made free announced
  have observed := observed_entries follows stands.stands stands.ordered
  have skipped : ∀ rows : List Json, evaluatePairs k
      (planOf call preflight call.selectedCases ⟨suiteDir, .str f.suiteId, "suite_resumed"⟩)
      ((entries.map Entry.key).map some) rows
      (planOf call preflight call.selectedCases
        ⟨suiteDir, .str f.suiteId, "suite_resumed"⟩).schedule = pure rows := by
    intro rows
    have every : ∀ key ∈ f.schedule,
        ((entries.map Entry.key).map some).contains (some key) = true := by
      intro key hk
      rw [← all] at hk
      rw [List.contains_iff_mem]
      exact List.mem_map_of_mem hk
    have whole : evaluatePairs k (planOf call preflight call.selectedCases
        ⟨suiteDir, .str f.suiteId, "suite_resumed"⟩) ((entries.map Entry.key).map some) rows
        (f.schedule ++ []) = evaluatePairs k (planOf call preflight call.selectedCases
          ⟨suiteDir, .str f.suiteId, "suite_resumed"⟩) ((entries.map Entry.key).map some) rows [] :=
      evaluatePairs_skip every []
    rw [List.append_nil] at whole
    rw [follows.schedule, whole]
    rfl
  have continued : (continueSuite k call "suite_resumed"
      (planOf call preflight call.selectedCases
        ⟨suiteDir, .str f.suiteId, "suite_resumed"⟩)).Returns t suiteDir
      (appendLine (eventsPath suiteDir) (eventPayload "suite_resumed" call entries.length) t).1 := by
    refine returns_bind.mpr ⟨entries.map Entry.row, t, returns_inspect.mpr ⟨rows, rfl⟩, ?_⟩
    refine returns_bind.mpr ⟨(), _, returns_act.mpr (Prod.ext rfl ?_), ?_⟩
    · rw [List.length_map]
      exact appended
    · refine returns_bind.mpr ⟨_, _, returns_lift.mpr ⟨observed, rfl⟩, ?_⟩
      rw [List.length_map, skipped]
      exact returns_bind.mpr ⟨_, _, returns_pure.mpr ⟨rfl, rfl⟩, returns_pure.mpr ⟨rfl, rfl⟩⟩
  refine returns_bind.mpr ⟨_, t, returns_lift.mpr ⟨checked, rfl⟩, ?_⟩
  refine returns_bind.mpr ⟨preflight, t, returns_lift.mpr ⟨given, rfl⟩, ?_⟩
  refine returns_bind.mpr ⟨f.json, t, returns_lift.mpr ⟨made, rfl⟩, ?_⟩
  refine returns_bind.mpr ⟨⟨suiteDir, .str f.suiteId, "suite_resumed"⟩, t, ?_, continued⟩
  rw [openSuite, resumes]
  exact returns_bind.mpr ⟨_, t, returns_inspect.mpr ⟨id, rfl⟩, returns_pure.mpr ⟨rfl, rfl⟩⟩

end Resumes

end EdgecaseForge

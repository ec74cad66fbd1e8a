import EdgecaseForge.DiskPrograms

namespace EdgecaseForge

open Text Effect Program

section Writes

variable {t t' : FileTree} {p q : Path} {u : Unit}

theorem writeText_returns {s : Str} : (Disk.writeText p s).Returns t u t' ↔
    t.openable p = .ok () ∧ ∃ bytes, utf8Encode s = some bytes ∧ t.set p (.file bytes) = t' := by
  rw [Disk.writeText, Disk.write, returns_act]
  unfold writeText encodeUtf8
  cases t.openable p with
  | error e => simp
  | ok u' =>
    cases utf8Encode s with
    | none => simp
    | some bytes => simp

theorem writeBytes_returns {content : Bytes} : (Disk.writeBytes p content).Returns t u t' ↔
    t.openable p = .ok () ∧ t.set p (.file content) = t' := by
  rw [Disk.writeBytes, Disk.write, returns_act]
  unfold FileTree.writeBytes
  cases t.openable p <;> simp

theorem mkdir_returns {existOk : Bool} :
    (Disk.mkdir existOk p).Returns t u t' ↔ FileTree.mkdir existOk p t = (t', .ok u) :=
  returns_act

/-- A file as `indent=2` prints it, with the line feed after it. -/
def Prints (payload : Json) (bytes : Bytes) : Prop :=
  payload.printable = true ∧
    utf8Encode (Json.encode Json.indented 0 payload ++ [lineFeed]) = some bytes

theorem writeJson_returns {payload : Json} : (writeJson p payload).Returns t u t' ↔
    t.openable p = .ok () ∧ ∃ bytes, Prints payload bytes ∧ t.set p (.file bytes) = t' := by
  rw [writeJson, returns_bind]
  constructor
  · rintro ⟨s, _, hs, hw⟩
    obtain ⟨hd, rfl⟩ := returns_lift.mp hs
    obtain ⟨printable, rfl⟩ := jsonDumps_eq_ok.mp hd
    obtain ⟨ho, bytes, hb, rfl⟩ := writeText_returns.mp hw
    exact ⟨ho, bytes, ⟨printable, hb⟩, rfl⟩
  · rintro ⟨ho, bytes, ⟨printable, hb⟩, rfl⟩
    exact ⟨_, t, returns_lift.mpr ⟨jsonDumps_eq_ok.mpr ⟨printable, rfl⟩, rfl⟩,
      writeText_returns.mpr ⟨ho, bytes, hb, rfl⟩⟩

/-- What an atomic write leaves behind. -/
theorem writeJsonAtomic_returns {payload : Json} (h : (writeJsonAtomic p payload).Returns t u t') :
    ∃ bytes, Prints payload bytes ∧ t'.get? p = some (.file bytes) := by
  rw [writeJsonAtomic, returns_bind] at h
  obtain ⟨_, made, -, h⟩ := h
  obtain ⟨s, _, hs, h⟩ := returns_bind.mp h
  obtain ⟨hd, rfl⟩ := returns_lift.mp hs
  obtain ⟨printable, rfl⟩ := jsonDumps_eq_ok.mp hd
  have replaced := returns_act.mp h
  obtain ⟨bytes, encoded, stored⟩ := replaceText_ok (congrArg Prod.snd replaced)
  rw [replaced] at stored
  exact ⟨bytes, ⟨printable, encoded⟩, stored⟩

theorem Prints.readJson {payload : Json} {bytes : Bytes} (h : Prints payload bytes)
    (hd : payload.distinct = true) (ht : t.get? p = some (.file bytes)) :
    readJson p t = .ok payload :=
  readJson_written hd h.1 h.2 ht

theorem writeSideFiles_keeps {runDir : Path} {files : List (String × Str)}
    (h : ∀ file ∈ files, q ≠ runDir ++ [lit file.1]) :
    Keeps (fun t : FileTree => t.get? q) (writeSideFiles runDir files) := by
  induction files with
  | nil => exact Keeps.pure ()
  | cons file files ih =>
    refine Keeps.bind (Keeps.act fun t => writeText_ne (h file List.mem_cons_self)) fun _ => ?_
    exact ih fun f hf => h f (List.mem_cons_of_mem _ hf)

end Writes

section Distinct

@[simp] theorem distinct_texts (values : List Str) : (texts values).distinct = true :=
  Json.distinct_map (fun _ => rfl) values

@[simp] theorem distinct_textOrNull (value : Option Str) : (textOrNull value).distinct = true := by
  cases value <;> rfl

@[simp] theorem distinct_intOrNull (value : Option Int) :
    (ExecutionResult.intOrNull value).distinct = true := by
  cases value <;> rfl

@[simp] theorem InvariantTarget.distinct_payload (target : InvariantTarget) :
    target.payload.distinct = true :=
  Json.distinct_object (by simp) (by simp)

@[simp] theorem Finding.distinct_payload (generated : Bool) (finding : Finding) :
    (finding.payload generated).distinct = true := by
  unfold Finding.payload
  cases finding.invariantId <;> exact Json.distinct_object (by simp) (by simp)

@[simp] theorem PytestNodeResult.distinct_payload (node : PytestNodeResult) :
    node.payload.distinct = true :=
  Json.distinct_object (by simp) (by simp)

theorem ExecutionResult.distinct_nodes (result : ExecutionResult) :
    (Json.list (result.nodes.map PytestNodeResult.payload)).distinct = true :=
  Json.distinct_map PytestNodeResult.distinct_payload _

@[simp] theorem distinct_executionPayload (result : ExecutionResult) :
    (executionPayload result).distinct = true := by
  unfold executionPayload ExecutionResult.payload
  refine Json.distinct_object (by simp) ?_
  simp [result.distinct_nodes, Json.distinct_map (fun s => Json.distinct_str s)]

theorem distinct_reportPayload (caseId : Str) (input : ScanInput) (analysis : Analysis)
    (result : LLMResult) : (reportPayload caseId input analysis result).distinct = true := by
  have findings := Json.distinct_map (Finding.distinct_payload analysis.generates) analysis.findings
  unfold reportPayload
  cases analysis.extension with
  | baseline => exact Json.distinct_object (by simp [ReportExtension.fields]) (by simp [findings,
      ReportExtension.fields])
  | contract invariants sha256 =>
    have targets := Json.distinct_map InvariantTarget.distinct_payload invariants
    refine Json.distinct_object (by simp [ReportExtension.fields, contractFields]) ?_
    simp [findings, targets, ReportExtension.fields, contractFields]
  | stateful invariants sha256 signal =>
    have targets := Json.distinct_map InvariantTarget.distinct_payload invariants
    refine Json.distinct_object (by simp [ReportExtension.fields, contractFields]) ?_
    simp [findings, targets, ReportExtension.fields, contractFields]

end Distinct

section Errors

variable {t t' : FileTree} {p : Path} {e : PyError}

def PyError.provider? : PyError → Option ProviderError
  | .provider e => some e
  | _ => none

theorem openable_error (h : t.openable p = .error e) : e.provider? = none := by
  unfold FileTree.openable at h
  split_ifs at h <;> cases h <;> rfl

theorem mkdir_error {existOk : Bool} (h : (Disk.mkdir existOk p).Fails t e t') :
    e.provider? = none := by
  have failed := congrArg Prod.snd (fails_act.mp h)
  unfold FileTree.mkdir at failed
  split_ifs at failed <;> cases failed <;> rfl

theorem encodeUtf8_error {s : Str} (h : encodeUtf8 s = .error e) : e.provider? = none := by
  unfold encodeUtf8 at h
  split at h <;> cases h
  rfl

theorem writeText_error {s : Str} (h : (Disk.writeText p s).Fails t e t') : e.provider? = none := by
  have failed := congrArg Prod.snd (fails_act.mp h)
  unfold writeText at failed
  split at failed
  next e' ho =>
    cases failed
    exact openable_error ho
  next =>
    split at failed
    next => cases failed
    next e' he =>
      cases failed
      exact encodeUtf8_error he

theorem jsonDumps_error {L : Json.Layout} {payload : Json} (h : jsonDumps L payload = .error e) :
    e.provider? = none := by
  unfold jsonDumps at h
  split at h <;> cases h
  rfl

theorem writeJson_error {payload : Json} (h : (writeJson p payload).Fails t e t') :
    e.provider? = none := by
  rcases fails_bind.mp h with h | ⟨s, _, -, h⟩
  · exact jsonDumps_error (fails_lift.mp h).1
  · exact writeText_error h

theorem writeSideFiles_error {runDir : Path} {files : List (String × Str)}
    (h : (writeSideFiles runDir files).Fails t e t') : e.provider? = none := by
  induction files generalizing t with
  | nil => exact absurd h fails_pure
  | cons file files ih =>
    rcases fails_bind.mp h with h | ⟨_, _, -, h⟩
    · exact writeText_error h
    · exact ih h

/-- An error of the provider that a scan ends with is the one its answer came with. -/
theorem scan_error {outputRoot : Path} {caseId : Str} {input : ScanInput} {error : ProviderError}
    (h : (scan outputRoot caseId input).Fails t (.provider error) t') :
    input.response = .error (.provider error) := by
  have wrong : ∀ {P : Prop}, (PyError.provider error).provider? = none → P := by
    rintro P ⟨⟩
  rcases fails_bind.mp h with h | ⟨_, _, -, h⟩
  · exact wrong (mkdir_error h)
  rcases fails_bind.mp h with h | ⟨⟨analysis, result⟩, _, -, h⟩
  · exact (fails_lift.mp h).1
  rcases fails_bind.mp h with h | ⟨_, _, -, h⟩
  · unfold writeGeneratedTest at h
    split at h
    · exact wrong (writeText_error h)
    · exact absurd h fails_pure
  rcases fails_bind.mp h with h | ⟨_, _, -, h⟩
  · exact wrong (writeJson_error h)
  rcases fails_bind.mp h with h | ⟨_, _, -, h⟩
  · exact wrong (writeSideFiles_error h)
  · exact absurd h fails_pure

end Errors

section Scan

variable {outputRoot : Path} {caseId : Str} {input : ScanInput} {t t' : FileTree} {runDir : Path}

def reportPath (runDir : Path) : Path :=
  runDir ++ [lit "report.json"]

def generatedTestPath (runDir : Path) : Path :=
  runDir ++ [lit "generated_tests", testFileName]

theorem sideFile_names (extension : ReportExtension) (files : SideFiles) :
    ∀ file ∈ sideFiles extension files, file.1 ≠ "report.json" := by
  cases extension <;> simp [sideFiles, ReportExtension.artifacts]

/-- A scan that succeeds leaves its report and, where the model wrote one, its test. -/
theorem scan_returns (h : (scan outputRoot caseId input).Returns t runDir t') :
    ∃ analysis result, input.response = .ok (analysis, result) ∧
      runDir = outputRoot ++ [input.runId.text] ∧
      (∃ bytes, Prints (reportPayload caseId input analysis result) bytes ∧
        t'.get? (reportPath runDir) = some (.file bytes)) ∧
      (analysis.generates = true → ∃ bytes, utf8Encode analysis.generatedTestCode = some bytes ∧
        t'.get? (generatedTestPath runDir) = some (.file bytes)) := by
  obtain ⟨_, made, -, h⟩ := returns_bind.mp h
  obtain ⟨⟨analysis, result⟩, _, answered, h⟩ := returns_bind.mp h
  obtain ⟨response, rfl⟩ := returns_lift.mp answered
  obtain ⟨_, tested, wrote, h⟩ := returns_bind.mp h
  obtain ⟨_, reported, report, h⟩ := returns_bind.mp h
  obtain ⟨_, _, sides, last⟩ := returns_bind.mp h
  obtain ⟨rfl, rfl⟩ := returns_pure.mp last
  obtain ⟨-, bytes, printed, rfl⟩ := writeJson_returns.mp report
  have names := sideFile_names analysis.extension input.files
  refine ⟨analysis, result, response, rfl, ⟨bytes, printed, ?_⟩, fun generates => ?_⟩
  · have kept := sides.keeps (writeSideFiles_keeps
      (q := reportPath (outputRoot ++ [input.runId.text])) fun file hf he => by
        have name : lit "report.json" = lit file.1 := by simpa [reportPath] using he
        exact names file hf (lit_inj.mp name).symm)
    exact kept.trans (Dict.get?_set_self _ _ _)
  · rw [writeGeneratedTest, if_pos generates] at wrote
    obtain ⟨-, code, encoded, rfl⟩ := writeText_returns.mp wrote
    refine ⟨code, encoded, ?_⟩
    have kept := sides.keeps (writeSideFiles_keeps
      (q := generatedTestPath (outputRoot ++ [input.runId.text])) fun file hf he => by
        simpa [generatedTestPath] using congrArg List.length he)
    refine kept.trans ?_
    have other : generatedTestPath (outputRoot ++ [input.runId.text]) ≠
        outputRoot ++ [input.runId.text] ++ [lit "report.json"] := by
      intro he
      simpa [generatedTestPath] using congrArg List.length he
    change (Dict.set _ _ _).get? _ = _
    rw [Dict.get?_set_ne other]
    simp [generatedTestPath]

theorem isDir_of_openable {p : Path} (h : t.openable p = .ok ()) : t.isDir p.dropLast = true := by
  unfold FileTree.openable at h
  split_ifs at h with hd hp
  exact hp

/-- The directory of a run is there after its scan. -/
theorem scan_isDir (h : (scan outputRoot caseId input).Returns t runDir t') :
    t'.isDir runDir = true := by
  obtain ⟨_, made, -, h⟩ := returns_bind.mp h
  obtain ⟨⟨analysis, result⟩, _, answered, h⟩ := returns_bind.mp h
  obtain ⟨_, tested, wrote, h⟩ := returns_bind.mp h
  obtain ⟨_, reported, report, h⟩ := returns_bind.mp h
  obtain ⟨_, _, sides, last⟩ := returns_bind.mp h
  obtain ⟨rfl, rfl⟩ := returns_pure.mp last
  have whole : KeepsDirs (writeJson (outputRoot ++ [input.runId.text] ++ [lit "report.json"])
      (reportPayload caseId input analysis result)) :=
    KeepsDirs.bind (KeepsDirs.inspect _) fun _ => KeepsDirs.writeText _ _
  have opened := isDir_of_openable (writeJson_returns.mp report).1
  rw [List.dropLast_concat] at opened
  have written := whole.returns report opened
  exact (writeSideFiles_dirs _ _).returns sides written

end Scan

end EdgecaseForge

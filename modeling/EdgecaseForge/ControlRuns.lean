import EdgecaseForge.CompleteSuites

namespace EdgecaseForge

open Text Effect Program Binary64

def benchSources : Preflight where
  sourceHashes := caseIds.foldl (fun hashes caseId => hashes.set caseId (Sha256.digest [])) Dict.empty
  manifest := .obj []
  manifestSha256 := lit "cd"
  covers := by decide
  decoded := rfl

/-- A call for the control case alone, whose answer is the one of a case that cannot be parsed. -/
def controlCall (resumeDir : Option Path) : SuiteCall where
  outputRoot := []
  repetitions := 1
  requestDelaySeconds := ofRat 0
  resumeDir := resumeDir
  caseIds := some [cleanControl]
  executionBackend := lit "local"
  agent := lit "baseline"
  providerName := []
  providerModel := []
  startedAt := lit "suite"
  occurredAt := []
  runnerImage := .ok ()
  preflight := .ok benchSources
  installation := ⟨.obj [], .obj [], .obj [], .obj [], .obj []⟩
  inputs := fun _ => (errorRun []).input
  sleep := .ok ()
  installed := ⟨rfl, rfl, rfl, rfl, rfl⟩

/-- The first call was interrupted between its row and its summary. -/
def interrupted : FileTree :=
  (((runFlashcartSuite .plain (controlCall none)).stages Dict.empty)[6]?).getD Dict.empty

theorem bare_empty (suiteDir : Path) : Bare suiteDir Dict.empty :=
  ⟨rfl, rfl, rfl⟩

theorem benchSources_encodable : (hashesPayload benchSources.sourceHashes).encodable = true :=
  hashesPayload_encodable (by decide)

theorem controlCall_frozen (resumeDir : Option Path) : ∃ f : Frozen,
    frozenConfig benchSources (controlCall resumeDir).installation 1 [cleanControl] (lit "local") =
      .ok f.json ∧ f.suiteId = lit "suite" ∧ f.schedule = [⟨1, cleanControl⟩] ∧
      f.config.encodable = true := by
  have artifacts : (Json.obj []).printable = true := rfl
  have covered : (fingerprintPayload benchSources (controlCall resumeDir).installation
      (lit "local")).encodable = true := by
    have manifest : benchSources.manifestSha256 = lit "cd" := rfl
    simp [fingerprintPayload, controlCall, Json.encodable_object, isUnicode_lit, benchmarkVersion,
      benchSources_encodable, manifest]
    decide
  obtain ⟨json, sourceTree, fingerprint, plain, plain', made, shape⟩ := frozenConfig_total 1
    [cleanControl] artifacts (Json.encodable_printable covered)
  refine ⟨⟨benchSources, (controlCall resumeDir).installation, 1, [cleanControl], lit "local",
    lit "suite", json, made, ⟨some [cleanControl], rfl⟩, (controlCall resumeDir).installed⟩, made,
    rfl, rfl, ?_⟩
  have manifest : benchSources.manifestSha256 = lit "cd" := rfl
  simp [Frozen.config, suiteConfig, shape, Json.encodable_object, isUnicode_lit, benchmarkVersion,
    benchSources_encodable, plain, plain', controlCall, manifest]
  decide

/-- The row of the control case, whose answer could not be parsed. -/
def controlRow : Json :=
  modelOutputError ⟨1, cleanControl⟩ (Sha256.digest []) (Sha256.digest [])
    { kind := .responseParse
      message := lit "not JSON"
      modelResponseExcerpts := [[]] }

theorem controlRow_encodable : controlRow.encodable = true := by
  simp [controlRow, modelOutputError, rowHead, untestedFields, Json.encodable_object,
    isUnicode_lit]
  decide

/-- The tree with the directory of the suite alone. -/
def startedDir : FileTree :=
  Dict.empty.set [lit "suite"] .dir

theorem startedDir_isFile (q : Path) : startedDir.isFile q = false := by
  by_cases same : q = [lit "suite"]
  · rw [FileTree.isFile, same, startedDir, Dict.get?_set_self]
  · rw [FileTree.isFile, startedDir, Dict.get?_set_ne same]
    rfl

/-- The first call gets as far as its first case. -/
theorem controlCall_opened {f : Frozen} (id : f.suiteId = lit "suite")
    (encodable : f.config.encodable = true) : ∃ t,
    Program.Ran (openSuite (controlCall none) f.json) Dict.empty [.wrote, .wrote, .wrote] t
      (.ok ⟨[lit "suite"], .str (lit "suite"), "suite_started"⟩) ∧
    ∀ q, q ≠ configPath [lit "suite"] → q ≠ temporaryPath (configPath [lit "suite"]) →
      t.get? q = startedDir.get? q := by
  have there : startedDir.isDir [lit "suite"] = true := by decide
  have made : FileTree.mkdir false [lit "suite"] Dict.empty = (startedDir, .ok ()) := rfl
  have again : FileTree.mkdir true [lit "suite"] startedDir = (startedDir, .ok ()) := rfl
  have dumped : jsonDumps Json.indented f.config = .ok (Json.encode Json.indented 0 f.config) :=
    jsonDumps_eq_ok.mpr ⟨Json.encodable_printable encodable, rfl⟩
  have unicode : isUnicode (Json.encode Json.indented 0 f.config ++ [lineFeed]) = true :=
    isUnicode_append (Json.encode_indented_isUnicode encodable) (by decide)
  obtain ⟨t, replaced⟩ : ∃ t, replaceText (configPath [lit "suite"])
      (Json.encode Json.indented 0 f.config ++ [lineFeed]) startedDir = (t, .ok ()) :=
    replaceText_total there (by decide) (by decide) unicode
  have first : Program.Ran (Disk.mkdir false [lit "suite"]) Dict.empty [.wrote] startedDir (.ok ()) :=
    Program.Ran.of_act made
  have second : Program.Ran (Disk.mkdir true [lit "suite"]) startedDir [.wrote] startedDir (.ok ()) :=
    Program.Ran.of_act again
  have third : Program.Ran (Disk.write (replaceText (configPath [lit "suite"])
      (Json.encode Json.indented 0 f.config ++ [lineFeed]))) startedDir [.wrote] t (.ok ()) :=
    Program.Ran.of_act replaced
  have lifted : Program.Ran (Program.lift (jsonDumps Json.indented f.config) : Disk Str) startedDir []
      startedDir (.ok (Json.encode Json.indented 0 f.config)) := dumped ▸ Program.Ran.lift
  have config : suiteConfig (.str (lit "suite")) f.json = f.config := by rw [Frozen.config, id]
  have wrote : Program.Ran (writeJsonAtomic (configPath [lit "suite"]) f.config) startedDir
      [.wrote, .wrote] t (.ok ()) := by
    have above : (configPath [lit "suite"]).dropLast = [lit "suite"] := rfl
    rw [writeJsonAtomic, above]
    exact second.bind (lifted.quiet_bind third)
  refine ⟨t, ?_, fun q hc ht => ?_⟩
  · rw [← config] at wrote
    have opens : openSuite (controlCall none) f.json = startSuite (controlCall none) f.json := rfl
    have directory : freshDir (controlCall none) = [lit "suite"] := rfl
    have started : (controlCall none).startedAt = lit "suite" := rfl
    rw [opens, startSuite, directory, started]
    exact first.bind (wrote.bind_quiet Program.Ran.pure)
  · have same : (replaceText (configPath [lit "suite"])
        (Json.encode Json.indented 0 f.config ++ [lineFeed]) startedDir).1.get? q =
          startedDir.get? q := replaceText_ne hc ht
    rwa [replaced] at same

/-- Its case leaves a row, and a directory beside the files of the suite. -/
theorem controlCall_case {t : FileTree} (hashes : Dict Str Sha256.Digest)
    (sourced : hashes.get? cleanControl = some (Sha256.digest []))
    (free : ∀ q ∈ ([lit "suite"] ++ runFolder ⟨1, cleanControl⟩ (errorRun []).input ++
      [lit "generated_tests"]).inits, t.isFile q = false) 
    (new : t.isDir ([lit "suite"] ++ runFolder ⟨1, cleanControl⟩ (errorRun []).input ++
      [lit "generated_tests"]) = false) :
    ∃ t', Program.Ran (runCase ⟨[lit "suite"], hashes, lit "cd"⟩ ⟨1, cleanControl⟩ .null (errorRun []).input)
      t [.wrote] t' (.ok controlRow) := by
  obtain ⟨made, hm⟩ : ∃ t', FileTree.mkdir false ([lit "suite"] ++
      runFolder ⟨1, cleanControl⟩ (errorRun []).input ++ [lit "generated_tests"]) t =
        (t', .ok ()) := by
    have file := free _ (List.mem_inits _ _ |>.mpr (List.prefix_refl _))
    have above : List.any _ t.isFile = false := List.any_eq_false.mpr fun q hq => by
      rw [free q hq]
      exact Bool.false_ne_true
    rw [FileTree.mkdir, if_neg (by rw [new]; exact Bool.false_ne_true),
      if_neg (by rw [file]; exact Bool.false_ne_true),
      if_neg (by rw [above]; exact Bool.false_ne_true)]
    exact ⟨_, rfl⟩
  refine ⟨made, ?_⟩
  have mkdir : Program.Ran (Disk.mkdir false ([lit "suite"] ++
      runFolder ⟨1, cleanControl⟩ (errorRun []).input ++ [lit "generated_tests"])) t [.wrote] made
      (.ok ()) := Program.Ran.of_act hm
  have scanned : Program.Ran (scan ([lit "suite"] ++ caseFolder ⟨1, cleanControl⟩) cleanControl
      (errorRun []).input.scan) t [.wrote] made _ :=
    mkdir.bind (Program.Ran.bind_error Program.Ran.lift)
  have source : sourceHash ⟨[lit "suite"], hashes, lit "cd"⟩ cleanControl =
      .ok (Sha256.digest []) := by
    rw [sourceHash, sourced]
  have sourcing : Program.Ran (Program.lift (sourceHash ⟨[lit "suite"], hashes, lit "cd"⟩ cleanControl) :
      Disk Sha256.Digest) made [] made (.ok (Sha256.digest [])) := source ▸ Program.Ran.lift
  have repo : Program.Ran (Program.lift (errorRun []).input.agentRepoSha256 : Disk Sha256.Digest) t [] t
      (.ok (Sha256.digest [])) := Program.Ran.lift
  unfold runCase
  refine repo.quiet_bind ?_
  refine scanned.attempt.bind_quiet ?_
  exact sourcing.quiet_bind Program.Ran.pure

/-- The suite of the first call while it has no row. -/
structure ControlTree (f : Frozen) (t : FileTree) : Prop where
  stands : SuiteStands [lit "suite"] f [] t
  kept : ∀ q, q ≠ configPath [lit "suite"] → q ≠ temporaryPath (configPath [lit "suite"]) →
    q ≠ eventsPath [lit "suite"] → t.get? q = startedDir.get? q

theorem controlCall_started {f : Frozen} (id : f.suiteId = lit "suite")
    (encodable : f.config.encodable = true) : ∃ t,
    Program.Ran (openSuite (controlCall none) f.json) Dict.empty [.wrote, .wrote, .wrote] t
      (.ok ⟨[lit "suite"], .str (lit "suite"), "suite_started"⟩) ∧
    ControlTree f t ∧ t.get? (eventsPath [lit "suite"]) = none := by
  obtain ⟨t, opening, beside⟩ := controlCall_opened id encodable
  have same : (controlCall none).suiteDir = [lit "suite"] := rfl
  obtain ⟨⟨stands, -⟩, -⟩ :=
    (openSuite_bare same id Dict.empty (bare_empty _)).2.1 _ opening.result
  rw [opening.state] at stands
  exact ⟨t, opening, ⟨stands, fun q hc ht _ => beside q hc ht⟩, beside _ (by decide) (by decide)⟩

section Tree

variable {f : Frozen} {t : FileTree}

theorem ControlTree.absent (h : ControlTree f t) {name : Str}
    (hc : name ≠ lit "suite-config.json") (ht : name ≠ lit "suite-config.json" ++ lit ".tmp")
    (he : name ≠ lit "suite-events.jsonl") : t.get? ([lit "suite"] ++ [name]) = none := by
  rw [h.kept _ (by simpa [configPath] using hc) (by simpa [configPath, temporaryPath] using ht)
    (by simpa [eventsPath] using he)]
  exact Dict.get?_set_ne (by simp)

theorem ControlTree.announced (h : ControlTree f t)
    (events : t.get? (eventsPath [lit "suite"]) = none) : ∃ t',
    Program.Ran (appendJsonl (eventsPath [lit "suite"]) (eventPayload "suite_started" (controlCall none) 0))
      t [.wrote] t' (.ok ()) ∧
    ControlTree f t' ∧ t'.isDir (eventsPath [lit "suite"]) = false := by
  have announced : (eventPayload "suite_started" (controlCall none) 0).encodable = true := by
    simp [eventPayload, controlCall, Json.encodable_object, isUnicode_lit]
    decide
  have appended := appendLine_total h.stands.made (isDir_child events) announced
  have quiet : Keeps (suiteView [lit "suite"]) (appendJsonl (eventsPath [lit "suite"])
      (eventPayload "suite_started" (controlCall none) 0)) :=
    appendJsonl_view _ (by simp) (by simp) (by simp)
  obtain ⟨-, line, -, file⟩ := appendLine_ok appended
  refine ⟨_, ⟨rfl, rfl, appended⟩, ⟨?_, fun q hc ht he => ?_⟩, isDir_of_file file⟩
  · exact h.stands.congr (appendLine_made h.stands.made _ _) (quiet t).2
  · exact (appendLine_ne he).trans (h.kept q hc ht he)

theorem ControlTree.free (h : ControlTree f t) :
    (∀ q ∈ ([lit "suite"] ++ runFolder ⟨1, cleanControl⟩ (errorRun []).input ++
      [lit "generated_tests"]).inits, t.isFile q = false) ∧
    t.isDir ([lit "suite"] ++ runFolder ⟨1, cleanControl⟩ (errorRun []).input ++
      [lit "generated_tests"]) = false := by
  constructor
  · intro q hq
    have beside : ∀ name, name ≠ lit "agent-runs" → q ≠ [lit "suite"] ++ [name] := by
      rintro name hn rfl
      simp [runFolder, caseFolder, hn] at hq
    rw [FileTree.isFile, h.kept q (beside _ (by simp)) (beside _ (by decide)) (beside _ (by simp))]
    exact startedDir_isFile q
  · refine isDir_child ?_
    rw [h.kept _ (by decide) (by decide) (by decide)]
    exact Dict.get?_set_ne (by decide)

/-- Its case leaves a row, and the files of the suite as they were. -/
theorem ControlTree.tested (h : ControlTree f t) : ∃ t',
    Program.Ran (runCase ⟨[lit "suite"], benchSources.sourceHashes, lit "cd"⟩ ⟨1, cleanControl⟩ .null
      (errorRun []).input) t [.wrote] t' (.ok controlRow) ∧
    EntryStands ⟨[lit "suite"], benchSources.sourceHashes, lit "cd"⟩
      ⟨⟨1, cleanControl⟩, (errorRun []).input, controlRow⟩ ∧
    SuiteStands [lit "suite"] f [] t' ∧ t'.get? (ledgerPath [lit "suite"]) = none ∧
    t'.get? (summaryPath [lit "suite"]) = none ∧
    t'.isDir (eventsPath [lit "suite"]) = t.isDir (eventsPath [lit "suite"]) := by
  obtain ⟨free, new⟩ := h.free
  obtain ⟨t', tested⟩ := controlCall_case benchSources.sourceHashes rfl free new
  have returns : (runCase ⟨[lit "suite"], benchSources.sourceHashes, lit "cd"⟩ ⟨1, cleanControl⟩
      .null (errorRun []).input).Returns t controlRow t' := ⟨tested.result, tested.state⟩
  have unseen := returns.keeps (runCase_view _ _ _ _)
  have entry := (runCase_entry (by decide) rfl returns
    (Json.encodable_printable controlRow_encodable)).1
  have apart : lit "suite-events.jsonl" ≠ lit "agent-runs" := by simp
  obtain ⟨above, below⟩ := suiteFile_apart [lit "suite"] apart ⟨1, cleanControl⟩ (errorRun []).input
  have events : t'.get? (eventsPath [lit "suite"]) = t.get? (eventsPath [lit "suite"]) :=
    returns.keeps (runCase_below _ _ _ _ _ above below)
  refine ⟨t', tested, entry, ?_, ?_, ?_, by rw [FileTree.isDir, events]; rfl⟩
  · exact h.stands.congr ((runCase_tame _ _).stages returns.mem_stages h.stands.made) unseen
  · exact (congrArg (fun files => files.2.1) unseen).trans
      (h.absent (by simp) (by decide) (by simp))
  · exact (congrArg (fun files => files.2.2) unseen).trans
      (h.absent (by simp) (by decide) (by simp))

end Tree

/-- What there is of the suite of the first call where it was interrupted. -/
theorem interrupted_stands : ∃ f : Frozen,
    frozenConfig benchSources (controlCall none).installation 1 [cleanControl] (lit "local") =
      .ok f.json ∧ f.schedule = [⟨1, cleanControl⟩] ∧
    Passes (runFlashcartSuite .plain (controlCall none)) Dict.empty 6 interrupted ∧
    SuiteStands [lit "suite"] f [⟨⟨1, cleanControl⟩, (errorRun []).input, controlRow⟩]
      interrupted ∧ interrupted.get? (summaryPath [lit "suite"]) = none ∧
    interrupted.isDir (ledgerPath [lit "suite"]) = false ∧
    interrupted.isDir (eventsPath [lit "suite"]) = false := by
  obtain ⟨f, made, id, schedule, encodable⟩ := controlCall_frozen none
  obtain ⟨t, opening, tree, absent⟩ := controlCall_started id encodable
  have follows : Follows [lit "suite"] f (planOf (controlCall none) benchSources [cleanControl]
      ⟨[lit "suite"], .str (lit "suite"), "suite_started"⟩) := by
    have opened := tree.stands.opened "suite_started"
    rw [id] at opened
    exact opened.follows made
  have unrecorded : t.get? (ledgerPath [lit "suite"]) = none :=
    tree.absent (by simp) (by decide) (by simp)
  have rows := (tree.stands.readProgress follows (isDir_child unrecorded) (List.forall_mem_nil _)).mpr
    (List.forall_mem_nil _)
  obtain ⟨started, announcing, tree', announced⟩ := tree.announced absent
  obtain ⟨tested, case_, entry, stands, unwritten, unsummarised, events⟩ := tree'.tested
  have recorded := appendLine_total stands.made (isDir_child unwritten) controlRow_encodable
  have passes : Passes (runFlashcartSuite .plain (controlCall none)) Dict.empty 6
      (appendLine (ledgerPath [lit "suite"]) controlRow tested).1 := by
    have check : checkCall (controlCall none) = .ok [cleanControl] :=
      checkCall_total (by decide +kernel)
    have steps : 6 = 3 + (1 + (1 + (1 + 0))) := rfl
    rw [steps]
    refine Passes.quiet_bind (Program.Ran.of_inspect check) ?_
    refine Passes.quiet_bind (Program.Ran.of_inspect rfl) ?_
    refine Passes.quiet_bind (Program.Ran.of_inspect made) ?_
    refine Passes.bind_right opening ?_
    refine Passes.quiet_bind (Program.Ran.of_inspect rows) ?_
    refine Passes.bind_right announcing ?_
    refine Passes.quiet_bind (Program.Ran.of_inspect rfl) ?_
    refine Passes.bind_left (Passes.bind_left ?_)
    refine Passes.quiet_bind (Program.Ran.of_inspect rfl) ?_
    refine Passes.bind_right Program.Ran.mark ?_
    exact Passes.bind_right case_ (Passes.bind_left Passes.act)
  have last : interrupted = (appendLine (ledgerPath [lit "suite"]) controlRow tested).1 := by
    rw [interrupted, passes.stages, Option.getD_some]
  have next : ([] ++ [Entry.mk ⟨1, cleanControl⟩ (errorRun []).input controlRow]).map Entry.key <+:
      f.schedule := by
    rw [schedule]
    exact List.prefix_refl _
  obtain ⟨-, line, -, file⟩ := appendLine_ok recorded
  rw [last]
  refine ⟨f, made, schedule, passes, stands.append (fun _ => follows.frozen entry) next recorded,
    (appendLine_beside (by simp)).trans unsummarised, isDir_of_file file, ?_⟩
  have same : (appendLine (ledgerPath [lit "suite"]) controlRow tested).1.get?
      (eventsPath [lit "suite"]) = tested.get? (eventsPath [lit "suite"]) :=
    appendLine_beside (by simp)
  rw [FileTree.isDir, same]
  exact events.trans announced

end EdgecaseForge

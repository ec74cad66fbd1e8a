import EdgecaseForge.LedgerFile
import EdgecaseForge.OverlayPayloads
import EdgecaseForge.TransitionRuns

namespace EdgecaseForge

open Text Effect Program Transition

section Reviews

variable {decode : DecisionReader} {suiteDir decisionsPath p : Path} {t t' : FileTree}

theorem readSuite_distinct {suite : RawSuite} (h : readSuite suiteDir t = .ok suite) :
    suite.config.config.distinct = true ∧ suite.rawSummary.distinct = true := by
  obtain ⟨config, configured, h⟩ := Except.bind_eq_ok.mp h
  obtain ⟨_, -, h⟩ := Except.bind_eq_ok.mp h
  obtain ⟨_, -, h⟩ := Except.bind_eq_ok.mp h
  obtain ⟨_, -, h⟩ := Except.bind_eq_ok.mp h
  obtain ⟨raw, summarised, h⟩ := Except.bind_eq_ok.mp h
  obtain ⟨_, -, h⟩ := Except.bind_eq_ok.mp h
  obtain ⟨_, -, h⟩ := Except.bind_eq_ok.mp h
  obtain ⟨_, -, h⟩ := Except.bind_eq_ok.mp h
  cases h
  refine ⟨?_, readJson_distinct (readObject_ok summarised).1⟩
  obtain ⟨object, read, h⟩ := Except.bind_eq_ok.mp configured
  obtain ⟨_, -, h⟩ := Except.bind_eq_ok.mp h
  obtain ⟨_, -, h⟩ := Except.bind_eq_ok.mp h
  obtain ⟨_, -, h⟩ := Except.bind_eq_ok.mp h
  obtain ⟨_, -, h⟩ := Except.bind_eq_ok.mp h
  obtain ⟨_, -, h⟩ := Except.bind_eq_ok.mp h
  split at h
  next =>
    cases h
    exact readJson_distinct (readObject_ok read).1
  next => cases h

theorem reviewSuite_suite {review : Review}
    (h : reviewSuite decode suiteDir decisionsPath t = .ok review) :
    readSuite suiteDir t = .ok review.suite := by
  obtain ⟨_, -, h⟩ := Except.bind_eq_ok.mp h
  obtain ⟨suite, read, h⟩ := Except.bind_eq_ok.mp h
  obtain ⟨_, -, h⟩ := Except.bind_eq_ok.mp h
  obtain ⟨_, -, h⟩ := Except.bind_eq_ok.mp h
  obtain ⟨_, -, h⟩ := Except.bind_eq_ok.mp h
  obtain ⟨_, -, h⟩ := Except.bind_eq_ok.mp h
  obtain ⟨_, -, h⟩ := Except.bind_eq_ok.mp h
  cases h
  exact read

end Reviews

section Calls

variable {decode : DecisionReader} {suiteDir decisionsPath : Path} {t t' t'' : FileTree}

theorem writeOnce_adjudication_keeps (payload : Json) :
    Keeps (fun t : FileTree => t.get? (adjudicatedPath suiteDir))
      (writeOnce suiteDir adjudicationName payload) :=
  writeOnce_keeps (by decide) (by decide)

theorem writeOnce_summary_keeps (payload : Json) :
    Keeps (fun t : FileTree => t.get? (adjudicationPath suiteDir))
      (writeOnce suiteDir adjudicatedName payload) :=
  writeOnce_keeps (by decide) (by decide)

/-- What a call that returns has read, and what it leaves in the two files. -/
structure Adjudicated (decode : DecisionReader) (suiteDir decisionsPath : Path)
    (t t' : FileTree) (review : Review) (sha256 : Str) (summary : Json) : Prop where
  reviewed : reviewSuite decode suiteDir decisionsPath t = .ok review
  hashed : jsonSha256 review.adjudication.payload = .ok sha256
  built : buildAdjudicatedSummary review sha256 = .ok summary
  adjudication : Holds suiteDir adjudicationName review.adjudication.payload t'
  summary : Holds suiteDir adjudicatedName summary t'

/-- What a call that returns has read and written. -/
theorem adjudicateSuite_writes {paths : Path × Path}
    (h : (adjudicateSuite decode suiteDir decisionsPath).Returns t paths t') :
    ∃ review sha256 summary middle,
      paths = (adjudicationPath suiteDir, adjudicatedPath suiteDir) ∧
      reviewSuite decode suiteDir decisionsPath t = .ok review ∧
      jsonSha256 review.adjudication.payload = .ok sha256 ∧
      buildAdjudicatedSummary review sha256 = .ok summary ∧
      (writeOnce suiteDir adjudicationName review.adjudication.payload).Returns t () middle ∧
      (writeOnce suiteDir adjudicatedName summary).Returns middle () t' := by
  obtain ⟨review, _, hr, h⟩ := returns_bind.mp h
  obtain ⟨reviewed, rfl⟩ := returns_inspect.mp hr
  obtain ⟨_, middle, first, h⟩ := returns_bind.mp h
  obtain ⟨sha256, _, hs, h⟩ := returns_bind.mp h
  obtain ⟨hashed, rfl⟩ := returns_lift.mp hs
  obtain ⟨summary, _, hb, h⟩ := returns_bind.mp h
  obtain ⟨built, rfl⟩ := returns_lift.mp hb
  obtain ⟨_, last, second, h⟩ := returns_bind.mp h
  obtain ⟨rfl, rfl⟩ := returns_pure.mp h
  exact ⟨review, sha256, summary, middle, rfl, reviewed, hashed, built, first, second⟩

theorem adjudicateSuite_returns {paths : Path × Path}
    (h : (adjudicateSuite decode suiteDir decisionsPath).Returns t paths t') :
    paths = (adjudicationPath suiteDir, adjudicatedPath suiteDir) ∧
      ∃ review sha256 summary,
        Adjudicated decode suiteDir decisionsPath t t' review sha256 summary := by
  obtain ⟨review, sha256, summary, middle, rfl, reviewed, hashed, built, first, second⟩ :=
    adjudicateSuite_writes h
  obtain ⟨config, raw⟩ := readSuite_distinct (reviewSuite_suite reviewed)
  obtain ⟨_, -, -, -, -, -, isObj, -⟩ := buildAdjudicatedSummary_ok built
  have adjudication : Holds suiteDir adjudicationName review.adjudication.payload middle :=
    writeOnce_returns (suiteAdjudication_payload_distinct _) (Json.isObj_object _) first
  have kept := Returns.keeps (writeOnce_summary_keeps summary) second
  exact ⟨rfl, review, sha256, summary, reviewed, hashed, built, adjudication.of_get? kept,
    writeOnce_returns (buildAdjudicatedSummary_distinct config raw built) isObj second⟩

/-- The temporary files of the overlays that a call has still to write. -/
def Scratch (suiteDir : Path) (t : FileTree) (q : Path) : Prop :=
  q = temporaryPath (adjudicationPath suiteDir) ∧ t.get? (adjudicationPath suiteDir) = none ∨
    q = temporaryPath (adjudicatedPath suiteDir) ∧ t.get? (adjudicatedPath suiteDir) = none

/-- A call that returns leaves everything that was there, except for its own temporary files. -/
theorem adjudicateSuite_kept {paths : Path × Path} {q : Path} {node : Node}
    (h : (adjudicateSuite decode suiteDir decisionsPath).Returns t paths t')
    (hq : t.get? q = some node) (scratch : ¬ Scratch suiteDir t q) : t'.get? q = some node := by
  obtain ⟨_, _, _, middle, -, -, -, -, first, second⟩ := adjudicateSuite_writes h
  rw [Scratch, not_or, not_and', not_and'] at scratch
  have same := Returns.keeps (writeOnce_adjudication_keeps _) first
  refine writeOnce_kept second (writeOnce_kept first hq scratch.1) fun absent => ?_
  exact scratch.2 (same.symm.trans absent)

theorem adjudicateSuite_erased {paths : Path × Path} {q : Path}
    (h : (adjudicateSuite decode suiteDir decisionsPath).Returns t paths t')
    (scratch : Scratch suiteDir t q) : t'.get? q = none := by
  obtain ⟨_, _, summary, middle, -, -, -, -, first, second⟩ := adjudicateSuite_writes h
  rcases scratch with ⟨rfl, absent⟩ | ⟨rfl, absent⟩
  · have kept : Keeps (fun t : FileTree => t.get? (suiteDir ++ [adjudicationName ++ lit ".tmp"]))
        (writeOnce suiteDir adjudicatedName summary) := writeOnce_keeps (by decide) (by decide)
    have temporary : temporaryPath (adjudicationPath suiteDir) =
        suiteDir ++ [adjudicationName ++ lit ".tmp"] := temporaryPath_child _ _
    have erased := writeOnce_erased first absent
    rw [← adjudicationPath, temporary] at erased
    rw [temporary]
    exact (Returns.keeps kept second).trans erased
  · have same := Returns.keeps (writeOnce_adjudication_keeps _) first
    exact writeOnce_erased second (same.trans absent)

/-- A call is repeated without an effect where its inputs read the same. -/
theorem adjudicateSuite_again {review : Review} {sha256 : Str} {summary : Json}
    (h : Adjudicated decode suiteDir decisionsPath t t' review sha256 summary)
    (adjudication : t''.get? (adjudicationPath suiteDir) = t'.get? (adjudicationPath suiteDir))
    (adjudicated : t''.get? (adjudicatedPath suiteDir) = t'.get? (adjudicatedPath suiteDir))
    (inputs : reviewSuite decode suiteDir decisionsPath t'' =
      reviewSuite decode suiteDir decisionsPath t) :
    Program.Ran (adjudicateSuite decode suiteDir decisionsPath) t'' [] t''
      (.ok (adjudicationPath suiteDir, adjudicatedPath suiteDir)) := by
  have first := writeOnce_holds (h.adjudication.of_get? adjudication)
  have second := writeOnce_holds (h.summary.of_get? adjudicated)
  have read : Program.Ran (Disk.read (reviewSuite decode suiteDir decisionsPath)) t'' [] t''
      (.ok review) := by
    rw [← h.reviewed, ← inputs]
    exact Program.Ran.inspect
  refine read.quiet_bind (first.quiet_bind ?_)
  rw [h.hashed]
  refine Program.Ran.lift_bind ?_
  rw [h.built]
  exact Program.Ran.lift_bind (second.quiet_bind Program.Ran.pure)

/-- A reviewed suite without overlays is adjudicated, if what is written of it has a text. -/
theorem adjudicateSuite_total {review : Review} (reviewed : reviewSuite decode suiteDir decisionsPath t = .ok review)
    (payload : review.adjudication.payload.encodable = true)
    (built : ∀ sha256, isUnicode sha256 = true → ∃ summary, buildAdjudicatedSummary review sha256 = .ok summary ∧
      summary.encodable = true) (there : t.get? suiteDir = some .dir)
    (fresh : ∀ name ∈ [adjudicationName, adjudicationName ++ lit ".tmp", adjudicatedName,
      adjudicatedName ++ lit ".tmp"], t.get? (suiteDir ++ [name]) = none) :
    ∃ t', (adjudicateSuite decode suiteDir decisionsPath).Returns t
      (adjudicationPath suiteDir, adjudicatedPath suiteDir) t' := by
  simp only [List.forall_mem_cons] at fresh
  obtain ⟨adjudication, adjudicationScratch, adjudicated, adjudicatedScratch, -⟩ := fresh
  have read : (Disk.read (reviewSuite decode suiteDir decisionsPath)).Returns t review t :=
    returns_inspect.mpr ⟨reviewed, rfl⟩
  obtain ⟨middle, first⟩ := writeOnce_total (isDir_of_get? there) adjudication adjudicationScratch payload
  obtain ⟨sha256, hashed, unicode⟩ := exists_jsonSha256 (Json.encodable_printable payload)
  obtain ⟨summary, made, encodable⟩ := built sha256 unicode
  have still := writeOnce_directory first there
  have free : middle.get? (suiteDir ++ [adjudicatedName]) = none :=
    (Returns.keeps (writeOnce_adjudication_keeps _) first).trans adjudicated
  have kept : Keeps (fun t : FileTree => t.get? (suiteDir ++ [adjudicatedName ++ lit ".tmp"]))
      (writeOnce suiteDir adjudicationName review.adjudication.payload) := writeOnce_keeps (by decide) (by decide)
  have scratch : middle.get? (suiteDir ++ [adjudicatedName ++ lit ".tmp"]) = none :=
    (Returns.keeps kept first).trans adjudicatedScratch
  obtain ⟨t', second⟩ := writeOnce_total (isDir_of_get? still) free scratch encodable
  refine ⟨t', returns_bind.mpr ⟨review, t, read, returns_bind.mpr ⟨(), middle, first, ?_⟩⟩⟩
  refine returns_bind.mpr ⟨sha256, middle, returns_lift.mpr ⟨hashed, rfl⟩, ?_⟩
  refine returns_bind.mpr ⟨summary, middle, returns_lift.mpr ⟨made, rfl⟩, ?_⟩
  exact returns_bind.mpr ⟨(), t', second, returns_pure.mpr ⟨rfl, rfl⟩⟩

end Calls

section Runs

variable {decode : DecisionReader} {suiteDir decisionsPath : Path} {t t' : FileTree}

/-- A summary records the adjudication that it is of, and what that decides. -/
structure Summarises (adjudication summary : Json) : Prop where
  sha256 : ∃ sha256, jsonSha256 adjudication = .ok sha256 ∧
    summary.get? (lit "adjudication_sha256") = some (.str sha256)
  confirmed : summary.get? (lit "confirmed_kills") =
    some (.int (decisionsOf adjudication .confirmed))
  rejected : summary.get? (lit "rejected_candidate_kills") =
    some (.int (decisionsOf adjudication .rejected))

/-- There is neither file, or the adjudication, or the adjudication and a summary of it. -/
inductive Coherent (suiteDir : Path) (t : FileTree) : Prop
  | neither (adjudication : t.get? (adjudicationPath suiteDir) = none)
      (summary : t.get? (adjudicatedPath suiteDir) = none)
  | adjudicated (adjudication : SuiteAdjudication)
      (written : Written (adjudicationPath suiteDir) adjudication.payload t)
      (summary : t.get? (adjudicatedPath suiteDir) = none)
  | summarised (adjudication : SuiteAdjudication)
      (written : Written (adjudicationPath suiteDir) adjudication.payload t) (summary : Json)
      (also_ : Written (adjudicatedPath suiteDir) summary t)
      (summarises : Summarises adjudication.payload summary)

theorem coherent_congr (h : Coherent suiteDir t)
    (adjudication : t'.get? (adjudicationPath suiteDir) = t.get? (adjudicationPath suiteDir))
    (summary : t'.get? (adjudicatedPath suiteDir) = t.get? (adjudicatedPath suiteDir)) :
    Coherent suiteDir t' := by
  cases h with
  | neither h h' => exact .neither (adjudication.trans h) (summary.trans h')
  | adjudicated adj written h' =>
    exact .adjudicated adj (written.of_get? adjudication) (summary.trans h')
  | summarised adj written sum also_ summarises =>
    exact .summarised adj (written.of_get? adjudication) sum (also_.of_get? summary) summarises

/-- An adjudication that a coherent directory holds is the one that is written there. -/
theorem coherent_holds (h : Coherent suiteDir t) {adjudication : SuiteAdjudication}
    (holds : Holds suiteDir adjudicationName adjudication.payload t) :
    Written (adjudicationPath suiteDir) adjudication.payload t := by
  obtain ⟨existing, read, equal⟩ := holds
  have found := (readObject_ok read).1
  have same : ∀ adj : SuiteAdjudication, Written (adjudicationPath suiteDir) adj.payload t →
      Written (adjudicationPath suiteDir) adjudication.payload t := by
    intro adj written
    have content := written.readJson
    rw [adjudicationPath, found] at content
    cases content
    rwa [← suiteAdjudication_payload_inj equal]
  cases h with
  | neither h _ =>
    obtain ⟨_, file⟩ := get?_of_readJson found
    rw [← adjudicationPath, h] at file
    cases file
  | adjudicated adj written _ => exact same adj written
  | summarised adj written _ _ _ => exact same adj written

theorem summarises_built {review : Review} {sha256 : Str} {summary : Json}
    (hashed : jsonSha256 review.adjudication.payload = .ok sha256)
    (built : buildAdjudicatedSummary review sha256 = .ok summary) :
    Summarises review.adjudication.payload summary := by
  obtain ⟨_, -, -, sha, confirmed, rejected, -⟩ := buildAdjudicatedSummary_ok built
  have kills : review.adjudication.decisions.filter CaseDecision.confirmedKill =
      review.adjudication.decisions.filter fun d => d.decision = .confirmed := rfl
  refine ⟨⟨sha256, hashed, sha⟩, ?_, ?_⟩
  · rw [confirmed, decisionsOf_payload, kills]
  · have split := List.length_eq_length_filter_add
      (fun d : CaseDecision => decide (d.decision = .confirmed)) (l := review.adjudication.decisions)
    have others : (review.adjudication.decisions.filter fun d => !decide (d.decision = .confirmed)) =
        review.adjudication.decisions.filter fun d => d.decision = .rejected := by
      refine List.filter_congr fun d _ => ?_
      cases d.decision <;> rfl
    have count : review.adjudication.decisions.length - (review.adjudication.decisions.filter
        fun d => decide (d.decision = .confirmed)).length =
        (review.adjudication.decisions.filter fun d => d.decision = .rejected).length := by
      rw [← others]
      omega
    rw [rejected, decisionsOf_payload, kills, count]

/-- Wherever a call stops, the two files agree, and a file that was there is as it was. -/
theorem adjudicateSuite_stages (h : Coherent suiteDir t)
    (hs : t' ∈ (adjudicateSuite decode suiteDir decisionsPath).stages t) :
    Coherent suiteDir t' ∧ ∀ node, t.get? (adjudicationPath suiteDir) = some node →
      t'.get? (adjudicationPath suiteDir) = some node := by
  have stay : ∀ {middle : FileTree}, middle.get? (adjudicationPath suiteDir) =
      t.get? (adjudicationPath suiteDir) ∨ t.get? (adjudicationPath suiteDir) = none →
      ∀ node, t.get? (adjudicationPath suiteDir) = some node →
        middle.get? (adjudicationPath suiteDir) = some node := by
    rintro middle (same | absent) node there
    · exact same.trans there
    · rw [absent] at there
      cases there
  rcases mem_stages_bind hs with hs | ⟨review, _, hr, hs⟩
  · rw [List.mem_singleton.mp hs]
    exact ⟨h, fun _ there => there⟩
  obtain ⟨reviewed, rfl⟩ := returns_inspect.mp hr
  -- the adjudication is written, or stays as it is
  have distinct := suiteAdjudication_payload_distinct review.adjudication
  have first : ∀ {middle : FileTree},
      middle ∈ (writeOnce suiteDir adjudicationName review.adjudication.payload).stages t →
      Coherent suiteDir middle ∧ (middle.get? (adjudicationPath suiteDir) =
        t.get? (adjudicationPath suiteDir) ∨ t.get? (adjudicationPath suiteDir) = none) := by
    intro middle hm
    have kept := Keeps.stages (writeOnce_adjudication_keeps _) hm
    rcases writeOnce_stages distinct hm with same | ⟨absent, written⟩
    · exact ⟨coherent_congr h same kept, Or.inl same⟩
    · refine ⟨.adjudicated _ written (kept.trans ?_), Or.inr absent⟩
      cases h with
      | neither _ h' => exact h'
      | adjudicated _ _ h' => exact h'
      | summarised adj there _ _ _ =>
        obtain ⟨_, -, file⟩ := there.file
        rw [adjudicationPath, absent] at file
        cases file
  rcases mem_stages_bind hs with hs | ⟨_, middle, hm, hs⟩
  · exact ⟨(first hs).1, stay (first hs).2⟩
  obtain ⟨coherent, before⟩ := first hm.mem_stages
  have written := coherent_holds coherent (writeOnce_returns distinct (Json.isObj_object _) hm)
  rcases mem_stages_bind hs with hs | ⟨sha256, _, hh, hs⟩
  · rw [List.mem_singleton.mp hs]
    exact ⟨coherent, stay before⟩
  obtain ⟨hashed, rfl⟩ := returns_lift.mp hh
  rcases mem_stages_bind hs with hs | ⟨summary, _, hb, hs⟩
  · rw [List.mem_singleton.mp hs]
    exact ⟨coherent, stay before⟩
  obtain ⟨built, rfl⟩ := returns_lift.mp hb
  -- the summary is of the adjudication that is there
  obtain ⟨config, raw⟩ := readSuite_distinct (reviewSuite_suite reviewed)
  have second : ∀ {last : FileTree}, last ∈ (writeOnce suiteDir adjudicatedName summary).stages middle →
      Coherent suiteDir last ∧ last.get? (adjudicationPath suiteDir) =
        middle.get? (adjudicationPath suiteDir) := by
    intro last hl
    have kept := Keeps.stages (writeOnce_summary_keeps summary) hl
    rcases writeOnce_stages (buildAdjudicatedSummary_distinct config raw built) hl with
      same | ⟨-, also_⟩
    · exact ⟨coherent_congr coherent kept same, kept⟩
    · exact ⟨.summarised _ (written.of_get? kept) _ also_ (summarises_built hashed built), kept⟩
  have after : t' ∈ (writeOnce suiteDir adjudicatedName summary).stages middle := by
    rcases mem_stages_bind hs with hs | ⟨_, last, hl, hs⟩
    · exact hs
    · rw [List.mem_singleton.mp hs]
      exact hl.mem_stages
  obtain ⟨done, same⟩ := second after
  exact ⟨done, stay (before.imp same.trans id)⟩

/-- What happens to a suite directory: a call that gets as far as one of its stages, or any change
to anything but the two files. -/
inductive SuiteEvent
  | adjudicate (decisionsPath : Path) (stage : Nat)
  | edit (after : FileTree)

def suiteMachine (decode : DecisionReader) (suiteDir : Path) : Machine FileTree SuiteEvent where
  init t := t.get? (adjudicationPath suiteDir) = none ∧ t.get? (adjudicatedPath suiteDir) = none
  step t
    | .adjudicate decisionsPath stage =>
      ((adjudicateSuite decode suiteDir decisionsPath).stages t)[stage]?
    | .edit after =>
      if after.get? (adjudicationPath suiteDir) = t.get? (adjudicationPath suiteDir) ∧
          after.get? (adjudicatedPath suiteDir) = t.get? (adjudicatedPath suiteDir) then some after
      else none

theorem suiteMachine_step {event : SuiteEvent} (h : Coherent suiteDir t)
    (hs : (suiteMachine decode suiteDir).step t event = some t') :
    Coherent suiteDir t' ∧ ∀ node, t.get? (adjudicationPath suiteDir) = some node →
      t'.get? (adjudicationPath suiteDir) = some node := by
  cases event with
  | adjudicate decisionsPath stage =>
    exact adjudicateSuite_stages h (List.mem_of_getElem? hs)
  | edit after =>
    simp only [suiteMachine] at hs
    split at hs
    next same =>
      cases hs
      exact ⟨coherent_congr h same.1 same.2, fun _ there => same.1.trans there⟩
    next => cases hs

theorem suiteMachine_coherent (h : (suiteMachine decode suiteDir).Reachable t) :
    Coherent suiteDir t := by
  refine h.invariant (Coherent suiteDir) ?_ ?_
  · rintro s ⟨adjudication, summary⟩
    exact .neither adjudication summary
  · intro s event t' _ coherent _ hs
    exact (suiteMachine_step coherent hs).1

theorem suiteMachine_keeps {node : Node} (h : (suiteMachine decode suiteDir).Reachable t)
    (there : t.get? (adjudicationPath suiteDir) = some node)
    (later : (suiteMachine decode suiteDir).LeadsTo (fun _ _ => True) t t') :
    t'.get? (adjudicationPath suiteDir) = some node := by
  refine h.stable (fun t => t.get? (adjudicationPath suiteDir) = some node) ?_ there later
  intro s event t' reached kept _ hs
  exact (suiteMachine_step (suiteMachine_coherent reached) hs).2 node kept

/-- The adjudication of a suite never changes, a summary is of the adjudication that is there, and
a call can be repeated. -/
theorem adjudicateSuite_once (reached : (suiteMachine decode suiteDir).Reachable t) :
    (t.exists_ (adjudicationPath suiteDir) = true →
      ∃ content, readJson (adjudicationPath suiteDir) t = .ok content ∧
        ∀ t', (suiteMachine decode suiteDir).LeadsTo (fun _ _ => True) t t' →
          readJson (adjudicationPath suiteDir) t' = .ok content) ∧
    (t.exists_ (adjudicatedPath suiteDir) = true →
      ∃ content summary, readJson (adjudicationPath suiteDir) t = .ok content ∧
        readJson (adjudicatedPath suiteDir) t = .ok summary ∧ Summarises content summary) ∧
    ∀ decisionsPath paths t', (adjudicateSuite decode suiteDir decisionsPath).Returns t paths t' →
      ∀ t'', t''.get? (adjudicationPath suiteDir) = t'.get? (adjudicationPath suiteDir) →
        t''.get? (adjudicatedPath suiteDir) = t'.get? (adjudicatedPath suiteDir) →
        reviewSuite decode suiteDir decisionsPath t'' = reviewSuite decode suiteDir decisionsPath t →
        Program.Ran (adjudicateSuite decode suiteDir decisionsPath) t'' [] t'' (.ok paths) := by
  have coherent := suiteMachine_coherent reached
  refine ⟨fun present => ?_, fun present => ?_, ?_⟩
  · have fixed : ∀ adjudication : SuiteAdjudication,
        Written (adjudicationPath suiteDir) adjudication.payload t →
        ∃ content, readJson (adjudicationPath suiteDir) t = .ok content ∧
          ∀ t', (suiteMachine decode suiteDir).LeadsTo (fun _ _ => True) t t' →
            readJson (adjudicationPath suiteDir) t' = .ok content := by
      intro adjudication written
      obtain ⟨_, -, file⟩ := written.file
      exact ⟨_, written.readJson, fun t' later =>
        (written.of_get? ((suiteMachine_keeps reached file later).trans file.symm)).readJson⟩
    cases coherent with
    | neither absent _ =>
      obtain ⟨node, there⟩ := get?_of_exists (by simp [adjudicationPath]) present
      rw [absent] at there
      cases there
    | adjudicated adjudication written _ => exact fixed adjudication written
    | summarised adjudication written _ _ _ => exact fixed adjudication written
  · have absurd : ¬ t.get? (adjudicatedPath suiteDir) = none := by
      intro absent
      obtain ⟨node, there⟩ := get?_of_exists (by simp [adjudicatedPath]) present
      rw [absent] at there
      cases there
    cases coherent with
    | neither _ absent => exact (absurd absent).elim
    | adjudicated _ _ absent => exact (absurd absent).elim
    | summarised adjudication written summary also_ summarises =>
      exact ⟨_, summary, written.readJson, also_.readJson, summarises⟩
  · intro decisionsPath paths t' returned t'' adjudication adjudicated inputs
    obtain ⟨rfl, review, sha256, summary, done⟩ := adjudicateSuite_returns returned
    exact adjudicateSuite_again done adjudication adjudicated inputs

end Runs

section Small

def zeroHash : Str :=
  List.replicate 64 0x30

def zeroDigest : Sha256.Digest :=
  ⟨zeroHash, by decide, List.all_eq_true.mp (by decide)⟩

/-- A row of a case to which the model gave no usable answer. -/
def unusableRow (candidateKill : Bool) : Json :=
  .object ([("evaluation_schema_version", .str (lit "case-evaluation-v2")), ("repetition", .int 1),
    ("case_id", .str (lit "M01")), ("source_sha256", .str zeroHash),
    ("status", .str (lit "model_output_error"))] ++
    (countFields ++ secondsFields).map (fun name => (name, .int 0)) ++
    [("repair_used", .bool false), ("request_ids", .list []), ("finish_reasons", .list []),
      ("model_response_sha256", .list []), ("model_response_excerpts", .list []),
      ("test_sha256", .str zeroHash), ("differential_sha256", .str zeroHash),
      ("candidate_kill", .bool candidateKill)])

/-- The configuration of a suite of one case, on a clean repository. -/
def smallConfig : Json :=
  .object [("config_schema_version", .str (lit "suite-config-v2")), ("suite_id", .str (lit "s")),
    ("frozen", .object [("repetitions", .int 1), ("selected_cases", texts [lit "M01"]),
      ("source_hashes", .object [("M01", .str zeroHash)]),
      ("suite_fingerprint_sha256", .str zeroHash),
      ("git_state", .object [("available", .bool true), ("dirty", .bool false)])])]

/-- A summary of the suite that names no blocker. -/
def smallSummary (row : Json) : Json :=
  .object ([("suite_id", .str (lit "s")), ("status", .str (lit "complete")),
    ("cases", .list [row])] ++
    ["benchmark_version", "provider", "model", "candidate_kills", "candidate_mutation_score",
      "clean_control_claims_reported", "evaluations_with_clean_assertion_failures",
      "model_output_errors", "invalid_generated_tests", "evaluator_infrastructure_errors"].map
      fun name => (name, .null))

def AdjudicationDecision.json (decision : AdjudicationDecision) : Json :=
  .object [("repetition", .int decision.repetition), ("case_id", .str decision.caseId),
    ("test_sha256", .str decision.testSha256.text),
    ("differential_sha256", .str decision.differentialSha256.text),
    ("decision", .str decision.decision.text), ("reason", .str decision.reason)]

def AdjudicationDecisions.json (decisions : AdjudicationDecisions) : Json :=
  .object [("schema_version", .str (lit "adjudication-decisions-v1")),
    ("suite_id", .str decisions.suiteId),
    ("suite_fingerprint_sha256", .str decisions.suiteFingerprintSha256.text),
    ("reviewer", .str decisions.reviewer), ("review_policy", .str decisions.reviewPolicy),
    ("decisions", .list (decisions.decisions.map AdjudicationDecision.json))]

def smallDecisions (decisions : List AdjudicationDecision) : AdjudicationDecisions where
  suiteId := lit "s"
  suiteFingerprintSha256 := zeroDigest
  reviewer := lit "r"
  reviewPolicy := lit "p"
  decisions := decisions
  named := by decide

/-- The reader of one decision file. -/
def readerOf (decisions : AdjudicationDecisions) : DecisionReader := fun s =>
  if s = Json.encode Json.compact 0 decisions.json then some decisions else none

def textFile (s : Str) : Node :=
  .file ((utf8Encode s).getD [])

def smallDir : Path :=
  [lit "suite"]

def smallDecisionsPath : Path :=
  [lit "decisions.json"]

/-- A suite of one row with a decision file beside it. -/
def smallTree (row : Json) (decisions : AdjudicationDecisions) : FileTree :=
  ((((Dict.empty.set smallDir .dir).set (configPath smallDir)
    (textFile (Json.encode Json.compact 0 smallConfig))).set (progressPath smallDir)
    (textFile (ledgerText [row]))).set (summaryPath smallDir)
    (textFile (Json.encode Json.compact 0 (smallSummary row)))).set smallDecisionsPath
    (textFile (Json.encode Json.compact 0 decisions.json))

/-- The small suite, as it is read. -/
def smallSuite (kill : Bool) : RawSuite where
  config :=
    { config := smallConfig
      frozen := smallConfig.get (lit "frozen")
      repetitions := 1
      selectedCases := [lit "M01"]
      sourceHashes := (smallConfig.get (lit "frozen")).get (lit "source_hashes")
      fingerprint := zeroHash }
  evaluations := [unusableRow kill]
  rawSummary := smallSummary (unusableRow kill)

/-- The adjudication of the small suite, without the hashes of its sources. -/
def smallAdjudication (decisions : AdjudicationDecisions) (decided : List CaseDecision) : SuiteAdjudication where
  suiteId := decisions.suiteId
  suiteFingerprintSha256 := decisions.suiteFingerprintSha256
  reviewer := strip decisions.reviewer
  reviewPolicy := strip decisions.reviewPolicy
  sources := ⟨[], [], [], []⟩
  decisions := decided

variable {kill : Bool} {row raw : Json} {decisions : AdjudicationDecisions} {cases_ : List CaseDecision}
  {t : FileTree}

/-- The files of a tree are those of the small suite, with a summary of its own. -/
structure SmallFiles (row raw : Json) (decisions : AdjudicationDecisions) (t : FileTree) : Prop where
  config : t.get? (configPath smallDir) = some (textFile (Json.encode Json.compact 0 smallConfig))
  progress : t.get? (progressPath smallDir) = some (textFile (ledgerText [row]))
  summary : t.get? (summaryPath smallDir) = some (textFile (Json.encode Json.compact 0 raw))
  decisions : t.get? smallDecisionsPath = some (textFile (Json.encode Json.compact 0 decisions.json))

theorem smallTree_files (row : Json) (decisions : AdjudicationDecisions) :
    (smallTree row decisions).get? (configPath smallDir) =
        some (textFile (Json.encode Json.compact 0 smallConfig)) ∧
      (smallTree row decisions).get? (progressPath smallDir) = some (textFile (ledgerText [row])) ∧
      (smallTree row decisions).get? (summaryPath smallDir) =
        some (textFile (Json.encode Json.compact 0 (smallSummary row))) ∧
      (smallTree row decisions).get? smallDecisionsPath =
        some (textFile (Json.encode Json.compact 0 decisions.json)) :=
  ⟨rfl, rfl, rfl, rfl⟩

theorem smallTree_read (row : Json) (decisions : AdjudicationDecisions) :
    SmallFiles row (smallSummary row) decisions (smallTree row decisions) :=
  ⟨rfl, rfl, rfl, rfl⟩

theorem smallTree_fresh (row : Json) (decisions : AdjudicationDecisions) :
    (smallTree row decisions).get? smallDir = some .dir ∧
      ∀ name ∈ [adjudicationName, adjudicationName ++ lit ".tmp", adjudicatedName, adjudicatedName ++ lit ".tmp"],
        (smallTree row decisions).get? (smallDir ++ [name]) = none := by
  refine ⟨rfl, ?_⟩
  simp only [List.forall_mem_cons]
  exact ⟨rfl, rfl, rfl, rfl, List.forall_mem_nil _⟩

theorem smallConfig_encodable : smallConfig.encodable = true := by
  decide

theorem small_config (h : SmallFiles row raw decisions t) :
    readJson (configPath smallDir) t = .ok smallConfig := by
  have file := h.config
  rw [← List.append_nil (Json.encode _ _ _)] at file
  exact readJson_encoded (List.forall_mem_nil _) (by decide) smallConfig_encodable file

theorem smallTree_config : readJson (configPath smallDir) (smallTree row decisions) = .ok smallConfig :=
  small_config (smallTree_read row decisions)

theorem zeroHash_isUnicode : isUnicode zeroHash = true :=
  Sha256.isUnicode_of_hex zeroDigest.hex

theorem unusableRow_encodable (kill : Bool) : (unusableRow kill).encodable = true := by
  simp [unusableRow, Json.encodable_object, Json.encodable_list, isUnicode_lit, countFields, secondsFields,
    zeroHash_isUnicode]
  decide

theorem unusableRow_distinct (kill : Bool) : (unusableRow kill).distinct = true := by
  refine Json.distinct_object (by simp [countFields, secondsFields]) ?_
  simp [countFields, secondsFields]
  decide

theorem small_summary (h : SmallFiles row raw decisions t) (distinct : raw.distinct = true)
    (encodable : raw.encodable = true) : readJson (summaryPath smallDir) t = .ok raw := by
  have file := h.summary
  rw [← List.append_nil (Json.encode _ _ _)] at file
  exact readJson_encoded (List.forall_mem_nil _) distinct encodable file

/-- A summary that is accepted with the rows of the small suite. -/
structure SmallSummary (row raw : Json) : Prop where
  distinct : raw.distinct = true
  encodable : raw.encodable = true
  isObj : raw.isObj = true
  suiteId : (raw.get (lit "suite_id")).pyEq (smallConfig.get (lit "suite_id")) = true
  status : (raw.get (lit "status")).pyEq (.str (lit "complete")) = true
  cases_ : (raw.get (lit "cases")).pyEq (.list [row]) = true

theorem rows_pyEq (kill : Bool) : (Json.list [unusableRow kill]).pyEq (.list [unusableRow kill]) = true := by
  have distinct : (Json.list [unusableRow kill]).distinct = true := by
    simp [Json.distinct, Json.distinctItems, unusableRow_distinct]
  exact Json.pyEq_self distinct rfl

theorem smallSummary_accepted (kill : Bool) :
    SmallSummary (unusableRow kill) (smallSummary (unusableRow kill)) := by
  refine ⟨?_, ?_, rfl, rfl, rfl, ?_⟩
  · refine Json.distinct_object (by simp) ?_
    simp [Json.distinct, Json.distinctItems, unusableRow_distinct]
  · simp [smallSummary, Json.encodable_object, Json.encodable_list, isUnicode_lit, unusableRow_encodable]
  · have found : (smallSummary (unusableRow kill)).get (lit "cases") = .list [unusableRow kill] := by
      simp [smallSummary, List.lookup_cons]
    rw [found]
    exact rows_pyEq kill

theorem smallTree_summary (kill : Bool) (decisions : AdjudicationDecisions) :
    readJson (summaryPath smallDir) (smallTree (unusableRow kill) decisions) =
      .ok (smallSummary (unusableRow kill)) := by
  have accepted := smallSummary_accepted kill
  exact small_summary (smallTree_read _ decisions) accepted.distinct accepted.encodable

theorem unusableRow_listed (kill : Bool) :
    Listed ((smallSuite kill).config.progress smallDir) ⟨1, lit "M01"⟩ (unusableRow kill) := by
  have printable := Json.encodable_printable (unusableRow_encodable kill)
  refine ⟨rfl, unusableRow_distinct kill, printable, ?_, ?_, ?_, .str zeroHash, rfl, ?_⟩
  all_goals simp [unusableRow, List.lookup_cons]

theorem small_progress (h : SmallFiles (unusableRow kill) raw decisions t) :
    readProgress ((smallSuite kill).config.progress smallDir) (progressPath smallDir) t = .ok [unusableRow kill] := by
  have safe : (unusableRow kill).LineSafe := by
    change ∀ s ∈ (unusableRow kill).strings, Json.KeepsLine s
    cases kill <;> decide
  have holds : LedgerHolds smallDir [unusableRow kill] t := by
    have text : isUnicode (ledgerText [unusableRow kill]) = true := by
      rw [ledgerText_cons]
      exact isUnicode_append (Json.encode_compact_isUnicode (unusableRow_encodable kill)) (by decide)
    obtain ⟨bytes, encoded⟩ := exists_bytes text
    have file : t.get? (ledgerPath smallDir) = some (textFile (ledgerText [unusableRow kill])) := h.progress
    rw [textFile, encoded] at file
    rw [LedgerHolds, contentOrEmpty, file, encoded]
    rfl
  have free : t.isDir (ledgerPath smallDir) = false := isDir_of_file h.progress
  refine @readProgress_ok _ _ [(⟨1, lit "M01"⟩, unusableRow kill)] holds free ?_ ?_ ?_ ?_ ?_
  · exact List.forall_mem_singleton.mpr (unusableRow_listed kill)
  · exact List.forall_mem_singleton.mpr safe
  · exact List.forall_mem_singleton.mpr (mem_schedule.mpr ⟨⟨le_rfl, le_rfl⟩, List.mem_singleton_self _⟩)
  · exact List.nodup_singleton _
  · refine List.forall_mem_singleton.mpr fun line => ?_
    cases kill <;> rfl

theorem small_suite (h : SmallFiles (unusableRow kill) raw decisions t)
    (accepted : SmallSummary (unusableRow kill) raw) :
    readSuite smallDir t = .ok { smallSuite kill with rawSummary := raw } := by
  have config : readConfig smallDir t = .ok (smallSuite kill).config := by
    rw [readConfig, readObject_of_readJson (small_config h) rfl]
    rfl
  have observed : [unusableRow kill].mapM (observedPair (smallSuite kill).config.schedule) =
      .ok [some ⟨1, lit "M01"⟩] := by
    cases kill <;> rfl
  have complete : coversAll (smallSuite kill).config.schedule [some ⟨1, lit "M01"⟩] = true := by rfl
  have read := small_summary h accepted.distinct accepted.encodable
  have whole : (smallSuite kill).config.config = smallConfig := rfl
  rw [readSuite, config, Except.ok_bind, small_progress h, Except.ok_bind, observed, Except.ok_bind, complete,
    readObject_of_readJson read accepted.isObj, whole]
  simp only [Except.check, if_true, Except.ok_bind, accepted.suiteId, accepted.status, accepted.cases_]
  rfl

theorem smallTree_suite (kill : Bool) (decisions : AdjudicationDecisions) :
    readSuite smallDir (smallTree (unusableRow kill) decisions) = .ok (smallSuite kill) :=
  small_suite (smallTree_read _ decisions) (smallSummary_accepted kill)

/-- The small suite is reviewed as soon as its decisions decide the cases that they are on. -/
theorem small_reviewed (h : SmallFiles (unusableRow kill) raw decisions t)
    (accepted : SmallSummary (unusableRow kill) raw) (encodable : decisions.json.encodable = true)
    (suiteId : decisions.suiteId = lit "s") (fingerprint : decisions.suiteFingerprintSha256 = zeroDigest)
    (decided : decideCases (smallSuite kill).config.schedule [unusableRow kill] decisions.decisions = .ok cases_) :
    ∃ sources : SourceHashes, sources.Unicode ∧
      reviewSuite (readerOf decisions) smallDir smallDecisionsPath t =
        .ok ⟨{ smallSuite kill with rawSummary := raw }, { smallAdjudication decisions cases_ with sources }⟩ := by
  obtain ⟨config, progress, summary, file⟩ := h
  have required : requireFiles t
      [configPath smallDir, progressPath smallDir, summaryPath smallDir, smallDecisionsPath] = .ok () := by
    simp only [requireFiles, FileTree.isFile, config, progress, summary, file, textFile]
    rfl
  obtain ⟨sources, unicode, hashes⟩ := sourceHashes_total config progress summary file
  have read : readDecisions (readerOf decisions) smallDecisionsPath t = .ok decisions := by
    have text := file
    rw [← List.append_nil (Json.encode _ _ _)] at text
    rw [readDecisions, readText_encoded (List.forall_mem_nil _) encodable text]
    simp only [readerOf, List.append_nil, if_true]
  have suite := small_suite ⟨config, progress, summary, file⟩ accepted
  have named : (Json.str decisions.suiteId).pyEq ((smallSuite kill).config.config.get (lit "suite_id")) = true := by
    rw [suiteId]
    rfl
  have same : (decisions.suiteFingerprintSha256.text == (smallSuite kill).config.fingerprint) = true := by
    rw [fingerprint]
    rfl
  have evaluations : (smallSuite kill).evaluations = [unusableRow kill] := rfl
  refine ⟨sources, unicode, ?_⟩
  rw [reviewSuite, required, Except.ok_bind, suite, Except.ok_bind, read, Except.ok_bind, named, same]
  simp only [Except.check, if_true, Except.ok_bind]
  rw [evaluations, decided, Except.ok_bind, hashes]
  rfl

theorem smallTree_reviewed (encodable : decisions.json.encodable = true) (suiteId : decisions.suiteId = lit "s")
    (fingerprint : decisions.suiteFingerprintSha256 = zeroDigest)
    (decided : decideCases (smallSuite kill).config.schedule [unusableRow kill] decisions.decisions = .ok cases_) :
    ∃ sources : SourceHashes, sources.Unicode ∧
      reviewSuite (readerOf decisions) smallDir smallDecisionsPath (smallTree (unusableRow kill) decisions) =
        .ok ⟨smallSuite kill, { smallAdjudication decisions cases_ with sources }⟩ :=
  small_reviewed (smallTree_read _ decisions) (smallSummary_accepted kill) encodable suiteId fingerprint decided

/-- The summary of the small suite is built and has a text. -/
theorem small_built {sources : SourceHashes} (unicode : sources.Unicode)
    (payloads : ∀ decision ∈ cases_, decision.payload.encodable = true)
    (scored : (match confirmedScores floats 1 [lit "M01"] cases_ with
      | .ok scores => (Json.int scores.confirmed).encodable && ((Json.int scores.rejected).encodable &&
          scores.repetitionScores.all fun score => score.payload.encodable)
      | .error _ => false) = true) (sha256 : Str) (hash : isUnicode sha256 = true) :
    ∃ summary, buildAdjudicatedSummary
      ⟨smallSuite kill, { smallAdjudication decisions cases_ with sources }⟩ sha256 = .ok summary ∧
        summary.encodable = true := by
  have scores : ∃ scores, confirmedScores floats 1 [lit "M01"] cases_ = .ok scores ∧
      (Json.int scores.confirmed).encodable = true ∧ (Json.int scores.rejected).encodable = true ∧
        ∀ score ∈ scores.repetitionScores, score.payload.encodable = true := by
    split at scored
    next scores made =>
      simp only [Bool.and_eq_true, List.all_eq_true] at scored
      exact ⟨scores, made, scored⟩
    next => cases scored
  obtain ⟨scores, made, printed⟩ := scores
  obtain ⟨summary, built⟩ : ∃ summary, buildAdjudicatedSummary
      ⟨smallSuite kill, { smallAdjudication decisions cases_ with sources }⟩ sha256 = .ok summary := by
    refine buildAdjudicatedSummary_isOk.mpr ⟨⟨scores, made⟩, ⟨[], ?_⟩, rfl, ?_⟩
    · have unnamed : dictGet (smallSummary (unusableRow kill)) "official_score_blockers" (.list []) =
          .ok (.list []) := by
        have none : (smallSummary (unusableRow kill)).get? (lit "official_score_blockers") = none := by
          simp [smallSummary, List.lookup_cons]
        change Except.ok (((smallSummary (unusableRow kill)).get? (lit "official_score_blockers")).getD _) = _
        rw [none]
        rfl
      change remainingBlockers (smallSummary (unusableRow kill)) = _
      rw [remainingBlockers, unnamed]
      rfl
    · simp [copiedFields, smallSuite, smallSummary, List.lookup_cons]
  refine ⟨summary, built, buildAdjudicatedSummary_encodable ?_ (smallSummary_accepted kill).encodable ?_ built⟩
  · exact smallConfig_encodable
  · have once : (Json.int (1 : Nat)).encodable = true := by decide
    refine ⟨zeroHash_isUnicode, once, ?_, unicode.summary, hash, payloads, fun scores' made' => ?_⟩
    · exact List.forall_mem_singleton.mpr (isUnicode_lit _)
    · cases Except.ok.inj (made.symm.trans made')
      exact printed

/-- The small suite is adjudicated, if what is written of it has a text. -/
theorem smallTree_total (encodable : decisions.json.encodable = true) (suiteId : decisions.suiteId = lit "s")
    (fingerprint : decisions.suiteFingerprintSha256 = zeroDigest)
    (decided : decideCases (smallSuite kill).config.schedule [unusableRow kill] decisions.decisions = .ok cases_)
    (payload : (smallAdjudication decisions cases_).payload.encodable = true)
    (payloads : ∀ decision ∈ cases_, decision.payload.encodable = true)
    (scored : (match confirmedScores floats 1 [lit "M01"] cases_ with
      | .ok scores => (Json.int scores.confirmed).encodable && ((Json.int scores.rejected).encodable &&
          scores.repetitionScores.all fun score => score.payload.encodable)
      | .error _ => false) = true) :
    ∃ t', (adjudicateSuite (readerOf decisions) smallDir smallDecisionsPath).Returns
      (smallTree (unusableRow kill) decisions) (adjudicationPath smallDir, adjudicatedPath smallDir) t' := by
  obtain ⟨sources, unicode, reviewed⟩ := smallTree_reviewed encodable suiteId fingerprint decided
  obtain ⟨there, fresh⟩ := smallTree_fresh (unusableRow kill) decisions
  have rewritten := suiteAdjudication_payload_rehash unicode payload
  exact adjudicateSuite_total reviewed rewritten (small_built unicode payloads scored) there fresh

theorem smallTree_adjudicated : ∃ paths t',
    (adjudicateSuite (readerOf (smallDecisions [])) smallDir smallDecisionsPath).Returns
      (smallTree (unusableRow false) (smallDecisions [])) paths t' ∧
    ∃ suite, readSuite smallDir (smallTree (unusableRow false) (smallDecisions [])) = .ok suite ∧
      suite.rawSummary.get? (lit "official_score_blockers") = none ∧
      suite.config.selectedCases.length = 1 := by
  have decisions : (smallDecisions []).json.encodable = true := by decide
  have payload : (smallAdjudication (smallDecisions []) []).payload.encodable = true := by decide
  obtain ⟨t', returned⟩ : ∃ t', (adjudicateSuite (readerOf (smallDecisions [])) smallDir smallDecisionsPath).Returns
      (smallTree (unusableRow false) (smallDecisions [])) (adjudicationPath smallDir, adjudicatedPath smallDir) t' :=
    smallTree_total decisions rfl rfl rfl payload (List.forall_mem_nil _) (by decide +kernel)
  exact ⟨_, t', returned, smallSuite false, smallTree_suite false _, rfl, rfl⟩

theorem adjudicateSuite_once_small : ∃ t content summary,
    (suiteMachine (readerOf (smallDecisions [])) smallDir).Reachable t ∧
      readJson (adjudicationPath smallDir) t = .ok content ∧
      readJson (adjudicatedPath smallDir) t = .ok summary ∧ Summarises content summary := by
  obtain ⟨paths, t, returned, -⟩ := smallTree_adjudicated
  have reached : (suiteMachine (readerOf (smallDecisions [])) smallDir).Reachable t := by
    obtain ⟨stage, found⟩ := List.mem_iff_getElem?.mp returned.mem_stages
    refine ⟨_, ⟨rfl, rfl⟩, .single ⟨.adjudicate smallDecisionsPath stage, trivial, found⟩⟩
  obtain ⟨-, review, sha256, summary, done⟩ := adjudicateSuite_returns returned
  have present : t.exists_ (adjudicatedPath smallDir) = true := by
    obtain ⟨existing, read, -⟩ := done.summary
    obtain ⟨content, file⟩ := get?_of_readJson (readObject_ok read).1
    exact FileTree.exists_of_get? file
  obtain ⟨content, summary, adjudication, adjudicated, summarises⟩ :=
    (adjudicateSuite_once reached).2.1 present
  exact ⟨t, content, summary, reached, adjudication, adjudicated, summarises⟩

end Small

end EdgecaseForge

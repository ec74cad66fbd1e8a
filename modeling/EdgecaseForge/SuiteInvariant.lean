import EdgecaseForge.FrozenSuites
import EdgecaseForge.OverlayPayloads
import EdgecaseForge.QuietPrograms
import EdgecaseForge.ScoredLedgers

namespace EdgecaseForge

open Text Effect Program Binary64 Statistics

/-- The files of a suite that its runs go by. -/
def suiteView (suiteDir : Path) (t : FileTree) : Option Node × Option Node × Option Node :=
  (t.get? (configPath suiteDir), t.get? (ledgerPath suiteDir), t.get? (summaryPath suiteDir))

/-- The summary on the disk is of these rows. -/
def SummaryOf (suiteDir : Path) (f : Frozen) (rows : List Json) (t : FileTree) : Prop :=
  ∃ summary, Written (summaryPath suiteDir) summary t ∧ summary.get (lit "cases") = .list rows ∧
    summary.get (lit "status") = statusText (decide (rows.length = f.schedule.length))

/-- A suite with a frozen configuration has evaluated the first pairs of its schedule, and has
summarised some of them. -/
structure SuiteStands (suiteDir : Path) (f : Frozen) (entries : List Entry) (t : FileTree) :
    Prop where
  made : t.isDir suiteDir = true
  config : Written (configPath suiteDir) f.config t
  ledger : LedgerHolds suiteDir (entries.map Entry.row) t
  stands : ∀ e ∈ entries, EntryStands (f.context suiteDir) e
  ordered : entries.map Entry.key <+: f.schedule
  summary : t.get? (summaryPath suiteDir) = none ∨
    ∃ n, n ≤ entries.length ∧ SummaryOf suiteDir f ((entries.map Entry.row).take n) t

/-- The suite has at least these entries. -/
def Extends (suiteDir : Path) (f : Frozen) (entries : List Entry) (t : FileTree) : Prop :=
  ∃ new, SuiteStands suiteDir f (entries ++ new) t

/-- The suite has at least these entries, and what is evaluated is not among them. -/
def Going (suiteDir : Path) (f : Frozen) (entries : List Entry) (note : Note) (t : FileTree) :
    Prop :=
  ∃ new, SuiteStands suiteDir f (entries ++ new) t ∧ ∀ repetition caseId,
    note = .evaluating repetition caseId → ⟨repetition, caseId⟩ ∉ (entries ++ new).map Entry.key

section Frames

variable {suiteDir : Path} {f : Frozen} {entries : List Entry} {rows : List Json} {t t' : FileTree}
  {α : Type}

theorem SummaryOf.of_get? (h : SummaryOf suiteDir f rows t)
    (same : t'.get? (summaryPath suiteDir) = t.get? (summaryPath suiteDir)) :
    SummaryOf suiteDir f rows t' := by
  obtain ⟨summary, written, cases_, status⟩ := h
  exact ⟨summary, written.of_get? same, cases_, status⟩

theorem SuiteStands.congr (h : SuiteStands suiteDir f entries t) (made : t'.isDir suiteDir = true)
    (view : suiteView suiteDir t' = suiteView suiteDir t) : SuiteStands suiteDir f entries t' := by
  obtain ⟨config, ledger, summary⟩ := Prod.ext_iff.mp view |>.imp id Prod.ext_iff.mp
  refine ⟨made, h.config.of_get? config, h.ledger.congr ledger, h.stands, h.ordered, ?_⟩
  rcases h.summary with absent | ⟨n, few, of⟩
  · exact Or.inl (summary.trans absent)
  · exact Or.inr ⟨n, few, of.of_get? summary⟩

theorem SuiteStands.extends (h : SuiteStands suiteDir f entries t) : Extends suiteDir f entries t :=
  ⟨[], by rwa [List.append_nil]⟩

theorem SuiteStands.going (h : SuiteStands suiteDir f entries t) :
    Going suiteDir f entries .wrote t :=
  ⟨[], by rwa [List.append_nil], fun _ _ he => by cases he⟩

theorem Extends.of_append {new : List Entry} (h : Extends suiteDir f (entries ++ new) t) :
    Extends suiteDir f entries t := by
  obtain ⟨more, stands⟩ := h
  exact ⟨new ++ more, by rwa [← List.append_assoc]⟩

theorem Going.of_append {new : List Entry} {note : Note}
    (h : Going suiteDir f (entries ++ new) note t) : Going suiteDir f entries note t := by
  obtain ⟨more, stands, fresh⟩ := h
  rw [List.append_assoc] at stands fresh
  exact ⟨new ++ more, stands, fresh⟩

/-- A program that leaves the suite as it stands wherever it stops. -/
theorem SuiteStands.triple {m : Disk α} (tame : Tame m)
    (all : ∀ t, SuiteStands suiteDir f entries t → ∀ t' ∈ m.stages t,
      SuiteStands suiteDir f entries t') :
    Triple (SuiteStands suiteDir f entries) m (Going suiteDir f entries)
      (fun _ => SuiteStands suiteDir f entries) (Extends suiteDir f entries) := by
  intro t h
  have last := all t h (m t).state (List.mem_append_right _ List.mem_cons_self)
  refine ⟨fun e he => ?_, fun _ _ => last, fun _ _ => last.extends⟩
  rw [tame.wrote he]
  exact (all t h e.2 (List.mem_append_left _ (List.mem_map_of_mem he))).going

/-- A program that stays away from the files of the suite leaves it as it stands. -/
theorem SuiteStands.quiet {m : Disk α} (keeps : Keeps (suiteView suiteDir) m) (tame : Tame m) :
    Triple (SuiteStands suiteDir f entries) m (Going suiteDir f entries)
      (fun _ => SuiteStands suiteDir f entries) (Extends suiteDir f entries) :=
  SuiteStands.triple tame fun _ h _ ht => h.congr (tame.stages ht h.made) (keeps.stages ht)

theorem runCase_view (context : SuiteContext) (key : CaseKey) (expectedCase : Json)
    (input : CaseInput) :
    Keeps (suiteView context.suiteDir) (runCase context key expectedCase input) := by
  have file : ∀ {name : Str}, name ≠ lit "agent-runs" →
      Keeps (fun t : FileTree => t.get? (context.suiteDir ++ [name]))
        (runCase context key expectedCase input) := by
    intro name hn
    obtain ⟨above, below⟩ := suiteFile_apart context.suiteDir hn key input
    exact runCase_below context key expectedCase input _ above below
  exact Keeps.pair (file (by simp)) (Keeps.pair (file (by simp)) (file (by simp)))

theorem appendJsonl_view {name : Str} (payload : Json) (config : name ≠ lit "suite-config.json")
    (ledger : name ≠ lit "case-evaluations.jsonl") (summary : name ≠ lit "suite-summary.json") :
    Keeps (suiteView suiteDir) (appendJsonl (suiteDir ++ [name]) payload) := by
  have file : ∀ {other : Str}, name ≠ other → Keeps (fun t : FileTree => t.get? (suiteDir ++ [other]))
      (appendJsonl (suiteDir ++ [name]) payload) := fun hn =>
    Keeps.act fun t => appendLine_ne (by simpa using Ne.symm hn)
  exact Keeps.pair (file config) (Keeps.pair (file ledger) (file summary))

end Frames

section Covering

variable {context : ProgressContext} {key : CaseKey} {row : Json}

theorem get?_of_get {value : Json} {name : Str} (h : row.get name = value) (hn : value ≠ .null) :
    row.get? name = some value := by
  unfold Json.get at h
  cases hg : row.get? name with
  | none =>
    rw [hg] at h
    exact absurd h.symm hn
  | some found =>
    rw [hg] at h
    rw [← h]
    rfl

theorem Listed.observed (h : Listed context key row) {expected : List CaseKey} (hk : key ∈ expected) :
    observedPair expected row = .ok (some key) := by
  have repetition := get?_of_get h.repetition (by simp)
  have caseId := get?_of_get h.caseId (by simp)
  have found := scheduledKey_ok h expected
  unfold scheduledKey at found
  dsimp only at found
  rw [h.repetition, h.caseId, if_pos hk] at found
  rw [observedPair, subscript_of_get? repetition, Except.ok_bind, subscript_of_get? caseId]
  exact found

theorem coversAll_ordered {expected keys : List CaseKey} (h : keys <+: expected)
    (once : expected.Nodup) :
    coversAll expected (keys.map some) = decide (keys.length = expected.length) := by
  obtain ⟨rest, rfl⟩ := h
  have known : (keys.map some).contains none = false := by simp
  rw [coversAll, known, Bool.not_false, Bool.and_true, Bool.eq_iff_iff, decide_eq_true_iff,
    List.all_eq_true]
  constructor
  · intro all
    cases rest with
    | nil => simp
    | cons key rest =>
      have there := all key (by simp)
      rw [List.contains_iff_mem, List.mem_map] at there
      obtain ⟨other, ho, same⟩ := there
      cases same
      exact ((List.disjoint_of_nodup_append once) ho List.mem_cons_self).elim
  · intro length key hk
    have none : rest = [] := List.length_eq_zero_iff.mp (by simpa using length)
    rw [none, List.append_nil] at hk
    rw [List.contains_iff_mem]
    exact List.mem_map_of_mem hk

end Covering

section Plans

/-- A plan goes by a frozen configuration. -/
structure Follows (suiteDir : Path) (f : Frozen) (plan : SuitePlan) : Prop where
  suiteDir : plan.context.suiteDir = suiteDir
  hashes : ∀ caseId, plan.context.sourceHashes.get? caseId = f.preflight.sourceHashes.get? caseId
  repetitions : plan.settings.repetitions = f.repetitions
  selectedCases : plan.settings.selectedCases = f.selectedCases
  decoded : plan.manifest.distinct = true
  suiteId : plan.settings.suiteId.distinct = true
  agent : plan.settings.agentConfig.distinct = true

variable {suiteDir : Path} {f : Frozen} {plan : SuitePlan} {e : Entry}

theorem Follows.schedule (h : Follows suiteDir f plan) : plan.schedule = f.schedule := by
  rw [SuitePlan.schedule, h.repetitions, h.selectedCases, Frozen.schedule]

theorem EntryStands.congr {context context' : SuiteContext} (h : EntryStands context e)
    (hashes : ∀ caseId, context'.sourceHashes.get? caseId = context.sourceHashes.get? caseId) :
    EntryStands context' e := by
  obtain ⟨source, found, recorded⟩ := h.ledgerRow.source
  have same : sourceHash context' e.key.caseId = .ok source := by
    rw [sourceHash, hashes]
    exact found
  exact ⟨h.known, { h.ledgerRow with source := ⟨source, same, recorded⟩ }, h.printable⟩

theorem Follows.planned (h : Follows suiteDir f plan) (he : EntryStands (f.context suiteDir) e) :
    EntryStands plan.context e :=
  he.congr h.hashes

theorem Follows.frozen (h : Follows suiteDir f plan) (he : EntryStands plan.context e) :
    EntryStands (f.context suiteDir) e :=
  he.congr fun caseId => (h.hashes caseId).symm

end Plans

section Summaries

variable {suiteDir : Path} {f : Frozen} {plan : SuitePlan} {entries : List Entry} {k : DigitTable}
  {settings : SummarySettings} {gitState summary : Json} {scores : CandidateScores Double}
  {rows : List Json}

theorem number_distinct (n : Number) : n.json.distinct = true := by
  cases n <;> rfl

theorem perRow_distinct {count : Number} {value : Json} (h : perRow count rows = .ok value) :
    value.distinct = true := by
  unfold perRow at h
  split at h
  · cases h
    rfl
  · obtain ⟨_, -, rfl⟩ := Except.map_eq_ok.mp h
    rfl

theorem repetitionScore_payload_distinct (score : RepetitionScore Double) :
    score.payload.distinct = true := by
  have value := floatOrNull_distinct score.score
  exact Json.distinct_object (by simp) (by simp [value, statusText])

/-- A summary has each key once, as the rows that it takes over do. -/
theorem summaryPayload_distinct (suiteId : settings.suiteId.distinct = true)
    (agent : settings.agentConfig.distinct = true) (hr : ∀ row ∈ rows, row.distinct = true)
    (h : summaryPayload k settings gitState scores rows = .ok summary) :
    summary.distinct = true := by
  unfold summaryPayload at h
  obtain ⟨blockers, -, h⟩ := Except.bind_eq_ok.mp h
  obtain ⟨controls, -, h⟩ := Except.bind_eq_ok.mp h
  obtain ⟨claimed, -, h⟩ := Except.bind_eq_ok.mp h
  obtain ⟨claims, -, h⟩ := Except.bind_eq_ok.mp h
  obtain ⟨frequency, hf, h⟩ := Except.bind_eq_ok.mp h
  obtain ⟨claimsEach, hc, h⟩ := Except.bind_eq_ok.mp h
  iterate 14 obtain ⟨_, -, h⟩ := Except.bind_eq_ok.mp h
  cases h
  have listed := Json.distinctItems_eq_true.mpr hr
  have scored := Json.distinct_map repetitionScore_payload_distinct scores.repetitionScores
  have named := Json.distinct_map Json.distinct_str blockers
  have selected := Json.distinct_map Json.distinct_str settings.selectedCases
  have all : (Json.list rows).distinct = true := listed
  refine Json.distinct_object (by simp) ?_
  simp [suiteId, agent, all, scored, texts, named, selected, number_distinct, perRow_distinct hf,
    perRow_distinct hc, medianJson, floatOrNull_distinct, rangeJson_distinct, statusText]

theorem candidateScores_complete_eq {selectedCases : List Str} {repetitions : Nat}
    (h : candidateScores floats k repetitions selectedCases rows = .ok scores) :
    ∃ observed, rows.mapM (observedPair (schedule repetitions selectedCases)) = .ok observed ∧
      scores.complete = coversAll (schedule repetitions selectedCases) observed := by
  obtain ⟨mutants, -, h⟩ := Except.bind_eq_ok.mp h
  obtain ⟨observed, ho, h⟩ := Except.bind_eq_ok.mp h
  obtain ⟨_, -, h⟩ := Except.bind_eq_ok.mp h
  obtain ⟨_, -, h⟩ := Except.bind_eq_ok.mp h
  obtain ⟨_, -, h⟩ := Except.bind_eq_ok.mp h
  cases h
  exact ⟨observed, ho, rfl⟩

theorem observed_entries (follows : Follows suiteDir f plan)
    (stands : ∀ e ∈ entries, EntryStands (f.context suiteDir) e)
    (ordered : entries.map Entry.key <+: f.schedule) :
    (entries.map Entry.row).mapM (observedPair plan.schedule) =
      .ok ((entries.map Entry.key).map some) := by
  rw [Except.mapM_eq_ok, List.map_map, List.forall₂_map_left_iff, List.forall₂_map_right_iff,
    List.forall₂_same]
  intro e he
  rw [follows.schedule]
  exact (((stands e he).listed f.repetitions f.selectedCases).observed
    (ordered.subset (List.mem_map_of_mem he)))

/-- What a summary says of the rows that it is made of. -/
theorem summary_of_entries (follows : Follows suiteDir f plan)
    (stands : ∀ e ∈ entries, EntryStands (f.context suiteDir) e)
    (ordered : entries.map Entry.key <+: f.schedule)
    (scored : candidateScores floats k plan.settings.repetitions plan.settings.selectedCases
      (entries.map Entry.row) = .ok scores)
    (h : summaryPayload k plan.settings gitState scores (entries.map Entry.row) = .ok summary) :
    summary.distinct = true ∧ summary.get (lit "cases") = .list (entries.map Entry.row) ∧
      summary.get (lit "status") =
        statusText (decide ((entries.map Entry.row).length = f.schedule.length)) := by
  obtain ⟨-, status, cases_, -⟩ := summaryPayload_fields h
  obtain ⟨observed, ho, complete⟩ := candidateScores_complete_eq scored
  have distinct : ∀ row ∈ entries.map Entry.row, row.distinct = true :=
    List.forall_mem_map.mpr fun e he => (stands e he).ledgerRow.distinct
  refine ⟨summaryPayload_distinct follows.suiteId follows.agent distinct h, cases_, ?_⟩
  rw [← SuitePlan.schedule, observed_entries follows stands ordered] at ho
  rw [← SuitePlan.schedule, ← Except.ok.inj ho, follows.schedule,
    coversAll_ordered ordered f.schedule_nodup, List.length_map] at complete
  rw [status, complete, List.length_map]

end Summaries

end EdgecaseForge

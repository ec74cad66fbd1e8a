import EdgecaseForge.ControlRuns

namespace EdgecaseForge

open Text Effect Program Transition

/-- A call for a suite that gets as far as one of its stages: it is over, or it was interrupted. -/
structure CallEvent where
  call : SuiteCall
  stage : Nat

/-- What the calls for a suite make of it, from where there is nothing of it. -/
def callMachine (k : DigitTable) (suiteDir : Path) : Machine FileTree CallEvent where
  init := Bare suiteDir
  step t event :=
    if event.call.suiteDir = suiteDir then
      ((runFlashcartSuite k event.call).stages t)[event.stage]?
    else none

/-- The schedule that the configuration of a suite was frozen with. -/
def FrozenSchedule (suiteDir : Path) (repetitions : Nat) (selectedCases : List Str)
    (t : FileTree) : Prop :=
  ∃ config frozen, readJson (configPath suiteDir) t = .ok config ∧
    subscript config "frozen" = .ok frozen ∧
    frozen.get (lit "repetitions") = .int repetitions ∧
    frozen.get (lit "selected_cases") = texts selectedCases

section History

variable {suiteDir : Path} {f : Frozen} {entries : List Entry} {k : DigitTable} {call : SuiteCall}
  {t t' : FileTree}

theorem SuiteStands.frozenSchedule (h : SuiteStands suiteDir f entries t) :
    FrozenSchedule suiteDir f.repetitions f.selectedCases t := by
  obtain ⟨_, _, made⟩ := frozenConfig_ok f.made
  have frozen : f.config.get? (lit "frozen") = some f.json := by
    rw [Frozen.config, suiteConfig, Json.get?_object]
    rfl
  refine ⟨f.config, f.json, h.config.readJson, subscript_of_get? frozen, ?_, ?_⟩
  · rw [made, Json.get_object]
    rfl
  · rw [made, Json.get_object]
    rfl

/-- The entries that are in the ledger have their lines at its beginning from then on. -/
theorem SuiteStands.content {new : List Entry} (h : SuiteStands suiteDir f entries t)
    (h' : SuiteStands suiteDir f (entries ++ new) t') :
    contentOrEmpty (ledgerPath suiteDir) t <+: contentOrEmpty (ledgerPath suiteDir) t' := by
  have later := h'.ledger
  have text : ledgerText ((entries ++ new).map Entry.row) =
      ledgerText (entries.map Entry.row) ++ ledgerText (new.map Entry.row) := by
    simp [ledgerText]
  rw [LedgerHolds, text] at later
  obtain ⟨first, rest, encoded, -, split⟩ := utf8Encode_append_eq_some.mp later
  rw [split, Option.some.inj (encoded.symm.trans h.ledger)]
  exact List.prefix_append _ _

/-- Wherever a call stops, the suite still has its entries. -/
theorem SuiteStands.called (h : SuiteStands suiteDir f entries t) (same : call.suiteDir = suiteDir)
    (ht : t' ∈ (runFlashcartSuite k call).stages t) : Extends suiteDir f entries t' :=
  (runFlashcartSuite_stands same).stages
    (fun _ _ h => ⟨h.choose, h.choose_spec.1⟩)
    (fun _ _ h => ⟨h.2.choose, h.2.choose_spec.stands⟩) (fun _ h => h) ⟨h, rfl⟩ ht

theorem Bare.called (h : Bare suiteDir t) (same : call.suiteDir = suiteDir)
    (ht : t' ∈ (runFlashcartSuite k call).stages t) : Started suiteDir t' := by
  refine (runFlashcartSuite_bare same).stages (fun note t h => ?_) (fun _ t h => ?_) (fun _ h => h)
    h ht
  · rcases h with ⟨bare, -⟩ | ⟨f, new, stands, -⟩
    · exact Or.inl bare
    · exact Or.inr ⟨f, new, stands⟩
  · obtain ⟨f, -, new, finished⟩ := h
    exact Or.inr ⟨f, new, finished.stands⟩

theorem callMachine_step {event : CallEvent} (hs : (callMachine k suiteDir).step t event = some t') :
    event.call.suiteDir = suiteDir ∧ t' ∈ (runFlashcartSuite k event.call).stages t := by
  simp only [callMachine] at hs
  split at hs
  next same => exact ⟨same, List.mem_of_getElem? hs⟩
  next => cases hs

theorem callMachine_extends (reached : (callMachine k suiteDir).Reachable t)
    (h : SuiteStands suiteDir f entries t)
    (later : (callMachine k suiteDir).LeadsTo (fun _ _ => True) t t') :
    Extends suiteDir f entries t' := by
  refine reached.stable (Extends suiteDir f entries) ?_ h.extends later
  rintro s event t' - ⟨new, stands⟩ - hs
  obtain ⟨same, ht⟩ := callMachine_step hs
  exact (stands.called same ht).of_append

theorem callMachine_started (reached : (callMachine k suiteDir).Reachable t) :
    Started suiteDir t := by
  refine reached.invariant (Started suiteDir) (fun s h => Or.inl h) ?_
  rintro s event t' - started - hs
  obtain ⟨same, ht⟩ := callMachine_step hs
  rcases started with bare | ⟨f, new, stands⟩
  · exact bare.called same ht
  · obtain ⟨more, further⟩ := stands.called same ht
    rw [List.append_assoc] at further
    exact Or.inr ⟨f, new ++ more, further⟩

/-- What a call for a suite that goes through leaves of it, and what it found. -/
theorem runFlashcartSuite_returns (reached : (callMachine k suiteDir).Reachable t)
    (same : call.suiteDir = suiteDir) {directory : Path}
    (returns : (runFlashcartSuite k call).Returns t directory t') :
    ∃ f entries new, ScheduledFor call f ∧ LedgerPairs suiteDir (entries.map Entry.key) t ∧
      (t.get? (summaryPath suiteDir) = none ∨ ∃ n, n ≤ entries.length ∧
        SummaryOf suiteDir f ((entries.map Entry.row).take n) t) ∧
      Finished suiteDir f entries (t.get? (summaryPath suiteDir)) new t' := by
  obtain ⟨result, rfl⟩ := returns
  rcases callMachine_started reached with bare | ⟨f, entries, stands⟩
  · obtain ⟨f, scheduled, new, finished⟩ := (runFlashcartSuite_bare same t bare).2.1 _ result
    refine ⟨f, [], new, scheduled, bare.pairs, Or.inl bare.summary, ?_⟩
    rwa [bare.summary]
  · rw [List.nil_append] at stands
    obtain ⟨scheduled, new, finished⟩ :=
      (runFlashcartSuite_stands same t ⟨stands, rfl⟩).2.1 _ result
    exact ⟨f, entries, new, scheduled, stands.pairs, stands.summary, finished⟩

/-- The pairs of a suite that stands, from then on. -/
theorem SuiteStands.later (reached : (callMachine k suiteDir).Reachable t)
    (h : SuiteStands suiteDir f entries t)
    (later : (callMachine k suiteDir).LeadsTo (fun _ _ => True) t t') :
    contentOrEmpty (ledgerPath suiteDir) t <+: contentOrEmpty (ledgerPath suiteDir) t' ∧
      ∀ call, call.suiteDir = suiteDir → ∀ e ∈ (runFlashcartSuite k call t').trace, ∀ key,
        e.1 = .evaluating key.repetition key.caseId → ∃ keys, LedgerPairs suiteDir keys e.2 ∧
          entries.map Entry.key <+: keys ∧ key ∉ keys := by
  obtain ⟨new, stands⟩ := callMachine_extends reached h later
  refine ⟨h.content stands, fun call same e he key evaluating => ?_⟩
  obtain ⟨more, further, fresh⟩ := (runFlashcartSuite_stands same t' ⟨stands, rfl⟩).1 e he
  refine ⟨_, further.pairs, ?_, fresh _ _ evaluating⟩
  simp only [List.map_append, List.append_assoc]
  exact List.prefix_append _ _

theorem Bare.later (reached : (callMachine k suiteDir).Reachable t) (h : Bare suiteDir t)
    (later : (callMachine k suiteDir).LeadsTo (fun _ _ => True) t t') :
    contentOrEmpty (ledgerPath suiteDir) t <+: contentOrEmpty (ledgerPath suiteDir) t' ∧
      ∀ call, call.suiteDir = suiteDir → ∀ e ∈ (runFlashcartSuite k call t').trace, ∀ key,
        e.1 = .evaluating key.repetition key.caseId → ∃ keys, LedgerPairs suiteDir keys e.2 ∧
          [] <+: keys ∧ key ∉ keys := by
  have empty : contentOrEmpty (ledgerPath suiteDir) t = [] := by rw [contentOrEmpty, h.ledger]
  refine ⟨by rw [empty]; exact List.nil_prefix, fun call same e he key evaluating => ?_⟩
  have going : Starting suiteDir e.1 e.2 := by
    rcases callMachine_started (reached.leadsTo later) with bare | ⟨f, new, stands⟩
    · exact (runFlashcartSuite_bare same t' bare).1 e he
    · exact Or.inr ⟨f, ((runFlashcartSuite_stands same t' ⟨stands, rfl⟩).1 e he).of_append⟩
  rw [Starting, evaluating] at going
  rcases going with ⟨-, wrote⟩ | ⟨f, new, stands, fresh⟩
  · cases wrote
  · exact ⟨_, stands.pairs, List.nil_prefix, fresh _ _ rfl⟩

/-- The ledger of a suite is always the beginning of its schedule, its rows stay, no pair that is in
it is evaluated again, and a call that returns leaves the whole schedule. -/
theorem runFlashcartSuite_resumes (reached : (callMachine k suiteDir).Reachable t) :
    ∃ keys, LedgerPairs suiteDir keys t ∧ keys.Nodup ∧
      (keys = [] ∨ ∃ repetitions selectedCases,
        FrozenSchedule suiteDir repetitions selectedCases t ∧
          keys <+: schedule repetitions selectedCases) ∧
      (∀ t', (callMachine k suiteDir).LeadsTo (fun _ _ => True) t t' →
        contentOrEmpty (ledgerPath suiteDir) t <+: contentOrEmpty (ledgerPath suiteDir) t' ∧
        ∀ call, call.suiteDir = suiteDir → ∀ e ∈ (runFlashcartSuite k call t').trace, ∀ key,
          e.1 = .evaluating key.repetition key.caseId → ∃ keys', LedgerPairs suiteDir keys' e.2 ∧
            keys <+: keys' ∧ key ∉ keys') ∧
      ∀ call, call.suiteDir = suiteDir → ∀ directory t',
        (runFlashcartSuite k call).Returns t directory t' →
          FrozenSchedule suiteDir call.repetitions.toNat call.selectedCases t' ∧
            LedgerPairs suiteDir call.schedule t' := by
  have whole : ∀ call, call.suiteDir = suiteDir → ∀ directory t',
      (runFlashcartSuite k call).Returns t directory t' →
        FrozenSchedule suiteDir call.repetitions.toNat call.selectedCases t' ∧
          LedgerPairs suiteDir call.schedule t' := by
    intro call same directory t' returns
    obtain ⟨f, entries, new, scheduled, -, -, finished⟩ :=
      runFlashcartSuite_returns reached same returns
    have frozen := finished.stands.frozenSchedule
    have pairs := finished.stands.pairs
    rw [scheduled.repetitions, scheduled.selectedCases] at frozen
    rw [finished.all, scheduled.schedule] at pairs
    exact ⟨frozen, pairs⟩
  rcases callMachine_started reached with bare | ⟨f, entries, stands⟩
  · exact ⟨[], bare.pairs, List.nodup_nil, Or.inl rfl, fun t' later => bare.later reached later, whole⟩
  · rw [List.nil_append] at stands
    exact ⟨_, stands.pairs, f.schedule_nodup.sublist stands.ordered.sublist,
      Or.inr ⟨_, _, stands.frozenSchedule, stands.ordered⟩,
      fun t' later => stands.later reached later, whole⟩

/-- The summary is of the whole ledger and says so. -/
def Published (suiteDir : Path) (t : FileTree) : Prop :=
  ∃ summary rows, readJson (summaryPath suiteDir) t = .ok summary ∧ LedgerRows suiteDir rows t ∧
    summary.get (lit "cases") = .list rows ∧ summary.get (lit "status") = .str (lit "complete")

/-- The summary says that it is complete. -/
def SummaryComplete (suiteDir : Path) (t : FileTree) : Prop :=
  ∃ summary, readJson (summaryPath suiteDir) t = .ok summary ∧
    summary.get (lit "status") = .str (lit "complete")

theorem SummaryOf.complete {rows : List Json} (h : SummaryOf suiteDir f rows t) :
    SummaryComplete suiteDir t ↔ rows.length = f.schedule.length := by
  obtain ⟨summary, written, -, status⟩ := h
  constructor
  · rintro ⟨summary', read, complete⟩
    rw [written.readJson] at read
    cases read
    rw [status] at complete
    by_contra short
    rw [decide_eq_false short] at complete
    simp [statusText] at complete
  · intro all
    refine ⟨summary, written.readJson, ?_⟩
    rw [status, decide_eq_true all]
    rfl

theorem SummaryComplete.of_get? (h : SummaryComplete suiteDir t)
    (same : t'.get? (summaryPath suiteDir) = t.get? (summaryPath suiteDir)) :
    SummaryComplete suiteDir t' := by
  obtain ⟨summary, read, status⟩ := h
  refine ⟨summary, ?_, status⟩
  simpa only [readJson, readText, FileTree.readBytes, same] using read

theorem Published.complete (h : Published suiteDir t) : SummaryComplete suiteDir t := by
  obtain ⟨summary, -, read, -, -, status⟩ := h
  exact ⟨summary, read, status⟩

theorem SummaryOf.published {rows : List Json} (h : SummaryOf suiteDir f rows t)
    (ledger : LedgerRows suiteDir rows t) (all : rows.length = f.schedule.length) :
    Published suiteDir t := by
  obtain ⟨summary, written, cases_, status⟩ := h
  refine ⟨summary, rows, written.readJson, ledger, cases_, ?_⟩
  rw [status, decide_eq_true all]
  rfl

/-- A call that returns leaves a summary of the whole ledger exactly if it had a pair to evaluate, or
if the summary was complete before. -/
theorem runFlashcartSuite_published (reached : (callMachine k suiteDir).Reachable t)
    (same : call.suiteDir = suiteDir) {directory : Path}
    (returns : (runFlashcartSuite k call).Returns t directory t') :
    Published suiteDir t' ↔
      ¬ LedgerPairs suiteDir call.schedule t ∨ SummaryComplete suiteDir t := by
  obtain ⟨f, entries, new, scheduled, pairs, summary, finished⟩ :=
    runFlashcartSuite_returns reached same returns
  have rows := finished.stands.decoded
  have length : ((entries ++ new).map Entry.row).length = f.schedule.length := by
    rw [← finished.all, List.length_map, List.length_map]
  rw [← scheduled.schedule, ← finished.all]
  cases new with
  | nil =>
    have kept := finished.same rfl
    rw [List.append_nil] at rows length ⊢
    constructor
    · exact fun published => Or.inr (published.complete.of_get? kept.symm)
    · rintro (missing | complete)
      · exact absurd pairs missing
      · rcases summary with absent | ⟨n, few, of⟩
        · obtain ⟨_, read, -⟩ := complete
          obtain ⟨_, there⟩ := get?_of_readJson read
          cases absent.symm.trans there
        · have taken := of.complete.mp complete
          have whole : (entries.map Entry.row).take n = entries.map Entry.row := by
            refine List.take_of_length_le ?_
            rw [List.length_take] at taken
            omega
          rw [whole] at of
          exact (of.of_get? kept).published rows length
  | cons e new =>
    refine ⟨fun _ => Or.inl fun there => ?_, fun _ =>
      (finished.summary (List.cons_ne_nil e new)).published rows length⟩
    have keys := pairs.unique there
    rw [List.map_append, List.self_eq_append_right] at keys
    cases keys

end History

section Control

theorem interrupted_reached : (callMachine .plain [lit "suite"]).Reachable interrupted := by
  obtain ⟨_, _, _, passes, -⟩ := interrupted_stands
  have start : (callMachine .plain [lit "suite"]).Reachable Dict.empty := ⟨_, bare_empty _, .refl⟩
  have same : (controlCall none).suiteDir = [lit "suite"] := rfl
  refine start.next (a := ⟨controlCall none, 6⟩) trivial ?_
  simpa only [callMachine, same, if_true] using passes.stages

/-- The call that resumes it has nothing to evaluate and writes no summary. -/
theorem interrupted_resumed :
    ∃ directory t', (runFlashcartSuite .plain (controlCall (some [lit "suite"]))).Returns interrupted
      directory t' ∧ t'.get? (summaryPath [lit "suite"]) = none := by
  obtain ⟨f, made, schedule, -, stands, absent, readable, free⟩ := interrupted_stands
  have announced :
      (eventPayload "suite_resumed" (controlCall (some [lit "suite"])) 1).encodable = true := by
    simp [eventPayload, controlCall, Json.encodable_object, isUnicode_lit]
    decide
  have safe : LedgerSafe (errorRun []).input := ⟨by decide, by decide, by decide⟩
  have resumed : checkCall (controlCall (some [lit "suite"])) =
      .ok (controlCall (some [lit "suite"])).selectedCases := checkCall_total (by decide +kernel)
  have returns := runFlashcartSuite_complete (k := .plain) stands schedule.symm rfl resumed rfl made
    readable free announced
    (List.forall_mem_singleton.mpr (Or.inl ⟨_, _, _, rfl⟩)) (List.forall_mem_singleton.mpr safe)
  refine ⟨_, _, returns, ?_⟩
  rw [eventsPath, summaryPath, appendLine_ne (by simp)]
  exact absent

/-- A suite that was interrupted between its rows keeps the rows that it has. -/
theorem runFlashcartSuite_resumes_control : ∃ keys,
    LedgerPairs [lit "suite"] keys interrupted ∧ keys.Nodup := by
  obtain ⟨keys, pairs, once, -⟩ := runFlashcartSuite_resumes interrupted_reached
  exact ⟨keys, pairs, once⟩

theorem runFlashcartSuite_published_control : ∃ directory t',
    (runFlashcartSuite .plain (controlCall (some [lit "suite"]))).Returns interrupted directory t' ∧
      (Published [lit "suite"] t' ↔
        ¬ LedgerPairs [lit "suite"] (controlCall (some [lit "suite"])).schedule interrupted ∨
          SummaryComplete [lit "suite"] interrupted) := by
  obtain ⟨directory, t', returns, -⟩ := interrupted_resumed
  exact ⟨directory, t', returns, runFlashcartSuite_published interrupted_reached rfl returns⟩

/-- A call returned normally and left no summary. -/
theorem runFlashcartSuite_unpublished : ∃ t directory t',
    (callMachine .plain [lit "suite"]).Reachable t ∧
      (runFlashcartSuite .plain (controlCall (some [lit "suite"]))).Returns t directory t' ∧
        ¬ Published [lit "suite"] t' := by
  obtain ⟨directory, t', returns, absent⟩ := interrupted_resumed
  refine ⟨interrupted, directory, t', interrupted_reached, returns, ?_⟩
  rintro ⟨summary, rows, read, -⟩
  obtain ⟨content, there⟩ := get?_of_readJson read
  cases absent.symm.trans there

end Control

end EdgecaseForge

import EdgecaseForge.SuiteInvariant

namespace EdgecaseForge

open Text Effect Program Binary64

section Steps

variable {suiteDir : Path} {f : Frozen} {plan : SuitePlan} {entries new : List Entry} {e : Entry}
  {k : DigitTable} {t t' : FileTree} {row : Json}

/-- The suite as it stands once its ledger has grown. -/
theorem SuiteStands.grown (h : SuiteStands suiteDir f entries t) (made : t'.isDir suiteDir = true)
    (config : t'.get? (configPath suiteDir) = t.get? (configPath suiteDir))
    (summary : t'.get? (summaryPath suiteDir) = t.get? (summaryPath suiteDir))
    (ledger : LedgerHolds suiteDir ((entries ++ new).map Entry.row) t')
    (stands : ∀ e ∈ new, EntryStands (f.context suiteDir) e)
    (ordered : (entries ++ new).map Entry.key <+: f.schedule) :
    SuiteStands suiteDir f (entries ++ new) t' := by
  refine ⟨made, h.config.of_get? config, ledger, List.forall_mem_append.mpr ⟨h.stands, stands⟩,
    ordered, ?_⟩
  rcases h.summary with absent | ⟨n, few, of⟩
  · exact Or.inl (summary.trans absent)
  · refine Or.inr ⟨n, ?_, ?_⟩
    · rw [List.length_append]
      omega
    · rw [List.map_append, List.take_append_of_le_length (by rwa [List.length_map])]
      exact of.of_get? summary

theorem appendLine_made (made : t.isDir suiteDir = true) (p : Path) (row : Json) :
    (appendLine p row t).1.isDir suiteDir = true :=
  (Tame.appendJsonl p row).stages (List.mem_append_right _ List.mem_cons_self) made

theorem appendLine_beside {name : Str} (hn : name ≠ lit "case-evaluations.jsonl") :
    (appendLine (ledgerPath suiteDir) row t).1.get? (suiteDir ++ [name]) =
      t.get? (suiteDir ++ [name]) :=
  appendLine_ne (by simpa [ledgerPath] using hn)

theorem SuiteStands.append (h : SuiteStands suiteDir f entries t)
    (stands : e.row.printable = true → EntryStands (f.context suiteDir) e)
    (next : (entries ++ [e]).map Entry.key <+: f.schedule)
    (ok : (appendLine (ledgerPath suiteDir) e.row t).2 = .ok ()) :
    SuiteStands suiteDir f (entries ++ [e]) (appendLine (ledgerPath suiteDir) e.row t).1 := by
  obtain ⟨printable, -⟩ := appendLine_ok ok
  have ledger := h.ledger.append ok
  refine h.grown (appendLine_made h.made _ _) (appendLine_beside (by simp))
    (appendLine_beside (by simp)) ?_ (List.forall_mem_singleton.mpr (stands printable)) next
  rwa [List.map_append]

theorem SuiteStands.append_error (h : SuiteStands suiteDir f entries t) {error : PyError}
    (failed : (appendLine (ledgerPath suiteDir) row t).2 = .error error) :
    SuiteStands suiteDir f entries (appendLine (ledgerPath suiteDir) row t).1 := by
  have ledger := h.ledger.append_error failed
  have same : entries ++ [] = entries := List.append_nil entries
  rw [← same] at ledger ⊢
  exact h.grown (appendLine_made h.made _ _) (appendLine_beside (by simp))
    (appendLine_beside (by simp)) ledger (List.forall_mem_nil _) (by rw [same]; exact h.ordered)

/-- A row is appended whole or not at all. -/
theorem appendRow_stands (stands : e.row.printable = true → EntryStands (f.context suiteDir) e)
    (next : (entries ++ [e]).map Entry.key <+: f.schedule) :
    Triple (SuiteStands suiteDir f entries) (appendJsonl (ledgerPath suiteDir) e.row)
      (Going suiteDir f entries) (fun _ => SuiteStands suiteDir f (entries ++ [e]))
      (Extends suiteDir f entries) := by
  refine Triple.act (fun t h => ?_) (fun t _ h ok => h.append stands next ok) fun t error h failed =>
    (h.append_error failed).extends
  cases hr : (appendLine (ledgerPath suiteDir) e.row t).2 with
  | error error => exact (h.append_error hr).going
  | ok u => exact (h.append stands next hr).going.of_append

/-- An atomic write of the summary leaves the suite as it stands, with this summary or the one
before. -/
theorem writeJsonAtomic_summary {summary : Json} (distinct : summary.distinct = true)
    (cases_ : summary.get (lit "cases") = .list (entries.map Entry.row))
    (status : summary.get (lit "status") =
      statusText (decide ((entries.map Entry.row).length = f.schedule.length))) :
    Triple (SuiteStands suiteDir f entries) (writeJsonAtomic (summaryPath suiteDir) summary)
      (Going suiteDir f entries)
      (fun _ t => SuiteStands suiteDir f entries t ∧ SummaryOf suiteDir f (entries.map Entry.row) t)
      (Extends suiteDir f entries) := by
  have tame := Tame.writeJsonAtomic (summaryPath suiteDir) summary
  have outside : ∀ name, ¬ suiteDir ++ [name] <+: (summaryPath suiteDir).dropLast := by
    intro name
    rw [summaryPath, dropLast_child]
    exact child_ne_above suiteDir name
  have beside : ∀ {name : Str}, name ≠ lit "suite-summary.json" →
      name ≠ lit "suite-summary.json" ++ lit ".tmp" →
      Keeps (fun t : FileTree => t.get? (suiteDir ++ [name]))
        (writeJsonAtomic (summaryPath suiteDir) summary) := fun hn ht =>
    writeJsonAtomic_keeps (by simpa [summaryPath] using hn)
      (by simpa [summaryPath, temporaryPath] using ht) (outside _)
  have of : ∀ t, Written (summaryPath suiteDir) summary t →
      SummaryOf suiteDir f (entries.map Entry.row) t := fun t written =>
    ⟨summary, written, cases_, status⟩
  have all : ∀ t, SuiteStands suiteDir f entries t →
      ∀ t' ∈ (writeJsonAtomic (summaryPath suiteDir) summary).stages t,
        SuiteStands suiteDir f entries t' := by
    intro t h t' ht
    refine ⟨tame.stages ht h.made, h.config.of_get? ((beside (by simp) (by decide)).stages ht),
      h.ledger.congr ((beside (by simp) (by decide)).stages ht), h.stands, h.ordered, ?_⟩
    rcases writeJsonAtomic_stages (outside _) distinct ht with same | written
    · rcases h.summary with absent | ⟨n, few, before⟩
      · exact Or.inl (same.trans absent)
      · exact Or.inr ⟨n, few, before.of_get? same⟩
    · refine Or.inr ⟨entries.length, le_rfl, ?_⟩
      rw [List.take_of_length_le (by simp)]
      exact of t' written
  exact Triple.returning (SuiteStands.triple tame all) fun t u t' _ returns =>
    of t' (writeJsonAtomic_written distinct returns)

theorem Triple.read_bind {α β : Type} {g : FileTree → Except PyError α} {m : α → Disk β}
    {pre fail : FileTree → Prop} {mid : Note → FileTree → Prop} {last : β → FileTree → Prop}
    (error : ∀ t, pre t → fail t)
    (hm : ∀ a, Triple (fun t => pre t ∧ g t = .ok a) (m a) mid last fail) :
    Triple pre (Disk.read g >>= m) mid last fail :=
  Triple.inspect_bind error hm

/-- Writing the summary of all rows leaves it behind. -/
theorem writeSummary_stands (follows : Follows suiteDir f plan) 
    (stands : ∀ e ∈ entries, EntryStands (f.context suiteDir) e)
    (ordered : entries.map Entry.key <+: f.schedule) :
    Triple (SuiteStands suiteDir f entries)
      (writeSummary k plan.context.suiteDir plan.settings (entries.map Entry.row))
      (Going suiteDir f entries)
      (fun _ t => SuiteStands suiteDir f entries t ∧ SummaryOf suiteDir f (entries.map Entry.row) t)
      (Extends suiteDir f entries) := by
  have stops := fun t (h : SuiteStands suiteDir f entries t) => h.extends
  rw [follows.suiteDir]
  refine Triple.lift_bind stops fun scores scored => Triple.read_bind stops fun config => ?_
  refine Triple.weaken ?_ (fun t h => h.1) fun _ _ h => h
  refine Triple.lift_bind stops fun frozen _ => Triple.lift_bind stops fun gitState _ => ?_
  refine Triple.lift_bind stops fun summary made => ?_
  obtain ⟨distinct, cases_, status⟩ := summary_of_entries follows stands ordered scored made
  exact writeJsonAtomic_summary distinct cases_ status

/-- A row is appended, and then all rows are summarised. -/
theorem recordPair_stands (follows : Follows suiteDir f plan)
    (stands : e.row.printable = true → EntryStands (f.context suiteDir) e)
    (ordered : (entries ++ [e]).map Entry.key <+: f.schedule) :
    Triple (SuiteStands suiteDir f entries)
      (do
        appendJsonl (ledgerPath plan.context.suiteDir) e.row
        writeSummary k plan.context.suiteDir plan.settings (entries.map Entry.row ++ [e.row])
        Program.lift plan.pause
        pure (entries.map Entry.row ++ [e.row]))
      (Going suiteDir f entries)
      (fun rows t => rows = (entries ++ [e]).map Entry.row ∧
        SuiteStands suiteDir f (entries ++ [e]) t ∧ SummaryOf suiteDir f rows t)
      (Extends suiteDir f entries) := by
  rw [follows.suiteDir]
  refine Triple.bind (appendRow_stands stands ordered) fun _ =>
    Triple.knowing (fun _ h => h.stands) fun each => ?_
  have summarised := writeSummary_stands (k := k) follows each ordered
  have all : (entries ++ [e]).map Entry.row = entries.map Entry.row ++ [e.row] := List.map_append
  rw [follows.suiteDir, all] at summarised
  refine Triple.bind (summarised.widen (fun _ _ h => h.of_append) fun _ h => h.of_append) fun _ => ?_
  exact Triple.lift_bind (fun t h => h.1.extends.of_append) fun _ _ => Triple.pure fun t h =>
    ⟨all.symm, h⟩

/-- Evaluating the next pair adds its row and summarises all rows, or stops on the way. -/
theorem evaluatePair_stands (follows : Follows suiteDir f plan) {key : CaseKey}
    (next : entries.map Entry.key ++ [key] <+: f.schedule) :
    Triple (SuiteStands suiteDir f entries) (evaluatePair k plan (entries.map Entry.row) key)
      (Going suiteDir f entries)
      (fun rows t => ∃ e : Entry, e.key = key ∧ rows = (entries ++ [e]).map Entry.row ∧
        SuiteStands suiteDir f (entries ++ [e]) t ∧ SummaryOf suiteDir f rows t)
      (Extends suiteDir f entries) := by
  have stops := fun t (h : SuiteStands suiteDir f entries t) => h.extends
  have scheduled : key ∈ f.schedule := next.subset (by simp)
  have fresh : key ∉ entries.map Entry.key := by
    have once := f.schedule_nodup.sublist next.sublist
    exact fun hk => List.disjoint_of_nodup_append once hk (by simp)
  refine Triple.lift_bind stops fun expected contract => ?_
  have distinct := expectedCase_distinct follows.decoded contract
  have marked : Triple (SuiteStands suiteDir f entries)
      (Program.mark (.evaluating key.repetition key.caseId) : Disk Unit) (Going suiteDir f entries)
      (fun _ => SuiteStands suiteDir f entries) (Extends suiteDir f entries) := by
    refine Triple.act (fun t h => ⟨[], ?_, fun repetition caseId he => ?_⟩) (fun t _ h _ => h)
      fun t _ h _ => h.extends
    · rwa [List.append_nil]
    · cases he
      rwa [List.append_nil]
  refine Triple.bind marked fun _ => ?_
  have ran : Triple (SuiteStands suiteDir f entries)
      (runCase plan.context key expected (plan.inputs key)) (Going suiteDir f entries)
      (fun row t => SuiteStands suiteDir f entries t ∧ (row.printable = true →
        EntryStands (f.context suiteDir) ⟨key, plan.inputs key, row⟩))
      (Extends suiteDir f entries) := by
    have keeps := runCase_view plan.context key expected (plan.inputs key)
    rw [follows.suiteDir] at keeps
    refine Triple.returning (SuiteStands.quiet keeps (runCase_tame expected (plan.inputs key)))
      fun t row t' _ returns printable => ?_
    obtain ⟨entry, -⟩ := runCase_entry (f.known scheduled) distinct returns printable
    exact follows.frozen entry
  refine Triple.bind ran fun row => Triple.knowing (fun _ h => h.2) fun stands => ?_
  have ordered : (entries ++ [Entry.mk key (plan.inputs key) row]).map Entry.key <+: f.schedule := by
    rwa [List.map_append]
  exact (recordPair_stands follows stands ordered).weaken (fun t h => h.1) fun rows t h =>
    ⟨Entry.mk key (plan.inputs key) row, rfl, h⟩

end Steps

section Runs

variable {suiteDir : Path} {f : Frozen} {plan : SuitePlan} {entries : List Entry}
  {k : DigitTable} {completed : List (Option CaseKey)} {call : SuiteCall} {event : String}
  {before : Option Node} {t : FileTree}

/-- What a call leaves that has gone through the schedule from these entries on: the summary of all
rows, or the summary from before if there was nothing to evaluate. -/
structure Finished (suiteDir : Path) (f : Frozen) (entries : List Entry) (before : Option Node)
    (new : List Entry) (t : FileTree) : Prop where
  stands : SuiteStands suiteDir f (entries ++ new) t
  all : (entries ++ new).map Entry.key = f.schedule
  same : new = [] → t.get? (summaryPath suiteDir) = before
  summary : new ≠ [] → SummaryOf suiteDir f ((entries ++ new).map Entry.row) t

theorem Finished.cons {e : Entry} {new : List Entry} {t' : FileTree}
    (h : Finished suiteDir f (entries ++ [e]) (t.get? (summaryPath suiteDir)) new t')
    (summary : SummaryOf suiteDir f ((entries ++ [e]).map Entry.row) t) :
    Finished suiteDir f entries before (e :: new) t' := by
  obtain ⟨stands, all, same, summarised⟩ := h
  have split : entries ++ e :: new = entries ++ [e] ++ new := by simp
  refine ⟨by rwa [split], by rwa [split], fun none => absurd none (by simp), fun _ => ?_⟩
  rw [split]
  cases new with
  | nil =>
    rw [List.append_nil]
    exact summary.of_get? (same rfl)
  | cons e' new => exact summarised (by simp)

/-- Pairs that are completed are skipped. -/
theorem evaluatePairs_skip {rows : List Json} {done : List CaseKey}
    (h : ∀ key ∈ done, completed.contains (some key) = true) (rest : List CaseKey) :
    evaluatePairs k plan completed rows (done ++ rest) = evaluatePairs k plan completed rows rest := by
  induction done with
  | nil => rfl
  | cons key done ih =>
    rw [List.cons_append, evaluatePairs, if_pos (h key List.mem_cons_self)]
    exact ih fun key hk => h key (List.mem_cons_of_mem _ hk)

/-- The pairs that are left are evaluated one after the other. -/
theorem evaluatePairs_stands (follows : Follows suiteDir f plan) {rest : List CaseKey}
    (left : ∀ key ∈ rest, completed.contains (some key) = false)
    (all : entries.map Entry.key ++ rest = f.schedule) :
    Triple (fun t => SuiteStands suiteDir f entries t ∧ t.get? (summaryPath suiteDir) = before)
      (evaluatePairs k plan completed (entries.map Entry.row) rest) (Going suiteDir f entries)
      (fun _ t => ∃ new, Finished suiteDir f entries before new t) (Extends suiteDir f entries) := by
  induction rest generalizing entries before with
  | nil =>
    rw [List.append_nil] at all
    refine Triple.pure fun t h => ⟨[], ?_, ?_, fun _ => h.2, fun some => absurd rfl some⟩
    · rw [List.append_nil]
      exact h.1
    · rwa [List.append_nil]
  | cons key rest ih =>
    have evaluated : completed.contains (some key) = false := left key List.mem_cons_self
    rw [evaluatePairs, if_neg (by rw [evaluated]; simp)]
    have next : entries.map Entry.key ++ [key] <+: f.schedule := ⟨rest, by simpa using all⟩
    have first := (evaluatePair_stands (k := k) follows next).weaken
      (fun t (h : _ ∧ t.get? (summaryPath suiteDir) = before) => h.1) fun _ _ h => h
    refine first.bind fun rows t ⟨e, same, made, stands, summary⟩ => ?_
    subst made
    have others : (entries ++ [e]).map Entry.key ++ rest = f.schedule := by simpa [same] using all
    obtain ⟨trace, ok, error⟩ := ih (fun key hk => left key (List.mem_cons_of_mem _ hk)) others t
      ⟨stands, rfl⟩
    refine ⟨fun e he => (trace e he).of_append, fun rows hr => ?_, fun e he => (error e he).of_append⟩
    obtain ⟨new, finished⟩ := ok rows hr
    exact ⟨e :: new, finished.cons summary⟩

theorem keysRead (follows : Follows suiteDir f plan) (h : SuiteStands suiteDir f entries t)
    {rows : List Json} (read : readProgress plan.progress (ledgerPath plan.context.suiteDir) t =
      .ok rows) : rows = entries.map Entry.row := by
  have listed : ∀ e ∈ entries.map Entry.listing, Listed plan.progress e.1 e.2 :=
    List.forall_mem_map.mpr fun e he => (follows.planned (h.stands e he)).listed _ _
  have rows : entries.map Entry.row = (entries.map Entry.listing).map Prod.snd := by
    simp [Entry.listing, Function.comp_def]
  have holds : LedgerHolds plan.progress.suiteDir ((entries.map Entry.listing).map Prod.snd) t := by
    rw [← rows]
    change LedgerHolds plan.context.suiteDir _ t
    rw [follows.suiteDir]
    exact h.ledger
  rw [rows]
  exact (readProgress_inv holds listed read).1

theorem evaluatePairs_ledger (follows : Follows suiteDir f plan)
    (ordered : entries.map Entry.key <+: f.schedule) :
    Triple (fun t => SuiteStands suiteDir f entries t ∧ t.get? (summaryPath suiteDir) = before)
      (evaluatePairs k plan ((entries.map Entry.key).map some) (entries.map Entry.row) plan.schedule)
      (Going suiteDir f entries) (fun _ t => ∃ new, Finished suiteDir f entries before new t)
      (Extends suiteDir f entries) := by
  obtain ⟨rest, all⟩ := ordered
  rw [follows.schedule, ← all, evaluatePairs_skip]
  · refine evaluatePairs_stands follows (fun key hk => ?_) all
    have once := f.schedule_nodup
    rw [← all] at once
    have unseen : key ∉ entries.map Entry.key := fun seen =>
      List.disjoint_of_nodup_append once seen hk
    simpa using unseen
  · intro key hk
    rw [List.contains_iff_mem]
    exact List.mem_map_of_mem hk

/-- Going on from the ledger evaluates the pairs that are not in it. -/
theorem continueSuite_stands (follows : Follows suiteDir f plan) :
    Triple (fun t => SuiteStands suiteDir f entries t ∧ t.get? (summaryPath suiteDir) = before)
      (continueSuite k call event plan) (Going suiteDir f entries)
      (fun _ t => ∃ new, Finished suiteDir f entries before new t) (Extends suiteDir f entries) := by
  refine Triple.read_bind (fun t h => h.1.extends) fun rows => ?_
  refine Triple.knowing (fun t h => keysRead follows h.1.1 h.2) fun read => ?_
  subst read
  refine Triple.weaken ?_ (fun t h => h.1) fun _ _ h => h
  have keeps : Keeps (suiteView suiteDir) (appendJsonl (eventsPath suiteDir)
      (eventPayload event call (entries.map Entry.row).length)) :=
    appendJsonl_view _ (by simp) (by simp) (by simp)
  have announced : Triple
      (fun t => SuiteStands suiteDir f entries t ∧ t.get? (summaryPath suiteDir) = before)
      (appendJsonl (eventsPath suiteDir) (eventPayload event call (entries.map Entry.row).length))
      (Going suiteDir f entries)
      (fun _ t => SuiteStands suiteDir f entries t ∧ t.get? (summaryPath suiteDir) = before)
      (Extends suiteDir f entries) := by
    refine Triple.returning ((SuiteStands.quiet keeps (Tame.appendJsonl _ _)).weaken
      (fun t h => h.1) fun _ _ h => h) fun t u t' h returns => ?_
    have view := returns.keeps keeps
    exact (congrArg (fun files => files.2.2) view).trans h.2
  rw [follows.suiteDir]
  refine Triple.bind announced fun _ => Triple.knowing (fun t h => h.1.stands) fun stands => ?_
  refine Triple.knowing (fun t h => h.1.ordered) fun ordered => ?_
  refine Triple.lift_bind (fun t h => h.1.extends) fun completed observed => ?_
  rw [observed_entries follows stands ordered] at observed
  rw [← Except.ok.inj observed]
  exact Triple.bind (evaluatePairs_ledger follows ordered) fun _ => Triple.pure fun t h => h

end Runs

end EdgecaseForge

import EdgecaseForge.SuiteLoops
import EdgecaseForge.TransitionRuns

namespace EdgecaseForge

open Text Effect Program Binary64 Transition

namespace SuiteCall

/-- The suite directory that a call is for. -/
def suiteDir (call : SuiteCall) : Path :=
  call.resumeDir.getD (freshDir call)

def selectedCases (call : SuiteCall) : List Str :=
  call.caseIds.getD EdgecaseForge.caseIds

def schedule (call : SuiteCall) : List CaseKey :=
  EdgecaseForge.schedule call.repetitions.toNat call.selectedCases

end SuiteCall

section Pairs

variable {suiteDir : Path} {rows rows' : List Json} {keys keys' : List CaseKey} {t t' : FileTree}

/-- The lines of the ledger decode to these rows. -/
structure LedgerRows (suiteDir : Path) (rows : List Json) (t : FileTree) : Prop where
  holds : LedgerHolds suiteDir rows t
  decoded : ∀ row ∈ rows, row.distinct = true ∧ row.printable = true

/-- The pair that a row is about. -/
structure PairRow (key : CaseKey) (row : Json) : Prop where
  repetition : row.get (lit "repetition") = .int key.repetition
  caseId : row.get (lit "case_id") = .str key.caseId

/-- The ledger has a row for each of these pairs, in their order. -/
def LedgerPairs (suiteDir : Path) (keys : List CaseKey) (t : FileTree) : Prop :=
  ∃ rows, LedgerRows suiteDir rows t ∧ List.Forall₂ PairRow keys rows

/-- Rows that can be decoded are the same if their lines are. -/
theorem ledgerText_inj (hd : ∀ row ∈ rows, row.distinct = true ∧ row.printable = true)
    (hd' : ∀ row ∈ rows', row.distinct = true ∧ row.printable = true)
    (h : ledgerText rows = ledgerText rows') : rows = rows' := by
  induction rows generalizing rows' with
  | nil => exact (ledgerText_eq_nil h.symm).symm
  | cons row rows ih =>
    cases rows' with
    | nil => exact absurd (ledgerText_eq_nil h) (by simp)
    | cons row' rows' =>
      obtain ⟨⟨distinct, printable⟩, others⟩ := List.forall_mem_cons.mp hd
      obtain ⟨⟨distinct', printable'⟩, others'⟩ := List.forall_mem_cons.mp hd'
      rw [ledgerText_cons, ledgerText_cons] at h
      have ends := Json.ends_blank (c := lineFeed) (by decide)
      obtain ⟨size, large⟩ : ∃ n, n = (rowText row).length + (rowText row').length := ⟨_, rfl⟩
      have scan := Json.scanValue_encode Json.compact_readable row (2 * size + 1) size 0
        (lineFeed :: ledgerText rows) distinct printable (by rw [large, rowText]; omega)
        (by rw [large, rowText]; omega) (ends _)
      have scan' := Json.scanValue_encode Json.compact_readable row' (2 * size + 1) size 0
        (lineFeed :: ledgerText rows') distinct' printable' (by rw [large]; simp only [rowText]; omega)
        (by rw [large]; simp only [rowText]; omega) (ends _)
      have same := scan.symm.trans ((congrArg _ h).trans scan')
      obtain ⟨rfl, rest⟩ := Prod.mk.inj (Except.ok.inj same)
      rw [ih others others' (List.cons.inj rest).2]

theorem LedgerRows.unique (h : LedgerRows suiteDir rows t) (h' : LedgerRows suiteDir rows' t) :
    rows = rows' := by
  have text := (utf8Decode_encode h.holds).symm.trans (utf8Decode_encode h'.holds)
  exact ledgerText_inj h.decoded h'.decoded (Option.some.inj text)

theorem pairRow_unique : Relator.LeftUnique PairRow := by
  intro key row key' h h'
  have repetition := Json.int.inj (h.repetition.symm.trans h'.repetition)
  exact CaseKey.ext (Int.ofNat_inj.mp repetition) (Json.str.inj (h.caseId.symm.trans h'.caseId))

theorem LedgerPairs.unique (h : LedgerPairs suiteDir keys t) (h' : LedgerPairs suiteDir keys' t) :
    keys = keys' := by
  obtain ⟨rows, decoded, each⟩ := h
  obtain ⟨rows', decoded', each'⟩ := h'
  rw [decoded.unique decoded'] at each
  exact List.left_unique_forall₂' pairRow_unique each each'

variable {f : Frozen} {entries : List Entry}

theorem SuiteStands.decoded (h : SuiteStands suiteDir f entries t) :
    LedgerRows suiteDir (entries.map Entry.row) t :=
  ⟨h.ledger, List.forall_mem_map.mpr fun e he =>
    ⟨(h.stands e he).ledgerRow.distinct, (h.stands e he).printable⟩⟩

theorem SuiteStands.pairs (h : SuiteStands suiteDir f entries t) :
    LedgerPairs suiteDir (entries.map Entry.key) t := by
  refine ⟨entries.map Entry.row, h.decoded, ?_⟩
  rw [List.forall₂_map_left_iff, List.forall₂_map_right_iff, List.forall₂_same]
  exact fun e he => ⟨(h.stands e he).ledgerRow.repetition, (h.stands e he).ledgerRow.caseId⟩

/-- Nothing of a suite is there yet. -/
structure Bare (suiteDir : Path) (t : FileTree) : Prop where
  config : t.get? (configPath suiteDir) = none
  ledger : t.get? (ledgerPath suiteDir) = none
  summary : t.get? (summaryPath suiteDir) = none

theorem Bare.pairs (h : Bare suiteDir t) : LedgerPairs suiteDir [] t :=
  ⟨[], ⟨ledgerHolds_nil h.ledger, List.forall_mem_nil _⟩, .nil⟩

end Pairs

section Calls

variable {suiteDir : Path} {f : Frozen} {entries : List Entry} {k : DigitTable} {call : SuiteCall}
  {before : Option Node} {t : FileTree} {frozen suiteId : Json} {selectedCases : List Str}
  {preflight : Preflight}

theorem checkCall_ok (h : checkCall call = .ok selectedCases) :
    validateCases call.caseIds = .ok selectedCases ∧ selectedCases = call.selectedCases := by
  obtain ⟨selected, validated, h⟩ := Except.bind_eq_ok.mp h
  iterate 5 obtain ⟨_, -, h⟩ := Except.bind_eq_ok.mp h
  cases h
  refine ⟨validated, ?_⟩
  unfold validateCases at validated
  dsimp only at validated
  split_ifs at validated
  exact (Except.ok.inj validated).symm

/-- The configuration has the repetitions and the cases of a call. -/
structure ScheduledFor (call : SuiteCall) (f : Frozen) : Prop where
  repetitions : f.repetitions = call.repetitions.toNat
  selectedCases : f.selectedCases = call.selectedCases

theorem ScheduledFor.schedule (h : ScheduledFor call f) : f.schedule = call.schedule := by
  rw [Frozen.schedule, h.repetitions, h.selectedCases, SuiteCall.schedule]

/-- A suite is resumed under the configuration that it was frozen with. -/
theorem resumedId_ok (h : Written (configPath suiteDir) f.config t)
    (ok : resumedId suiteDir frozen t = .ok suiteId) :
    suiteId = .str f.suiteId ∧ f.json.pyEq frozen = true := by
  obtain ⟨config, read, ok⟩ := Except.bind_eq_ok.mp ok
  rw [h.readJson] at read
  cases read
  obtain ⟨version, -, ok⟩ := Except.bind_eq_ok.mp ok
  obtain ⟨_, -, ok⟩ := Except.bind_eq_ok.mp ok
  obtain ⟨id, subscripted, ok⟩ := Except.bind_eq_ok.mp ok
  obtain ⟨written, got, ok⟩ := Except.bind_eq_ok.mp ok
  obtain ⟨_, equal, ok⟩ := Except.bind_eq_ok.mp ok
  cases ok
  have there := subscript_ok subscripted
  have there' := dictGet_ok got
  rw [Frozen.config, suiteConfig, Json.get?_object] at there there'
  cases there
  cases there'
  exact ⟨rfl, Except.check_eq_ok.mp equal⟩

/-- A suite that was opened under the configuration that it was frozen with. -/
structure Opened (suiteDir : Path) (f : Frozen) (frozen : Json) (suite : OpenSuite) : Prop where
  directory : suite.suiteDir = suiteDir
  suiteId : suite.suiteId = .str f.suiteId
  equal : f.json.pyEq frozen = true

theorem Opened.follows {suite : OpenSuite} (h : Opened suiteDir f frozen suite)
    (made : frozenConfig preflight call.installation call.repetitions.toNat selectedCases
      call.executionBackend = .ok frozen) :
    Follows suiteDir f (planOf call preflight selectedCases suite) := by
  obtain ⟨repetitions, cases_, hashes⟩ := frozenConfig_inj f.made made h.equal
  obtain ⟨-, agent, -⟩ := call.installed
  refine ⟨h.directory, fun caseId => (hashes caseId).symm, repetitions.symm, cases_.symm,
    preflight.decoded, ?_, agent⟩
  change suite.suiteId.distinct = true
  rw [h.suiteId]
  rfl

/-- A suite that stands is not started once more. -/
theorem startSuite_stands (same : freshDir call = suiteDir) :
    Triple (fun t => SuiteStands suiteDir f entries t ∧ t.get? (summaryPath suiteDir) = before)
      (startSuite call frozen) (Going suiteDir f entries) (fun _ _ => False)
      (Extends suiteDir f entries) := by
  have refused : ∀ t, SuiteStands suiteDir f entries t →
      FileTree.mkdir false (freshDir call) t = (t, .error .fileExistsError) := by
    intro t h
    rw [FileTree.mkdir, if_pos (by rw [same]; exact h.made)]
    rfl
  have first : Triple
      (fun t => SuiteStands suiteDir f entries t ∧ t.get? (summaryPath suiteDir) = before)
      (Disk.mkdir false (freshDir call)) (Going suiteDir f entries) (fun _ _ => False)
      (Extends suiteDir f entries) := by
    refine Triple.act (fun t h => ?_) (fun t _ h ok => ?_) fun t _ h _ => ?_
    · rw [refused t h.1]
      exact h.1.going
    · rw [refused t h.1] at ok
      cases ok
    · rw [refused t h.1]
      exact h.1.extends
  exact first.bind fun _ t h => h.elim

theorem openSuite_stands (same : call.suiteDir = suiteDir) :
    Triple (fun t => SuiteStands suiteDir f entries t ∧ t.get? (summaryPath suiteDir) = before)
      (openSuite call frozen) (Going suiteDir f entries)
      (fun suite t => (SuiteStands suiteDir f entries t ∧
        t.get? (summaryPath suiteDir) = before) ∧ Opened suiteDir f frozen suite)
      (Extends suiteDir f entries) := by
  unfold SuiteCall.suiteDir at same
  unfold openSuite
  split
  next fresh =>
    rw [fresh] at same
    exact (startSuite_stands same).weaken (fun _ h => h) fun _ _ h => h.elim
  next resumed =>
    rw [resumed] at same
    cases same
    refine Triple.read_bind (fun t h => h.1.extends) fun suiteId => Triple.pure fun t h => ?_
    obtain ⟨id, equal⟩ := resumedId_ok h.1.1.config h.2
    exact ⟨h.1, rfl, id, equal⟩

/-- A call for a suite that stands evaluates the pairs that are left. -/
theorem runFlashcartSuite_stands (same : call.suiteDir = suiteDir) :
    Triple (fun t => SuiteStands suiteDir f entries t ∧ t.get? (summaryPath suiteDir) = before)
      (runFlashcartSuite k call) (Going suiteDir f entries)
      (fun _ t => ScheduledFor call f ∧ ∃ new, Finished suiteDir f entries before new t)
      (Extends suiteDir f entries) := by
  have stops : ∀ t, SuiteStands suiteDir f entries t ∧ t.get? (summaryPath suiteDir) = before →
      Extends suiteDir f entries t := fun t h => h.1.extends
  refine Triple.lift_bind stops fun selectedCases checked => ?_
  refine Triple.lift_bind stops fun preflight _ => Triple.lift_bind stops fun frozen made => ?_
  obtain ⟨-, rfl⟩ := checkCall_ok checked
  refine Triple.bind (openSuite_stands same) fun suite => Triple.knowing (fun t h => h.2) fun opened => ?_
  have follows := opened.follows made
  exact (continueSuite_stands follows).weaken (fun t h => h.1) fun _ t h =>
    ⟨⟨follows.repetitions.symm, follows.selectedCases.symm⟩, h⟩

theorem Bare.of_view {t' : FileTree} (h : Bare suiteDir t)
    (view : suiteView suiteDir t' = suiteView suiteDir t) : Bare suiteDir t' := by
  obtain ⟨config, ledger, summary⟩ := Prod.ext_iff.mp view |>.imp id Prod.ext_iff.mp
  exact ⟨config.trans h.config, ledger.trans h.ledger, summary.trans h.summary⟩

theorem mkdir_view {p : Path} (h : p = suiteDir) (existOk : Bool) :
    Keeps (suiteView suiteDir) (Disk.mkdir existOk p) := by
  subst h
  have file : ∀ name, Keeps (fun t : FileTree => t.get? (p ++ [name])) (Disk.mkdir existOk p) :=
    fun name => Keeps.act fun t => FileTree.mkdir_ne (child_ne_above p name)
  exact Keeps.pair (file _) (Keeps.pair (file _) (file _))

/-- What there is of a suite while it is started. -/
def Starting (suiteDir : Path) (note : Note) (t : FileTree) : Prop :=
  Bare suiteDir t ∧ note = .wrote ∨ ∃ f, Going suiteDir f [] note t

def Started (suiteDir : Path) (t : FileTree) : Prop :=
  Bare suiteDir t ∨ ∃ f, Extends suiteDir f [] t

/-- Where the write of the configuration stops, there is nothing of the suite or an empty ledger. -/
theorem writeConfig_stages {t' : FileTree} (bare : Bare suiteDir t) (made : t.isDir suiteDir = true)
    (h : t' ∈ (writeJsonAtomic (configPath suiteDir) f.config).stages t) :
    t'.get? (summaryPath suiteDir) = none ∧ (Bare suiteDir t' ∨ SuiteStands suiteDir f [] t') ∧
      (Written (configPath suiteDir) f.config t' → SuiteStands suiteDir f [] t') := by
  have outside : ∀ name, ¬ suiteDir ++ [name] <+: (configPath suiteDir).dropLast := by
    intro name
    rw [configPath, dropLast_child]
    exact child_ne_above suiteDir name
  have beside : ∀ {name : Str}, name ≠ lit "suite-config.json" →
      name ≠ lit "suite-config.json" ++ lit ".tmp" →
      t'.get? (suiteDir ++ [name]) = t.get? (suiteDir ++ [name]) := fun hn ht =>
    (writeJsonAtomic_keeps (by simpa [configPath] using hn)
      (by simpa [configPath, temporaryPath] using ht) (outside _)).stages h
  have ledger : t'.get? (ledgerPath suiteDir) = none :=
    (beside (by simp) (by decide)).trans bare.ledger
  have summary : t'.get? (summaryPath suiteDir) = none :=
    (beside (by simp) (by decide)).trans bare.summary
  have stands : Written (configPath suiteDir) f.config t' → SuiteStands suiteDir f [] t' :=
    fun written => ⟨(Tame.writeJsonAtomic _ _).stages h made, written, ledgerHolds_nil ledger,
      List.forall_mem_nil _, List.nil_prefix, Or.inl summary⟩
  refine ⟨summary, ?_, stands⟩
  rcases writeJsonAtomic_stages (outside _) f.config_distinct h with same | written
  · exact Or.inl ⟨same.trans bare.config, ledger, summary⟩
  · exact Or.inr (stands written)

theorem writeConfig_bare : Triple (fun t => Bare suiteDir t ∧ t.isDir suiteDir = true)
    (writeJsonAtomic (configPath suiteDir) f.config) (Starting suiteDir)
    (fun _ t => SuiteStands suiteDir f [] t ∧ t.get? (summaryPath suiteDir) = none)
    (Started suiteDir) := by
  intro t ⟨bare, made⟩
  have tame := Tame.writeJsonAtomic (configPath suiteDir) f.config
  have last : ((writeJsonAtomic (configPath suiteDir) f.config) t).state ∈
      (writeJsonAtomic (configPath suiteDir) f.config).stages t :=
    List.mem_append_right _ List.mem_cons_self
  refine ⟨fun e he => ?_, fun u hu => ?_, fun _ _ => ?_⟩
  · have stage : e.2 ∈ (writeJsonAtomic (configPath suiteDir) f.config).stages t :=
      List.mem_append_left _ (List.mem_map_of_mem he)
    rw [Starting, tame.wrote he]
    rcases (writeConfig_stages bare made stage).2.1 with bare | stands
    · exact Or.inl ⟨bare, rfl⟩
    · exact Or.inr ⟨f, stands.going⟩
  · obtain ⟨summary, -, stands⟩ := writeConfig_stages bare made last
    exact ⟨stands (writeJsonAtomic_written f.config_distinct ⟨hu, rfl⟩), summary⟩
  · rcases (writeConfig_stages bare made last).2.1 with bare | stands
    · exact Or.inl bare
    · exact Or.inr ⟨f, stands.extends⟩

theorem startSuite_bare (same : freshDir call = suiteDir) (id : f.suiteId = call.startedAt) :
    Triple (Bare suiteDir) (startSuite call f.json) (Starting suiteDir)
      (fun suite t => (SuiteStands suiteDir f [] t ∧ t.get? (summaryPath suiteDir) = none) ∧
        Opened suiteDir f f.json suite) (Started suiteDir) := by
  subst same
  have kept : Keeps (suiteView (freshDir call)) (Disk.mkdir false (freshDir call)) :=
    mkdir_view rfl false
  have bare : ∀ t, Bare (freshDir call) t →
      Bare (freshDir call) (FileTree.mkdir false (freshDir call) t).1 :=
    fun t h => h.of_view (kept t).2
  have first : Triple (Bare (freshDir call)) (Disk.mkdir false (freshDir call))
      (Starting (freshDir call))
      (fun _ t => Bare (freshDir call) t ∧ t.isDir (freshDir call) = true)
      (Started (freshDir call)) :=
    Triple.act (fun t h => Or.inl ⟨bare t h, rfl⟩)
      (fun t _ h ok => ⟨bare t h, FileTree.mkdir_made ok⟩) fun t _ h _ => Or.inl (bare t h)
  have number : f.json.isNaN = false := by
    obtain ⟨_, _, made⟩ := frozenConfig_ok f.made
    rw [made]
    rfl
  have second : Triple
      (fun t => Bare (freshDir call) t ∧ t.isDir (freshDir call) = true)
      (writeJsonAtomic (configPath (freshDir call)) f.config) (Starting (freshDir call))
      (fun _ t => SuiteStands (freshDir call) f [] t ∧
        t.get? (summaryPath (freshDir call)) = none) (Started (freshDir call)) := writeConfig_bare
  rw [Frozen.config, id] at second
  refine Triple.bind first fun _ => Triple.bind second fun _ => Triple.pure fun t h => ?_
  exact ⟨h, rfl, by rw [id], Json.pyEq_self f.json_distinct number⟩

theorem openSuite_bare (same : call.suiteDir = suiteDir) (id : f.suiteId = call.startedAt) :
    Triple (Bare suiteDir) (openSuite call f.json) (Starting suiteDir)
      (fun suite t => (SuiteStands suiteDir f [] t ∧ t.get? (summaryPath suiteDir) = none) ∧
        Opened suiteDir f f.json suite) (Started suiteDir) := by
  unfold SuiteCall.suiteDir at same
  unfold openSuite
  split
  next fresh =>
    rw [fresh] at same
    exact startSuite_bare same id
  next resumed =>
    rw [resumed] at same
    cases same
    refine Triple.read_bind (fun t h => Or.inl h) fun suiteId => Triple.pure fun t h => ?_
    obtain ⟨config, read, -⟩ := Except.bind_eq_ok.mp h.2
    obtain ⟨_, there⟩ := get?_of_readJson read
    cases h.1.config.symm.trans there

/-- A call for a suite that is not there yet writes nothing of it, or starts it. -/
theorem runFlashcartSuite_bare (same : call.suiteDir = suiteDir) :
    Triple (Bare suiteDir) (runFlashcartSuite k call) (Starting suiteDir)
      (fun _ t => ∃ f, ScheduledFor call f ∧ ∃ new, Finished suiteDir f [] none new t)
      (Started suiteDir) := by
  have stops : ∀ t, Bare suiteDir t → Started suiteDir t := fun t h => Or.inl h
  refine Triple.lift_bind stops fun selectedCases checked => ?_
  refine Triple.lift_bind stops fun preflight _ => Triple.lift_bind stops fun frozen made => ?_
  obtain ⟨validated, rfl⟩ := checkCall_ok checked
  obtain ⟨f, schedule, id, rfl⟩ : ∃ f, ScheduledFor call f ∧ f.suiteId = call.startedAt ∧
      f.json = frozen :=
    ⟨⟨preflight, call.installation, call.repetitions.toNat, call.selectedCases,
      call.executionBackend, call.startedAt, frozen, made, ⟨_, validated⟩, call.installed⟩,
      ⟨rfl, rfl⟩, rfl, rfl⟩
  refine Triple.bind (openSuite_bare same id) fun suite =>
    Triple.knowing (fun t h => h.2) fun opened => ?_
  intro t h
  obtain ⟨trace, ok, error⟩ := continueSuite_stands (opened.follows made) t h.1
  exact ⟨fun e he => Or.inr ⟨f, trace e he⟩, fun directory hr => ⟨f, schedule, ok directory hr⟩,
    fun e he => Or.inr ⟨f, error e he⟩⟩

end Calls

end EdgecaseForge

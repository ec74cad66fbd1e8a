import EdgecaseForge.SuiteRuns

namespace EdgecaseForge

open Text Effect Program

/-- Every operation of a program is a write, and what is a directory remains one. -/
def Tame {α : Type} (m : Disk α) : Prop :=
  ∀ q, Triple (fun t : FileTree => t.isDir q = true) m
    (fun note t => note = .wrote ∧ t.isDir q = true) (fun _ t => t.isDir q = true)
    fun t => t.isDir q = true

namespace Tame

variable {α β : Type} {p q : Path} {t t' : FileTree}

theorem pure (a : α) : Tame (Pure.pure a : Disk α) :=
  fun _ => Triple.pure fun _ h => h

theorem read (f : FileTree → Except PyError α) : Tame (Disk.read f) :=
  fun _ => Triple.inspect (fun _ _ h _ => h) fun _ h => h

theorem lift (x : Except PyError α) : Tame (Program.lift x : Disk α) :=
  fun _ => Triple.inspect (fun _ _ h _ => h) fun _ h => h

theorem bind {m : Disk α} {f : α → Disk β} (hm : Tame m) (hf : ∀ a, Tame (f a)) :
    Tame (m >>= f) :=
  fun q => (hm q).bind fun a => hf a q

theorem attempt {m : Disk α} (hm : Tame m) : Tame m.attempt := by
  intro q t h
  obtain ⟨trace, ok, error⟩ := hm q t h
  refine ⟨trace, fun x _ => ?_, fun e he => by cases he⟩
  change (m t).state.isDir q = true
  cases hr : (m t).result with
  | ok a => exact ok a hr
  | error e => exact error e hr

theorem write {f : FileTree → FileTree × Except PyError Unit}
    (h : ∀ t q, t.get? q = some .dir → (f t).1.get? q = some .dir) : Tame (Disk.write f) := by
  intro q
  have kept : ∀ t : FileTree, t.isDir q = true → (f t).1.isDir q = true := by
    intro t hd
    rcases isDir_iff.mp hd with rfl | hd
    · exact isDir_iff.mpr (Or.inl rfl)
    · exact isDir_iff.mpr (Or.inr (h t q hd))
  exact Triple.act (fun t hd => ⟨rfl, kept t hd⟩) (fun t _ hd _ => kept t hd) fun t _ hd _ => kept t hd

theorem mkdir (existOk : Bool) (p : Path) : Tame (Disk.mkdir existOk p) :=
  write fun _ _ h => FileTree.mkdir_of_some h

theorem writeText (p : Path) (s : Str) : Tame (Disk.writeText p s) :=
  write fun _ _ => writeText_dir

theorem writeJsonAtomic (p : Path) (payload : Json) : Tame (EdgecaseForge.writeJsonAtomic p payload) :=
  bind (mkdir _ _) fun _ => bind (lift _) fun _ => write fun _ _ => replaceText_dir

theorem appendJsonl (p : Path) (payload : Json) : Tame (EdgecaseForge.appendJsonl p payload) := by
  refine write fun t q hd => ?_
  unfold appendLine
  split
  next => exact hd
  next ho =>
    have other := openable_ne ho hd
    split
    · exact (Dict.get?_set_ne other).trans hd
    · exact (Dict.get?_set_ne other).trans hd

/-- What is a directory is one wherever the program stops. -/
theorem stages {m : Disk α} (hm : Tame m) (h : t' ∈ m.stages t) (hd : t.isDir q = true) :
    t'.isDir q = true :=
  (hm q).stages (fun _ _ h => h.2) (fun _ _ h => h) (fun _ h => h) hd h

theorem wrote {m : Disk α} (hm : Tame m) {e : Note × FileTree} (h : e ∈ (m t).trace) :
    e.1 = .wrote :=
  ((hm [] t rfl).1 e h).1

end Tame

section Cases

variable {context : SuiteContext} {key : CaseKey}

theorem writeJson_tame (p : Path) (payload : Json) : Tame (writeJson p payload) :=
  Tame.bind (Tame.lift _) fun _ => Tame.writeText _ _

theorem writeSideFiles_tame (runDir : Path) (files : List (String × Str)) :
    Tame (writeSideFiles runDir files) := by
  induction files with
  | nil => exact Tame.pure ()
  | cons file files ih => exact Tame.bind (Tame.writeText _ _) fun _ => ih

theorem scan_tame (outputRoot : Path) (caseId : Str) (input : ScanInput) :
    Tame (scan outputRoot caseId input) := by
  refine Tame.bind (Tame.mkdir _ _) fun _ => Tame.bind (Tame.lift _) fun result => ?_
  obtain ⟨analysis, result⟩ := result
  refine Tame.bind ?_ fun _ => Tame.bind (writeJson_tame _ _) fun _ =>
    Tame.bind (writeSideFiles_tame _ _) fun _ => Tame.pure _
  unfold writeGeneratedTest
  split
  · exact Tame.writeText _ _
  · exact Tame.pure ()

theorem executeSide_tame (role : String) (evidenceDir : Path) (testSha256 : Str)
    (execution : Except PyError NeutralExecution) :
    Tame (executeSide role evidenceDir testSha256 execution) := by
  refine Tame.bind (Tame.lift _) fun _ => Tame.bind ?_ fun _ => Tame.pure _
  refine Tame.bind (Tame.mkdir _ _) fun _ => Tame.bind (Tame.writeText _ _) fun _ =>
    Tame.bind (Tame.writeText _ _) fun _ => Tame.bind ?_ fun _ => Tame.bind (Tame.read _) fun _ =>
    Tame.bind (Tame.read _) fun _ => Tame.bind (Tame.read _) fun _ => Tame.writeJsonAtomic _ _
  unfold writeUnlessEmpty
  split
  · exact Tame.pure ()
  · exact Tame.writeText _ _

theorem executeMutant_tame (caseId : Str) (evidenceDir : Path) (testSha256 : Str)
    (execution : Except PyError NeutralExecution) :
    Tame (executeMutant caseId evidenceDir testSha256 execution) := by
  unfold executeMutant
  split
  · exact Tame.pure _
  · exact Tame.bind (executeSide_tame _ _ _ _) fun _ => Tame.pure _

theorem evaluateTest_tame (input : CaseInput) (expectedCase : Json)
    (agentRepoSha256 : Sha256.Digest) (relative : Path) (report : Json) :
    Tame (evaluateTest context key input expectedCase agentRepoSha256 relative report) :=
  Tame.bind (Tame.read _) fun _ => Tame.bind (executeSide_tame _ _ _ _) fun _ =>
    Tame.bind (executeMutant_tame _ _ _ _) fun _ => Tame.bind (Tame.lift _) fun _ =>
    Tame.bind (Tame.lift _) fun _ => Tame.bind (Tame.writeJsonAtomic _ _) fun _ =>
    Tame.bind (Tame.read _) fun _ => Tame.bind (Tame.read _) fun _ =>
    Tame.bind (Tame.lift _) fun _ => Tame.lift _

theorem evaluateScan_tame (input : CaseInput) (expectedCase : Json)
    (agentRepoSha256 : Sha256.Digest) :
    Tame (evaluateScan context key input expectedCase agentRepoSha256) := by
  refine Tame.bind (Tame.read _) fun report => Tame.bind (Tame.read _) fun generated => ?_
  split
  · exact evaluateTest_tame _ _ _ _ _
  · exact Tame.bind (Tame.lift _) fun _ => Tame.bind (Tame.read _) fun _ => Tame.lift _

theorem scanFailed_tame (agentRepoSha256 : Sha256.Digest) (e : PyError) :
    Tame (scanFailed context key agentRepoSha256 e) := by
  unfold scanFailed
  split
  · split
    · exact Tame.bind (Tame.lift _) fun _ => Tame.pure _
    · exact Tame.lift _
  · exact Tame.lift _

/-- The evaluation of a case notes no evaluation of its own. -/
theorem runCase_tame (expectedCase : Json) (input : CaseInput) :
    Tame (runCase context key expectedCase input) := by
  refine Tame.bind (Tame.lift _) fun _ => Tame.bind (Tame.attempt (scan_tame _ _ _)) fun scanned => ?_
  cases scanned with
  | ok runDir => exact evaluateScan_tame _ _ _
  | error e => exact scanFailed_tame _ _

theorem writeSummary_tame (k : DigitTable) (suiteDir : Path) (settings : SummarySettings)
    (rows : List Json) : Tame (writeSummary k suiteDir settings rows) :=
  Tame.bind (Tame.lift _) fun _ => Tame.bind (Tame.read _) fun _ => Tame.bind (Tame.lift _) fun _ =>
    Tame.bind (Tame.lift _) fun _ => Tame.bind (Tame.lift _) fun _ => Tame.writeJsonAtomic _ _

end Cases

end EdgecaseForge

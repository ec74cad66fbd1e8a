import EdgecaseForge.CaseEvaluation

namespace EdgecaseForge

open Text Effect Program

section Below

/-- A program changes nothing but what is below a directory, and the directories above it. -/
def StaysBelow {α : Type} (root : Path) (m : Disk α) : Prop :=
  ∀ q, ¬ root <+: q → ¬ q <+: root → Keeps (fun t : FileTree => t.get? q) m

variable {α β : Type} {root p q : Path}

theorem StaysBelow.pure (a : α) : StaysBelow root (Pure.pure a : Disk α) :=
  fun _ _ _ => Keeps.pure a

theorem StaysBelow.read (f : FileTree → Except PyError α) : StaysBelow root (Disk.read f) :=
  fun _ _ _ => Keeps.inspect f

theorem StaysBelow.lift (x : Except PyError α) : StaysBelow root (Program.lift x : Disk α) :=
  fun _ _ _ => Keeps.lift x

theorem StaysBelow.raise (e : PyError) : StaysBelow root (Disk.raise e : Disk α) :=
  fun _ _ _ => Keeps.lift _

theorem StaysBelow.bind {m : Disk α} {f : α → Disk β} (hm : StaysBelow root m)
    (hf : ∀ a, StaysBelow root (f a)) : StaysBelow root (m >>= f) :=
  fun q hq hr => Keeps.bind (hm q hq hr) fun a => hf a q hq hr

theorem StaysBelow.attempt {m : Disk α} (hm : StaysBelow root m) :
    StaysBelow root (Program.attempt m) :=
  fun q hq hr => Keeps.attempt (hm q hq hr)

theorem StaysBelow.write {f : FileTree → FileTree × Except PyError Unit}
    (h : ∀ q t, ¬ root <+: q → ¬ q <+: root → (f t).1.get? q = t.get? q) :
    StaysBelow root (Disk.write f) :=
  fun q hq hr => Keeps.act fun t => h q t hq hr

theorem StaysBelow.mono {m : Disk α} {above : Path} (h : StaysBelow root m) (hp : above <+: root) :
    StaysBelow above m :=
  fun q hq hr => h q (fun hr' => hq (hp.trans hr')) fun hr' => by
    rcases List.prefix_or_prefix_of_prefix hr' hp with h | h
    · exact hr h
    · exact hq h

theorem StaysBelow.mkdir {existOk : Bool} (hp : root <+: p) :
    StaysBelow root (Disk.mkdir existOk p) :=
  StaysBelow.write fun q t hq hr => FileTree.mkdir_ne fun hqp => by
    rcases List.prefix_or_prefix_of_prefix hp hqp with h | h
    · exact hq h
    · exact hr h

theorem ne_of_below (hp : root <+: p) (hq : ¬ root <+: q) : q ≠ p := by
  rintro rfl
  exact hq hp

theorem StaysBelow.writeBytes {content : Bytes} (hp : root <+: p) :
    StaysBelow root (Disk.writeBytes p content) :=
  StaysBelow.write fun _ _ hq _ => FileTree.writeBytes_ne (ne_of_below hp hq)

theorem StaysBelow.writeText {s : Str} (hp : root <+: p) : StaysBelow root (Disk.writeText p s) :=
  StaysBelow.write fun _ _ hq _ => writeText_ne (ne_of_below hp hq)

theorem StaysBelow.appendJsonl {payload : Json} (hp : root <+: p) :
    StaysBelow root (EdgecaseForge.appendJsonl p payload) :=
  StaysBelow.write fun _ _ hq _ => appendLine_ne (ne_of_below hp hq)

theorem below_child (root : Path) (name : Str) : root <+: root ++ [name] :=
  List.prefix_append root [name]

theorem StaysBelow.writeJsonAtomic {payload : Json} (hp : root <+: p.dropLast) :
    StaysBelow root (EdgecaseForge.writeJsonAtomic p payload) := by
  have whole : root <+: p := hp.trans (List.dropLast_prefix p)
  have temporary : root <+: temporaryPath p := hp.trans (List.prefix_append _ _)
  refine StaysBelow.bind (StaysBelow.mkdir hp) fun _ => StaysBelow.bind (StaysBelow.lift _) fun s =>
    StaysBelow.write fun q t hq _ => ?_
  exact replaceText_ne (ne_of_below whole hq) (ne_of_below temporary hq)

theorem writeJsonAtomic_keeps {payload : Json} (hp : q ≠ p) (ht : q ≠ temporaryPath p)
    (hd : ¬ q <+: p.dropLast) :
    Keeps (fun t : FileTree => t.get? q) (EdgecaseForge.writeJsonAtomic p payload) :=
  Keeps.bind (Keeps.act fun _ => FileTree.mkdir_ne hd) fun _ => Keeps.bind (Keeps.lift _) fun _ =>
    Keeps.act fun _ => replaceText_ne hp ht

end Below

section Dirs

variable {α β : Type}

/-- What is a directory remains one. -/
def KeepsDirs (m : Disk α) : Prop :=
  ∀ t q, FileTree.isDir t q = true → FileTree.isDir (m t).state q = true

theorem isDir_iff {t : FileTree} {q : Path} : t.isDir q = true ↔ q = [] ∨ t.get? q = some .dir := by
  simp [FileTree.isDir]

theorem KeepsDirs.returns {m : Disk α} {t t' : FileTree} {a : α} {q : Path} (hm : KeepsDirs m)
    (h : m.Returns t a t') (hd : t.isDir q = true) : t'.isDir q = true := by
  rw [← h.2]
  exact hm t q hd

theorem KeepsDirs.inspect (f : FileTree → Except PyError α) :
    KeepsDirs (Program.inspect f : Disk α) :=
  fun _ _ h => h

theorem KeepsDirs.pure (a : α) : KeepsDirs (Pure.pure a : Disk α) :=
  fun _ _ h => h

theorem KeepsDirs.bind {m : Disk α} {f : α → Disk β} (hm : KeepsDirs m)
    (hf : ∀ a, KeepsDirs (f a)) : KeepsDirs (m >>= f) := by
  intro t q h
  have first := hm t q h
  simp only [Bind.bind]
  cases (m t).result with
  | error e => exact first
  | ok a => exact hf a _ q first

theorem KeepsDirs.write {f : FileTree → FileTree × Except PyError Unit}
    (h : ∀ t q, t.get? q = some .dir → (f t).1.get? q = some .dir) : KeepsDirs (Disk.write f) := by
  intro t q hd
  rcases isDir_iff.mp hd with rfl | hd
  · exact isDir_iff.mpr (Or.inl rfl)
  · exact isDir_iff.mpr (Or.inr (h t q hd))

theorem KeepsDirs.mkdir (existOk : Bool) (p : Path) : KeepsDirs (Disk.mkdir existOk p) :=
  KeepsDirs.write fun _ _ h => FileTree.mkdir_of_some h

theorem openable_ne {t : FileTree} {p q : Path} (ho : t.openable p = .ok ())
    (hd : t.get? q = some .dir) : q ≠ p := by
  rintro rfl
  have isDir := isDir_iff.mpr (Or.inr hd)
  rw [FileTree.openable, if_pos isDir] at ho
  cases ho

theorem writeText_dir {t : FileTree} {p q : Path} {s : Str} (hd : t.get? q = some .dir) :
    (EdgecaseForge.writeText p s t).1.get? q = some .dir := by
  cases ho : t.openable p with
  | error e =>
    rw [EdgecaseForge.writeText, ho]
    exact hd
  | ok u => rw [writeText_ne (openable_ne ho hd), hd]

theorem KeepsDirs.writeText (p : Path) (s : Str) : KeepsDirs (Disk.writeText p s) :=
  KeepsDirs.write fun _ _ => writeText_dir

theorem writeText_openable {t after : FileTree} {p : Path} {s : Str} {u : Unit}
    (h : EdgecaseForge.writeText p s t = (after, .ok u)) : t.openable p = .ok () := by
  cases ho : t.openable p with
  | error e =>
    rw [EdgecaseForge.writeText, ho] at h
    cases h
  | ok u => rfl

theorem replaceText_dir {t : FileTree} {p q : Path} {s : Str} (hd : t.get? q = some .dir) :
    (replaceText p s t).1.get? q = some .dir := by
  have written := writeText_dir hd (p := temporaryPath p) (s := s)
  cases hw : EdgecaseForge.writeText (temporaryPath p) s t with
  | mk after result =>
    rw [hw] at written
    unfold replaceText
    rw [hw]
    cases result with
    | error e => exact written
    | ok u =>
      dsimp only
      split
      next => exact written
      next isDir =>
        have other : q ≠ p := by
          rintro rfl
          exact isDir (isDir_iff.mpr (Or.inr written))
        split
        next node hn =>
          have kept : q ≠ temporaryPath p := by
            rintro rfl
            exact openable_ne (writeText_openable hw) hd rfl
          rw [Dict.get?_erase, if_neg kept, Dict.get?_set_ne other, written]
        next => exact written

theorem KeepsDirs.writeJsonAtomic (p : Path) (payload : Json) :
    KeepsDirs (EdgecaseForge.writeJsonAtomic p payload) :=
  KeepsDirs.bind (KeepsDirs.mkdir _ _) fun _ => KeepsDirs.bind (KeepsDirs.inspect _) fun _ =>
    KeepsDirs.write fun _ _ => replaceText_dir

end Dirs

section Cases

variable {root : Path}

theorem writeJson_below {p : Path} {payload : Json} (hp : root <+: p) :
    StaysBelow root (writeJson p payload) :=
  StaysBelow.bind (StaysBelow.lift _) fun _ => StaysBelow.writeText hp

theorem writeSideFiles_below (runDir : Path) (files : List (String × Str)) :
    StaysBelow runDir (writeSideFiles runDir files) := by
  induction files with
  | nil => exact StaysBelow.pure ()
  | cons file files ih =>
    exact StaysBelow.bind (StaysBelow.writeText (below_child runDir _)) fun _ => ih

theorem scan_below (outputRoot : Path) (caseId : Str) (input : ScanInput) :
    StaysBelow (outputRoot ++ [input.runId.text]) (scan outputRoot caseId input) := by
  have child := fun name : Str => below_child (outputRoot ++ [input.runId.text]) name
  refine StaysBelow.bind (StaysBelow.mkdir (child _)) fun _ =>
    StaysBelow.bind (StaysBelow.lift _) fun result => ?_
  obtain ⟨analysis, result⟩ := result
  refine StaysBelow.bind ?_ fun _ => StaysBelow.bind (writeJson_below (child _)) fun _ =>
    StaysBelow.bind (writeSideFiles_below _ _) fun _ => StaysBelow.pure _
  unfold writeGeneratedTest
  split
  · exact StaysBelow.writeText ((child _).trans (below_child _ _))
  · exact StaysBelow.pure ()

theorem writeExecutionEvidence_below (role : String) (directory : Path) (result : ExecutionResult)
    (hashes : HashPairs) :
    StaysBelow directory (writeExecutionEvidence role directory result hashes) := by
  have child := below_child directory
  refine StaysBelow.bind (StaysBelow.mkdir (List.prefix_refl _)) fun _ =>
    StaysBelow.bind (StaysBelow.writeText (child _)) fun _ =>
    StaysBelow.bind (StaysBelow.writeText (child _)) fun _ => StaysBelow.bind ?_ fun _ =>
    StaysBelow.bind (StaysBelow.read _) fun _ => StaysBelow.bind (StaysBelow.read _) fun _ =>
    StaysBelow.bind (StaysBelow.read _) fun _ => StaysBelow.writeJsonAtomic (by simp)
  unfold writeUnlessEmpty
  split
  · exact StaysBelow.pure ()
  · exact StaysBelow.writeText (child _)

theorem writeSideFiles_dirs (runDir : Path) (files : List (String × Str)) :
    KeepsDirs (writeSideFiles runDir files) := by
  induction files with
  | nil => exact KeepsDirs.pure ()
  | cons file files ih => exact KeepsDirs.bind (KeepsDirs.writeText _ _) fun _ => ih

theorem executeSide_dirs (role : String) (evidenceDir : Path) (testSha256 : Str)
    (execution : Except PyError NeutralExecution) :
    KeepsDirs (executeSide role evidenceDir testSha256 execution) := by
  refine KeepsDirs.bind (KeepsDirs.inspect _) fun _ => KeepsDirs.bind ?_ fun _ => KeepsDirs.pure _
  refine KeepsDirs.bind (KeepsDirs.mkdir _ _) fun _ => KeepsDirs.bind (KeepsDirs.writeText _ _)
    fun _ => KeepsDirs.bind (KeepsDirs.writeText _ _) fun _ => KeepsDirs.bind ?_ fun _ =>
    KeepsDirs.bind (KeepsDirs.inspect _) fun _ => KeepsDirs.bind (KeepsDirs.inspect _) fun _ =>
    KeepsDirs.bind (KeepsDirs.inspect _) fun _ => KeepsDirs.writeJsonAtomic _ _
  unfold writeUnlessEmpty
  split
  · exact KeepsDirs.pure ()
  · exact KeepsDirs.writeText _ _

theorem executeMutant_dirs (caseId : Str) (evidenceDir : Path) (testSha256 : Str)
    (execution : Except PyError NeutralExecution) :
    KeepsDirs (executeMutant caseId evidenceDir testSha256 execution) := by
  unfold executeMutant
  split
  · exact KeepsDirs.pure _
  · exact KeepsDirs.bind (executeSide_dirs _ _ _ _) fun _ => KeepsDirs.pure _

theorem executeSide_below (role : String) (evidenceDir : Path) (testSha256 : Str)
    (execution : Except PyError NeutralExecution) :
    StaysBelow (evidenceDir ++ [lit role]) (executeSide role evidenceDir testSha256 execution) :=
  StaysBelow.bind (StaysBelow.lift _) fun _ => StaysBelow.bind
    (writeExecutionEvidence_below _ _ _ _) fun _ => StaysBelow.pure _

theorem executeMutant_below (caseId : Str) (evidenceDir : Path) (testSha256 : Str)
    (execution : Except PyError NeutralExecution) :
    StaysBelow (evidenceDir ++ [lit "mutant"])
      (executeMutant caseId evidenceDir testSha256 execution) := by
  unfold executeMutant
  split
  · exact StaysBelow.pure _
  · exact StaysBelow.bind (executeSide_below _ _ _ _) fun _ => StaysBelow.pure _

theorem evaluateTest_below (context : SuiteContext) (key : CaseKey) (input : CaseInput)
    (expectedCase : Json) (agentRepoSha256 : Sha256.Digest) (relative : Path) (report : Json) :
    StaysBelow (context.suiteDir ++ relative)
      (evaluateTest context key input expectedCase agentRepoSha256 relative report) := by
  have child := below_child (context.suiteDir ++ relative)
  refine StaysBelow.bind (StaysBelow.read _) fun _ =>
    StaysBelow.bind ((executeSide_below _ _ _ _).mono ((child _).trans (below_child _ _)))
    fun _ => StaysBelow.bind
    ((executeMutant_below _ _ _ _).mono ((child _).trans (below_child _ _))) fun _ =>
    StaysBelow.bind (StaysBelow.lift _) fun _ => StaysBelow.bind (StaysBelow.lift _) fun _ =>
    StaysBelow.bind (StaysBelow.writeJsonAtomic (by simp)) fun _ =>
    StaysBelow.bind (StaysBelow.read _) fun _ => StaysBelow.bind (StaysBelow.read _) fun _ =>
    StaysBelow.bind (StaysBelow.lift _) fun _ => StaysBelow.lift _

theorem evaluateScan_below (context : SuiteContext) (key : CaseKey) (input : CaseInput)
    (expectedCase : Json) (agentRepoSha256 : Sha256.Digest) :
    StaysBelow (context.suiteDir ++ (caseFolder key ++ [input.scan.runId.text]))
      (evaluateScan context key input expectedCase agentRepoSha256) := by
  refine StaysBelow.bind (StaysBelow.read _) fun report => StaysBelow.bind (StaysBelow.read _)
    fun generated => ?_
  split
  · exact evaluateTest_below context key input expectedCase agentRepoSha256 _ report
  · exact StaysBelow.bind (StaysBelow.lift _) fun _ => StaysBelow.bind (StaysBelow.read _)
      fun _ => StaysBelow.lift _

theorem scanFailed_below (context : SuiteContext) (key : CaseKey) (agentRepoSha256 : Sha256.Digest)
    (e : PyError) : StaysBelow root (scanFailed context key agentRepoSha256 e) := by
  unfold scanFailed
  split
  · split
    · exact StaysBelow.bind (StaysBelow.lift _) fun _ => StaysBelow.pure _
    · exact StaysBelow.raise _
  · exact StaysBelow.raise _

/-- The evaluation of a case stays in the directory of its run. -/
theorem runCase_below (context : SuiteContext) (key : CaseKey) (expectedCase : Json)
    (input : CaseInput) :
    StaysBelow (context.suiteDir ++ (caseFolder key ++ [input.scan.runId.text]))
      (runCase context key expectedCase input) := by
  refine StaysBelow.bind (StaysBelow.lift _) fun agentRepo => StaysBelow.bind
    (StaysBelow.attempt ?_) fun scanned => ?_
  · rw [← List.append_assoc]
    exact scan_below _ _ _
  · cases scanned with
    | ok runDir => exact evaluateScan_below _ _ _ _ _
    | error e => exact scanFailed_below _ _ _ _

end Cases

end EdgecaseForge

import EdgecaseForge.CandidateKills
import EdgecaseForge.CoupledPrograms
import EdgecaseForge.ExportedRepos

namespace EdgecaseForge

open Text Effect Program Occurrences

/-- What a verdict is made of: the state of the harness and how the tests ended, without the clock. -/
structure RunVerdict where
  status : HarnessStatus
  nodes : List (Str × Str × Str × Option Str)

def ExecutionResult.verdict (result : ExecutionResult) : RunVerdict :=
  ⟨result.harnessStatus, result.nodes.map fun node =>
    (node.nodeId, node.testName, node.outcome, node.failureKind)⟩

def missingText : Str :=
  lit "missing"

/-- The hash of the test after its run. -/
def testAfterRun (testFile : Path) : Disk Str := do
  let kept ← Disk.read fun t => .ok (t.exists_ testFile)
  if kept then Disk.read (fileSha256 testFile) else pure missingText

/-- The run in a repository that has been exported. -/
def executeExported (repo : Path) (generatedTest : Bytes) (run : Disk ExecutionResult) : Disk NeutralExecution := do
  let repoBefore ← Disk.read (treeSha256 repo [])
  Disk.writeBytes (repo ++ [lit "test_generated.py"]) generatedTest
  let result ← run
  let testAfter ← testAfterRun (repo ++ [lit "test_generated.py"])
  let repoAfter ← Disk.read (treeSha256 repo [lit "test_generated.py"])
  pure ⟨result, repoBefore, repoAfter, testAfter⟩

/-- `_run_neutral_execution`, with what runs the test below the directory of the execution. -/
def executeNeutral (root : Path) (caseId : Str) (executionRoot : Path) (generatedTest : Bytes)
    (run : Path → Disk ExecutionResult) : Disk NeutralExecution := do
  removeExisting executionRoot
  let repo ← exportAgentRepo root caseId (executionRoot ++ [lit "repo"])
  executeExported repo generatedTest (run executionRoot)

section Agreement

variable {root p q source source' : Path} {t t' : FileTree}

theorem AgreesBelow.set (h : AgreesBelow root t t') (p : Path) (node : Node) :
    AgreesBelow root (t.set p node) (t'.set p node) := by
  intro q hq
  rw [Dict.get?_set, Dict.get?_set, h q hq]

theorem AgreesBelow.exists_ (h : AgreesBelow root t t') (hp : root <+: p) : t.exists_ p = t'.exists_ p := by
  rw [FileTree.exists_, FileTree.exists_, h.isFile hp, h.isDir hp]

theorem AgreesBelow.openable (h : AgreesBelow root t t') (hp : root <+: p.dropLast) :
    t.openable p = t'.openable p := by
  rw [FileTree.openable, FileTree.openable, h.isDir hp, h.isDir (hp.trans (List.dropLast_prefix p))]

/-- Two trees that agree below a directory, and in which two cases outside of it export the same. -/
structure Beside (root caseDir caseDir' : Path) (t t' : FileTree) : Prop where
  agrees : AgreesBelow root t t'
  text : agentText caseDir t = agentText caseDir' t'
  readme : t.readBytes (caseDir ++ [lit "README.md"]) = t'.readBytes (caseDir' ++ [lit "README.md"])
  project : t.readBytes (caseDir ++ [lit "pyproject.toml"]) = t'.readBytes (caseDir' ++ [lit "pyproject.toml"])

/-- The files of a case are outside of a directory. -/
def Outside (root caseDir : Path) : Prop :=
  ∀ name, ¬ root <+: caseDir ++ [name]

theorem readBytes_set (outside : ¬ root <+: q) (hp : root <+: p) (node : Node) :
    FileTree.readBytes (Dict.set t p node) q = t.readBytes q := by
  rw [FileTree.readBytes, FileTree.readBytes, Dict.get?_set_ne (ne_of_below hp outside)]

theorem agentText_set {caseDir : Path} (outside : Outside root caseDir) (hp : root <+: p) (node : Node) :
    agentText caseDir (Dict.set t p node) = agentText caseDir t := by
  rw [agentText, agentText, readText, readText, readBytes_set (outside _) hp]

theorem Beside.set {caseDir caseDir' : Path} (h : Beside root caseDir caseDir' t t')
    (outside : Outside root caseDir) (outside' : Outside root caseDir') (hp : root <+: p) (node : Node) :
    Beside root caseDir caseDir' (t.set p node) (t'.set p node) where
  agrees := h.agrees.set p node
  text := by rw [agentText_set outside hp, agentText_set outside' hp, h.text]
  readme := by rw [readBytes_set (outside _) hp, readBytes_set (outside' _) hp, h.readme]
  project := by rw [readBytes_set (outside _) hp, readBytes_set (outside' _) hp, h.project]

end Agreement

section Coupling

variable {root caseDir caseDir' p : Path}

theorem Beside.writeText (outside : Outside root caseDir) (outside' : Outside root caseDir')
    (hp : root <+: p.dropLast) (s : Str) :
    Couples (Beside root caseDir caseDir') (Disk.writeText p s) (Disk.writeText p s)
      fun _ _ => Beside root caseDir caseDir' := by
  refine Couples.act fun t t' beside => ?_
  have below : root <+: p := hp.trans (List.dropLast_prefix p)
  rw [EdgecaseForge.writeText, EdgecaseForge.writeText, beside.agrees.openable hp]
  cases t'.openable p with
  | error e => exact rfl
  | ok u =>
    cases encodeUtf8 s with
    | ok bytes => exact beside.set outside outside' below _
    | error e => exact rfl

theorem Beside.writeBytes (outside : Outside root caseDir) (outside' : Outside root caseDir')
    (hp : root <+: p.dropLast) (content : Bytes) :
    Couples (Beside root caseDir caseDir') (Disk.writeBytes p content) (Disk.writeBytes p content)
      fun _ _ => Beside root caseDir caseDir' := by
  refine Couples.act fun t t' beside => ?_
  have below : root <+: p := hp.trans (List.dropLast_prefix p)
  rw [FileTree.writeBytes, FileTree.writeBytes, beside.agrees.openable hp]
  cases t'.openable p with
  | error e => exact rfl
  | ok u => exact beside.set outside outside' below _

/-- A file of the case is copied to the same place. -/
theorem Beside.copyFile (outside : Outside root caseDir) (outside' : Outside root caseDir') {name : Str}
    (same : ∀ t t', Beside root caseDir caseDir' t t' →
      t.readBytes (caseDir ++ [name]) = t'.readBytes (caseDir' ++ [name]))
    (hp : root <+: p.dropLast) :
    Couples (Beside root caseDir caseDir') (Disk.write (FileTree.copyFile (caseDir ++ [name]) p))
      (Disk.write (FileTree.copyFile (caseDir' ++ [name]) p)) fun _ _ => Beside root caseDir caseDir' := by
  refine Couples.act fun t t' beside => ?_
  have below : root <+: p := hp.trans (List.dropLast_prefix p)
  simp only [FileTree.copyFile, List.getLast?_append, List.getLast?_singleton, Option.some_or, Option.getD_some,
    same t t' beside, beside.agrees.isDir below]
  have inside : root <+: (if t'.isDir p = true then p ++ [name] else p).dropLast := by
    split
    · rwa [List.dropLast_concat]
    · exact hp
  cases t'.readBytes (caseDir' ++ [name]) with
  | error e => exact rfl
  | ok content =>
    exact Beside.writeBytes outside outside' inside content t t' beside

/-- What can be told of the tree below the directory is the same. -/
theorem Beside.inspect_bind {α β γ : Type} {f : FileTree → Except PyError α} {next : α → Disk β}
    {next' : α → Disk γ} {last : β → γ → FileTree → FileTree → Prop}
    (local_ : ∀ t t', AgreesBelow root t t' → f t = f t')
    (hf : ∀ a, Couples (Beside root caseDir caseDir') (next a) (next' a) last) :
    Couples (Beside root caseDir caseDir') (Disk.read f >>= next) (Disk.read f >>= next') last :=
  Couples.inspect_bind (fun t t' beside => local_ t t' beside.agrees) hf

end Coupling

section Executions

variable {root parent caseDir caseDir' : Path} {name caseId caseId' : Str} {t t' : FileTree}

/-- A tree in which a case may be run below a directory: the case has been built, outside of that directory. -/
structure Staged (parent : Path) (name : Str) (caseDir : Path) (t : FileTree) : Prop where
  rooted : t.Rooted
  there : t.isDir parent = true
  noFile : t.isFile (parent ++ [name]) = false
  built : t.exists_ caseDir = true
  outside : Outside (parent ++ [name]) caseDir
  apart : ¬ parent ++ [name] <+: caseDir

/-- The tree when the directory has been removed. -/
def removed (p : Path) (t : FileTree) : FileTree :=
  if t.exists_ p then t.clear p else t

theorem removed_outside {p q : Path} (h : ¬ p <+: q) : (removed p t).get? q = t.get? q := by
  unfold removed
  split
  · exact FileTree.get?_clear_ne h
  · rfl

theorem readBytes_removed {p q : Path} (h : ¬ p <+: q) : (removed p t).readBytes q = t.readBytes q := by
  rw [FileTree.readBytes, FileTree.readBytes, removed_outside h]

theorem removed_below (rooted : t.Rooted) {p q : Path} (h : p <+: q) : (removed p t).get? q = none := by
  unfold removed
  split
  next => exact FileTree.get?_clear_below h
  next absent => exact rooted.absent (by simpa using absent) h

theorem Staged.removed (h : Staged parent name caseDir t) :
    Staged parent name caseDir (removed (parent ++ [name]) t) ∧
      (EdgecaseForge.removed (parent ++ [name]) t).exists_ (parent ++ [name]) = false where
  left :=
    { rooted := by
        unfold EdgecaseForge.removed
        split
        · exact h.rooted.clear _
        · exact h.rooted
      there := by
        rcases isDir_iff.mp h.there with rfl | made
        · exact isDir_iff.mpr (Or.inl rfl)
        · exact isDir_iff.mpr (Or.inr (by rw [removed_outside (not_prefix_child parent name), made]))
      noFile := by
        rw [FileTree.isFile, removed_below h.rooted (List.prefix_refl _)]
      built := by
        rw [← h.built, FileTree.exists_, FileTree.exists_, FileTree.isFile, FileTree.isFile, FileTree.isDir,
          FileTree.isDir, removed_outside h.apart]
      outside := h.outside
      apart := h.apart }
  right := exists_child (removed_below h.rooted (List.prefix_refl _))

end Executions

end EdgecaseForge

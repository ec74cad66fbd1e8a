import EdgecaseForge.NeutralRuns
import EdgecaseForge.PytestRuns

namespace EdgecaseForge

open Text Effect Program

section Excluded

variable {root p : Path} {excluded excluded' : List Str} {name : Str} {t t' : FileTree} {content : Bytes}

theorem slash_mem_join {first second : Str} {rest : List Str} : slash ∈ join slash (first :: second :: rest) := by
  simp [join]

theorem asPosix_eq_name (plain : slash ∉ name) {rest : Path} (some : rest ≠ []) (h : asPosix rest = name) :
    rest = [name] := by
  rcases rest with _ | ⟨first, _ | ⟨second, rest⟩⟩
  · exact absurd rfl some
  · rw [← h]
    rfl
  · rw [← h] at plain
    exact absurd slash_mem_join plain

theorem mem_hashedFiles_iff {file : Path × Bytes} : file ∈ hashedFiles root excluded t ↔
    t.get? file.1 = some (.file file.2) ∧ (root <+: file.1 ∧ file.1 ≠ root) ∧
      relativeText root file.1 ∉ excluded ∧ lit "__pycache__" ∉ file.1 := by
  rw [hashedFiles, List.mem_filter, mem_filesBelow, and_assoc]
  simp

/-- What the hash of a tree covers is determined by the files among it. -/
theorem hashedFiles_congr (same : ∀ file, file ∈ hashedFiles root excluded t ↔ file ∈ hashedFiles root excluded' t') :
    hashedFiles root excluded t = hashedFiles root excluded' t' := by
  have once : ∀ excluded t, ((hashedFiles root excluded t).map Prod.fst).Nodup := fun excluded t =>
    (nodup_filesBelow root t).sublist (List.filter_sublist.map Prod.fst)
  have sorted : ∀ excluded t, (hashedFiles root excluded t).Pairwise fun a b => a.1 ≤ b.1 := fun excluded t =>
    (List.pairwise_insertionSort _ _).sublist List.filter_sublist
  have perm : (hashedFiles root excluded t).Perm (hashedFiles root excluded' t') :=
    (List.perm_ext_iff_of_nodup (once _ _).of_map (once _ _).of_map).mpr same
  refine perm.eq_of_pairwise (fun a b ha hb hab hba => ?_) (sorted _ _) (sorted _ _)
  exact List.inj_on_of_nodup_map (once excluded t) ha ((same b).mpr hb) (le_antisymm hab hba)

/-- A new file that is left out does not change the hash. -/
theorem treeSha256_excluded (plain : slash ∉ name) (absent : t.get? (root ++ [name]) = none) :
    treeSha256 root [name] (t.set (root ++ [name]) (.file content)) = treeSha256 root [] t := by
  have same : hashedFiles root [name] (t.set (root ++ [name]) (.file content)) = hashedFiles root [] t := by
    refine hashedFiles_congr fun file => ?_
    rw [mem_hashedFiles_iff, mem_hashedFiles_iff]
    by_cases here : file.1 = root ++ [name]
    · have left : relativeText root (root ++ [name]) = name := by
        rw [relativeText, List.drop_left]
        rfl
      simp [here, absent, left]
    · rw [Dict.get?_set_ne here]
      refine and_congr_right fun _ => and_congr_right fun below => ?_
      have kept : relativeText root file.1 ≠ name := by
        obtain ⟨rest, whole⟩ := below.1
        intro same
        rw [← whole, relativeText, List.drop_left] at same
        have some : rest ≠ [] := by
          rintro rfl
          exact below.2 (by rw [← whole, List.append_nil])
        exact here (by rw [← whole, asPosix_eq_name plain some same])
      simp [kept]
  rw [treeSha256, treeSha256, treeStream, treeStream, same]

end Excluded

section Integrity

variable {root parent : Path} {name caseId : Str} {test : Bytes} {t t' : FileTree} {execution : NeutralExecution}

theorem testName_plain : slash ∉ lit "test_generated.py" := by
  decide

/-- A run that leaves the repository alone is recorded as such. -/
theorem executeExported_integrity {repo : Path} {run : Disk ExecutionResult}
    (absent : t.get? (repo ++ [lit "test_generated.py"]) = none)
    (quiet : ∀ q, repo <+: q → Keeps (fun t : FileTree => t.get? q) run)
    (h : (executeExported repo test run).Returns t execution t') :
    execution.repoBefore = execution.repoAfter ∧ execution.testAfter = Sha256.sha256 test := by
  obtain ⟨repoBefore, _, read, h⟩ := returns_bind.mp h
  obtain ⟨before, rfl⟩ := returns_inspect.mp read
  obtain ⟨_, _, wrote, h⟩ := returns_bind.mp h
  obtain ⟨-, rfl⟩ := writeBytes_returns.mp wrote
  obtain ⟨result, ran, hr, h⟩ := returns_bind.mp h
  have kept : AgreesBelow repo ran (t.set (repo ++ [lit "test_generated.py"]) (.file test)) := by
    intro q hq
    rw [← hr.2]
    exact (quiet q hq _).2
  have file : ran.get? (repo ++ [lit "test_generated.py"]) = some (.file test) := by
    rw [kept _ (List.prefix_append _ _), Dict.get?_set_self]
  obtain ⟨testAfter, _, tested, h⟩ := returns_bind.mp h
  obtain ⟨there, _, seen, tested⟩ := returns_bind.mp tested
  obtain ⟨rfl, rfl⟩ : ran.exists_ (repo ++ [lit "test_generated.py"]) = there ∧ _ := by
    simpa using returns_inspect.mp seen
  rw [FileTree.exists_of_get? file, if_pos rfl] at tested
  obtain ⟨hashed, rfl⟩ := returns_inspect.mp tested
  obtain ⟨repoAfter, _, read, h⟩ := returns_bind.mp h
  obtain ⟨after, rfl⟩ := returns_inspect.mp read
  obtain ⟨rfl, -⟩ := returns_pure.mp h
  rw [treeSha256_congr kept, treeSha256_excluded testName_plain absent, before] at after
  rw [fileSha256, FileTree.readBytes, file] at hashed
  exact ⟨Except.ok.inj after, (Except.ok.inj hashed).symm⟩

/-- An execution runs its test in the case that it has exported, whatever was there before. -/
theorem executeNeutral_exported (staged : Staged parent name (joinPath (generatedPath root) caseId) t)
    {run : Path → Disk ExecutionResult}
    (h : (executeNeutral root caseId (parent ++ [name]) test run).Returns t execution t') :
    (removed (parent ++ [name]) t).exists_ (parent ++ [name] ++ [lit "repo"]) = false ∧
      ∃ source readme project,
        CaseFiles (joinPath (generatedPath root) caseId) (removed (parent ++ [name]) t) source readme project ∧
        (executeExported (parent ++ [name] ++ [lit "repo"]) test (run (parent ++ [name]))).Returns
          (exportedTree (parent ++ [name] ++ [lit "repo"]) source readme project (removed (parent ++ [name]) t))
          execution t' := by
  obtain ⟨_, _, cleared, h⟩ := returns_bind.mp h
  obtain rfl := (removeExisting_returns staged.noFile).mp cleared
  obtain ⟨repo, _, exported, h⟩ := returns_bind.mp h
  obtain ⟨rfl, absent, -, source, readme, project, files, rfl⟩ :=
    (exportAgentRepo_returns staged.removed.1.rooted rfl staged.removed.1.built).mp exported
  exact ⟨absent, source, readme, project, files, h⟩

/-- Neither the repository nor the test is changed by an execution whose run leaves the repository alone. -/
theorem executeNeutral_integrity (staged : Staged parent name (joinPath (generatedPath root) caseId) t)
    {run : Path → Disk ExecutionResult}
    (quiet : ∀ q, parent ++ [name] ++ [lit "repo"] <+: q →
      Keeps (fun t : FileTree => t.get? q) (run (parent ++ [name])))
    (h : (executeNeutral root caseId (parent ++ [name]) test run).Returns t execution t') :
    execution.repoBefore = execution.repoAfter ∧ execution.testAfter = Sha256.sha256 test := by
  obtain ⟨absent, source, readme, project, -, h⟩ := executeNeutral_exported staged h
  have shown : Shows (parent ++ [name] ++ [lit "repo"]) (repoNode source readme project) _ :=
    exportedTree_shows staged.removed.1.rooted absent
  have free : repoNode source readme project [lit "test_generated.py"] = none := by
    simp [repoNode]
  exact executeExported_integrity ((shown _).trans free) quiet h

end Integrity

end EdgecaseForge

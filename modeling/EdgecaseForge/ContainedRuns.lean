import EdgecaseForge.NeutralIntegrity
import EdgecaseForge.NeutralKills

namespace EdgecaseForge

open Text Effect Program

section Mounts

/-- The values of the `--mount` options of a command. -/
def mountTexts : List Str → List Str
  | option :: value :: rest =>
    if option = lit "--mount" then value :: mountTexts rest else mountTexts (value :: rest)
  | _ => []

def sourceKey : Str :=
  lit "source="

/-- The directory of the machine that a bind mount lets a container write to. -/
def writableSource (mount : Str) : Option Path :=
  let fields := split Json.comma mount
  if fields.contains (lit "readonly") then none
  else (fields.find? fun field => startsWith field sourceKey).map fun field =>
    pathParts (field.drop sourceKey.length)

def writableSources (command : List Str) : List Path :=
  (mountTexts command).filterMap writableSource

/-- A container changes nothing of the machine but what is below its writable mounts. -/
structure Contained (host : Host) : Prop where
  kept : ∀ repo artifacts image relative timeoutSeconds (t : FileTree) q,
    (∀ p ∈ writableSources (restrictedCommand repo artifacts image relative), ¬ p <+: q) →
    (host.popen (restrictedSpawn repo artifacts image relative timeoutSeconds) t).1.get? q = t.get? q

/-- The names of a path that can be mounted. -/
structure Mountable (p : Path) : Prop where
  some : p ≠ []
  safe : ∀ name ∈ p, SafeName name
  plain : ∀ name ∈ p, Json.comma ∉ name

variable {p repo artifacts : Path} {image relative : Str} {before rest : List Str}

theorem mountTexts_skip (plain : lit "--mount" ∉ before) : mountTexts (before ++ rest) = mountTexts rest := by
  induction before with
  | nil => rfl
  | cons option before ih =>
    rw [List.mem_cons, not_or] at plain
    have after := ih plain.2
    cases hr : before ++ rest with
    | nil =>
      rw [List.append_eq_nil_iff] at hr
      rw [hr.1, hr.2]
      rfl
    | cons value others =>
      rw [hr] at after
      rw [List.cons_append, hr, mountTexts, if_neg (Ne.symm plain.1), after]

theorem pathParts_pathText (h : Mountable p) : pathParts (pathText p) = p := by
  have whole := pathParts_asPosix h.some h.safe
  rw [pathParts] at whole ⊢
  rw [pathText, split, ← List.nil_append (slash :: asPosix p), splitAt_append (by simp)]
  simpa [split] using whole

theorem comma_not_mem_pathText (h : Mountable p) : Json.comma ∉ pathText p := by
  intro hm
  rw [pathText, List.mem_cons] at hm
  rcases hm with same | hm
  · exact absurd same (by decide)
  · rcases mem_join hm with same | ⟨name, hn, inside⟩
    · exact absurd same (by decide)
    · exact h.plain name hn inside

theorem startsWith_source (s : Str) : startsWith (sourceKey ++ s) sourceKey = true := by
  simp [startsWith]

/-- The fields of a bind mount are the texts that were joined. -/
theorem split_bind (h : Mountable p) (plain : ∀ field ∈ rest, Json.comma ∉ field) :
    split Json.comma (join Json.comma (lit "type=bind" :: (sourceKey ++ pathText p) :: rest)) =
      lit "type=bind" :: (sourceKey ++ pathText p) :: rest := by
  apply split_join
  intro part hm
  rw [List.mem_cons, List.mem_cons] at hm
  rcases hm with rfl | rfl | hm
  · decide
  · rw [List.mem_append, not_or]
    exact ⟨by decide, comma_not_mem_pathText h⟩
  · exact plain part hm

/-- The repository is mounted for reading. -/
theorem writableSource_repo (h : Mountable repo) : writableSource (repoMount repo) = none := by
  have whole : repoMount repo = join Json.comma (lit "type=bind" :: (sourceKey ++ pathText repo) ::
      [lit "target=/workspace/repo", lit "readonly"]) := by
    simp only [join, repoMount, List.append_assoc]
    rfl
  rw [writableSource, whole, split_bind h (by decide)]
  simp

theorem writableSource_artifacts (h : Mountable artifacts) :
    writableSource (artifactsMount artifacts) = some artifacts := by
  have whole : artifactsMount artifacts = join Json.comma (lit "type=bind" :: (sourceKey ++ pathText artifacts) ::
      [lit "target=/workspace/artifacts"]) := by
    simp only [join, artifactsMount, List.append_assoc]
    rfl
  have first : startsWith (lit "type=bind") sourceKey = false := by decide
  have other : lit "readonly" ≠ sourceKey ++ pathText artifacts := by
    intro same
    have starts := startsWith_source (pathText artifacts)
    rw [← same] at starts
    exact absurd starts (by decide)
  have writable : lit "readonly" ∉ [lit "type=bind", sourceKey ++ pathText artifacts,
      lit "target=/workspace/artifacts"] := by
    rw [List.mem_cons, List.mem_cons, not_or, not_or]
    exact ⟨by decide, other, by decide⟩
  rw [writableSource, whole, split_bind h (by decide)]
  simp only [List.contains_eq_mem, decide_eq_false writable, Bool.false_eq_true, if_false, List.find?_cons, first,
    startsWith_source, Option.map_some, List.drop_left, pathParts_pathText h]

theorem mountTexts_mount (value : Str) : mountTexts (lit "--mount" :: value :: rest) = value :: mountTexts rest := by
  rw [mountTexts, if_pos rfl]

/-- The arguments of the container mount nothing, whatever the image is called. -/
theorem mountTexts_arguments {value : Str}
    (h : value ∈ mountTexts (image :: (containerArguments ++ [relative]))) : value = lit "-m" := by
  have last : mountTexts [relative] = [] := rfl
  have none : mountTexts (containerArguments ++ [relative]) = [] := by
    rw [mountTexts_skip (by decide), last]
  have fewer : mountTexts (containerArguments.tail ++ [relative]) = [] := by
    rw [mountTexts_skip (by decide), last]
  change value ∈ mountTexts (image :: lit "-m" :: (containerArguments.tail ++ [relative])) at h
  rw [mountTexts] at h
  split at h
  next =>
    rw [fewer] at h
    exact List.mem_singleton.mp h
  next =>
    change value ∈ mountTexts (containerArguments ++ [relative]) at h
    rw [none] at h
    cases h

/-- The only directory that a container can write to is that of the artifacts. -/
theorem writableSources_restricted (hr : Mountable repo) (ha : Mountable artifacts)
    (h : p ∈ writableSources (restrictedCommand repo artifacts image relative)) : p = artifacts := by
  obtain ⟨value, hv, writable⟩ := List.mem_filterMap.mp h
  have directory : lit "--mount" ∉ [lit "--workdir", lit "/workspace/repo"] := by decide
  have whole : mountTexts (restrictedCommand repo artifacts image relative) = repoMount repo ::
      artifactsMount artifacts :: mountTexts (image :: (containerArguments ++ [relative])) := by
    have texts := @mountTexts_skip _ (image :: (containerArguments ++ [relative])) directory
    rw [restrictedCommand, List.append_assoc, List.append_assoc, mountTexts_skip (by decide)]
    simp only [List.cons_append, List.nil_append] at texts ⊢
    rw [mountTexts_mount, mountTexts_mount, texts]
  rw [whole, List.mem_cons, List.mem_cons] at hv
  rcases hv with rfl | rfl | hv
  · rw [writableSource_repo hr] at writable
    cases writable
  · rw [writableSource_artifacts ha] at writable
    exact (Option.some.inj writable).symm
  · rw [mountTexts_arguments hv] at writable
    exact absurd writable (by rw [show writableSource (lit "-m") = none by decide]; simp)

end Mounts

section Containers

variable {root parent executionRoot q : Path} {name caseId caseId' a b : Str} {test : Bytes} {t t' : FileTree}
  {host host' : Host}

theorem apart_children (differ : a ≠ b) (h : executionRoot ++ [a] <+: q) : ¬ executionRoot ++ [b] <+: q := by
  rintro ⟨rest', rfl⟩
  obtain ⟨rest, whole⟩ := h
  rw [List.append_assoc, List.append_assoc] at whole
  exact differ (List.cons.inj (List.append_cancel_left whole)).1

theorem Mountable.child (h : ∀ name ∈ executionRoot, SafeName name ∧ Json.comma ∉ name) (safe : SafeName a)
    (plain : Json.comma ∉ a) : Mountable (executionRoot ++ [a]) where
  some := by simp
  safe := by
    intro name hn
    rcases List.mem_append.mp hn with hn | hn
    · exact (h name hn).1
    · rwa [List.mem_singleton.mp hn]
  plain := by
    intro name hn
    rcases List.mem_append.mp hn with hn | hn
    · exact (h name hn).2
    · rwa [List.mem_singleton.mp hn]

theorem safeName_repo : SafeName (lit "repo") :=
  ⟨by decide, by decide, by decide, by decide, rfl⟩

theorem safeName_artifacts : SafeName (lit "artifacts") :=
  ⟨by decide, by decide, by decide, by decide, rfl⟩

/-- A test that runs in a container changes nothing of the repository. -/
theorem neutralRun_quiet (contained : Contained host)
    (names : ∀ name ∈ executionRoot, SafeName name ∧ Json.comma ∉ name)
    (inside : executionRoot ++ [lit "repo"] <+: q) :
    Keeps (fun t : FileTree => t.get? q) (neutralRun host (lit "docker") executionRoot) := by
  have apart : lit "repo" ≠ lit "artifacts" := by decide
  have repo := Mountable.child names safeName_repo (by decide)
  have artifacts := Mountable.child names safeName_artifacts (by decide)
  have outside : ¬ executionRoot ++ [lit "artifacts"] <+: q := apart_children apart inside
  have above : ¬ q <+: executionRoot ++ [lit "artifacts"] := fun h =>
    apart_children apart (inside.trans h) (List.prefix_refl _)
  rw [neutralRun, if_pos rfl, runRestrictedPytest]
  refine Keeps.bind (Keeps.inspect _) fun ready => ?_
  split
  · exact Keeps.lift _
  · refine Keeps.bind (Keeps.lift _) fun relative => ?_
    simp only [Option.getD_some, List.dropLast_concat]
    refine Keeps.bind (Keeps.act fun t => FileTree.mkdir_ne above) fun _ => ?_
    refine Keeps.bind (Keeps.act fun t => contained.kept _ _ _ _ _ t q fun p hp => ?_) fun ended => ?_
    · rwa [writableSources_restricted repo artifacts hp]
    · exact Keeps.bind (Keeps.inspect _) fun junitXml => Keeps.pure _

/-- Whatever two tests in containers do, the integrity of the executions stands: what is recorded of the repository
and of the test is what was there before, and the differential of the case is not made invalid. -/
structure IntegrityStands (clean mutant : Disk NeutralExecution) (caseId : Str) (test : Bytes) (t t' : FileTree) :
    Prop where
  kept : ∀ left right u u', clean.Returns t left u → mutant.Returns t' right u' →
    Executions.integrityErrors ⟨left, some right⟩ (Sha256.sha256 test) = []
  valid : ∀ left right u u' findings, clean.Returns t left u → mutant.Returns t' right u' →
    caseDifferential caseId ⟨left, some right⟩ findings (Sha256.sha256 test) =
      buildDifferential caseId left.result (some right.result) findings (Sha256.sha256 test)

theorem restricted_integrity (contained : Contained host) (contained' : Contained host')
    (names : ∀ part ∈ parent ++ [name], SafeName part ∧ Json.comma ∉ part)
    (left : Staged parent name (joinPath (generatedPath root) caseId) t)
    (right : Staged parent name (joinPath (generatedPath root) caseId') t') (test : Bytes) :
    IntegrityStands (executeNeutral root caseId (parent ++ [name]) test (neutralRun host (lit "docker")))
      (executeNeutral root caseId' (parent ++ [name]) test (neutralRun host' (lit "docker"))) caseId' test t t' := by
  have kept : ∀ clean mutant u u',
      (executeNeutral root caseId (parent ++ [name]) test (neutralRun host (lit "docker"))).Returns t clean u →
      (executeNeutral root caseId' (parent ++ [name]) test (neutralRun host' (lit "docker"))).Returns t' mutant u' →
      Executions.integrityErrors ⟨clean, some mutant⟩ (Sha256.sha256 test) = [] := by
    intro clean mutant u u' h h'
    obtain ⟨same, unchanged⟩ := executeNeutral_integrity left (fun q hq => neutralRun_quiet contained names hq) h
    obtain ⟨same', unchanged'⟩ := executeNeutral_integrity right (fun q hq => neutralRun_quiet contained' names hq) h'
    exact (integrityErrors_eq_nil clean mutant _).mpr ⟨⟨unchanged, unchanged'⟩, same, same'⟩
  refine ⟨kept, fun clean mutant u u' findings h h' => ?_⟩
  rw [caseDifferential, if_pos (kept clean mutant u u' h h')]
  rfl

end Containers

section Hook

def passedTestcase : Testcase where
  classname := lit "test_generated"
  name := some (lit "test_price")
  seconds := Binary64.zero
  failure := none
  error := none
  skipped := none

/-- A machine whose containers leave a report where they can write. -/
def containerHost : Host where
  popen spawn t :=
    ((writableSources spawn.command).foldl
      (fun t p => Dict.set t (p ++ [lit "junit.xml"]) (.file (encoded (lit "<testsuites/>")))) t,
      .ok (.exited 0 [] []))
  errorText _ := []
  testcases _ := some [passedTestcase]
  classes := .ascii
  upper s := s
  environ := Dict.empty
  executable := lit "python"
  temporary := [lit "tmp", lit "edgecase-pytest"]
  startedAt := lit "2026-08-30T07:44:47+00:00"
  elapsed := .zero

theorem containerHost_contained : Contained containerHost := by
  refine ⟨fun repo artifacts image relative timeoutSeconds t q outside => ?_⟩
  simp only [containerHost, restrictedSpawn]
  generalize writableSources (restrictedCommand repo artifacts image relative) = sources at outside
  induction sources generalizing t with
  | nil => rfl
  | cons p sources ih =>
    obtain ⟨first, others⟩ := List.forall_mem_cons.mp outside
    rw [List.foldl_cons, ih _ others, Dict.get?_set_ne]
    rintro rfl
    exact first (List.prefix_append _ _)

def hookExecution (caseId : Str) : Disk NeutralExecution :=
  executeNeutral [] caseId ([lit "work"] ++ [lit "neutral-execution"]) [] (neutralRun containerHost (lit "docker"))

theorem hookExecution_clean :
    (hookExecution cleanControl hookTree).result.toOption.any (fun e => e.result.validTestRun) = true := by
  decide +kernel

theorem hookExecution_mutant :
    (hookExecution (lit "M01") hookTree).result.toOption.any (fun e => e.result.validTestRun) = true := by
  decide +kernel

theorem returns_of_any {m : Disk NeutralExecution} {t : FileTree} {valid : NeutralExecution → Bool}
    (h : (m t).result.toOption.any valid = true) :
    ∃ execution, m.Returns t execution (m t).state ∧ valid execution = true := by
  cases hr : (m t).result with
  | ok execution =>
    rw [hr] at h
    exact ⟨execution, ⟨hr, rfl⟩, h⟩
  | error e =>
    rw [hr] at h
    cases h

theorem hook_names : ∀ part ∈ [lit "work"] ++ [lit "neutral-execution"], SafeName part ∧ Json.comma ∉ part := by
  intro part hm
  simp only [List.cons_append, List.nil_append, List.mem_cons, List.not_mem_nil, or_false] at hm
  rcases hm with rfl | rfl
  · exact ⟨⟨by decide, by decide, by decide, by decide, rfl⟩, by decide⟩
  · exact ⟨⟨by decide, by decide, by decide, by decide, rfl⟩, by decide⟩

theorem restricted_integrity_hook :
    IntegrityStands (hookExecution cleanControl) (hookExecution (lit "M01")) (lit "M01") [] hookTree hookTree ∧
      ∃ clean mutant u u', (hookExecution cleanControl).Returns hookTree clean u ∧
        (hookExecution (lit "M01")).Returns hookTree mutant u' := by
  obtain ⟨clean, left, -⟩ := returns_of_any hookExecution_clean
  obtain ⟨mutant, right, -⟩ := returns_of_any hookExecution_mutant
  refine ⟨?_, clean, mutant, _, _, left, right⟩
  exact restricted_integrity containerHost_contained containerHost_contained hook_names
    (hookTree_runs.staged safeName_cleanControl hookTree_shows hook_control)
    (hookTree_runs.staged safeName_hook hookTree_shows hook_listed) []

end Hook

end EdgecaseForge

import EdgecaseForge.PassedPreflights
import EdgecaseForge.RepositoryContext
import EdgecaseForge.TreeTampering

namespace EdgecaseForge

open Text

section Hashes

/-- The paths below a directory, files and directories. -/
def pathsBelow (t : FileTree) (directory : Path) : List Path :=
  t.keys.filter fun p => decide (directory <+: p ∧ p ≠ directory)

def sourcesPath (root : Path) : Path :=
  root ++ [lit "src", lit "edgecase_forge"]

/-- `rglob("*.py")` below the sources. -/
def pythonModules (root : Path) (t : FileTree) : List Path :=
  (pathsBelow t (sourcesPath root)).filter fun p => endsWith (p.getLast?.getD []) (lit ".py")

def artifactSuffixes : List Str :=
  [lit ".py", lit ".json", lit ".toml"]

/-- The files of the benchmark that are no build. The parts of a path are those from the root of the disk. -/
def benchmarkFiles (root : Path) (t : FileTree) : List Path :=
  (pathsBelow t (benchmarkPath root)).filter fun p =>
    t.isFile p && !p.contains (lit "generated") && artifactSuffixes.contains (RepositoryContext.suffix p)

def artifactPaths (root : Path) (t : FileTree) : List Path :=
  pythonModules root t ++ benchmarkFiles root t

def fixedArtifacts : List Str :=
  [lit "pyproject.toml", lit "benchmarks/manifest.json"]

/-- `sorted(relative_paths)`. -/
def artifactNames (root : Path) (t : FileTree) : List Str :=
  (fixedArtifacts ++ (artifactPaths root t).map (relativeText root)).dedup.insertionSort (· ≤ ·)

def artifactHash (root : Path) (t : FileTree) (name : Str) : Except PyError (Str × Str) := do
  let sha256 ← fileSha256 (root ++ split slash name) t
  pure (name, sha256)

/-- `_frozen_artifact_hashes`. -/
def frozenArtifactHashes (root : Path) (t : FileTree) : Except PyError (List (Str × Str)) :=
  (artifactNames root t).mapM (artifactHash root t)

end Hashes

section Tracked

variable {root p : Path} {t t' : FileTree} {name : Str}

/-- The places whose files are among the artifacts. -/
inductive Tracked (root : Path) : Path → Prop
  | fixed {name : Str} (listed : name ∈ fixedArtifacts) : Tracked root (root ++ split slash name)
  | module {p : Path} (below : sourcesPath root <+: p) (proper : p ≠ sourcesPath root)
      (python : endsWith (p.getLast?.getD []) (lit ".py") = true) : Tracked root p
  | benchmark {p : Path} (below : benchmarkPath root <+: p) (proper : p ≠ benchmarkPath root)
      (source : lit "generated" ∉ p) (kind : RepositoryContext.suffix p ∈ artifactSuffixes) : Tracked root p

/-- The content of a file, if there is one. -/
def FileTree.contentAt (t : FileTree) (p : Path) : Option Bytes :=
  match t.get? p with
  | some (.file content) => some content
  | _ => none

theorem get?_of_contentAt {content : Bytes} (h : t.contentAt p = some content) :
    t.get? p = some (.file content) := by
  unfold FileTree.contentAt at h
  split at h
  next stored =>
    cases h
    exact stored
  next => cases h

theorem readBytes_ok {content : Bytes} : t.readBytes p = .ok content ↔ t.contentAt p = some content := by
  rw [FileTree.readBytes, FileTree.contentAt]
  cases t.get? p with
  | none => simp
  | some node => cases node <;> simp

theorem fileSha256_ok {sha256 : Str} : fileSha256 p t = .ok sha256 ↔
    ∃ content, t.contentAt p = some content ∧ Sha256.sha256 content = sha256 := by
  rw [fileSha256, Except.bind_eq_ok]
  constructor
  · rintro ⟨content, read, same⟩
    exact ⟨content, readBytes_ok.mp read, Except.ok.inj same⟩
  · rintro ⟨content, read, rfl⟩
    exact ⟨content, readBytes_ok.mpr read, rfl⟩

theorem mem_pathsBelow {directory : Path} : p ∈ pathsBelow t directory ↔
    (t.get? p).isSome ∧ directory <+: p ∧ p ≠ directory := by
  rw [pathsBelow, List.mem_filter, decide_eq_true_eq, ← Dict.get?_isSome_iff]

theorem mem_artifactNames : name ∈ artifactNames root t ↔
    name ∈ fixedArtifacts ∨ ∃ p ∈ artifactPaths root t, relativeText root p = name := by
  simp [artifactNames, List.mem_dedup]

theorem below_of_listed (h : p ∈ artifactPaths root t) :
    (t.get? p).isSome ∧ Tracked root p ∧ ∃ first rest, p = root ++ first :: rest := by
  rcases List.mem_append.mp h with h | h
  · obtain ⟨h, python⟩ := List.mem_filter.mp h
    obtain ⟨there, below, proper⟩ := mem_pathsBelow.mp h
    obtain ⟨rest, rfl⟩ := below
    exact ⟨there, .module (List.prefix_append _ _) proper python, _, _, List.append_assoc _ _ _⟩
  · obtain ⟨h, kind⟩ := List.mem_filter.mp h
    obtain ⟨there, below, proper⟩ := mem_pathsBelow.mp h
    simp only [Bool.and_eq_true, Bool.not_eq_true', List.contains_eq_mem, decide_eq_true_eq,
      decide_eq_false_iff_not] at kind
    obtain ⟨rest, rfl⟩ := below
    exact ⟨there, .benchmark (List.prefix_append _ _) proper kind.1.2 kind.2, _, _, List.append_assoc _ _ _⟩

/-- The name of a path stands for the path. -/
theorem split_relativeText (named : t.Named) (h : p ∈ artifactPaths root t) :
    root ++ split slash (relativeText root p) = p := by
  obtain ⟨there, -, first, rest, rfl⟩ := below_of_listed h
  have names := named _ (Dict.get?_isSome_iff.mp there)
  rw [relativeText, List.drop_left, asPosix, split_join]
  exact fun name hn => (names name (List.mem_append_right _ hn)).2

theorem tracked_of_name (named : t.Named) (h : name ∈ artifactNames root t) :
    Tracked root (root ++ split slash name) := by
  rcases mem_artifactNames.mp h with fixed | ⟨p, listed, rfl⟩
  · exact .fixed fixed
  · rw [split_relativeText named listed]
    exact (below_of_listed listed).2.1

/-- A tracked file is listed under the name that stands for it. -/
theorem name_of_tracked (h : Tracked root p) {content : Bytes} (found : t.contentAt p = some content)
    (named : t.Named) : ∃ name ∈ artifactNames root t, root ++ split slash name = p := by
  have node := get?_of_contentAt found
  cases h with
  | fixed listed => exact ⟨_, mem_artifactNames.mpr (Or.inl listed), rfl⟩
  | module below proper python =>
    have listed : p ∈ artifactPaths root t := by
      refine List.mem_append_left _ (List.mem_filter.mpr ⟨mem_pathsBelow.mpr ⟨?_, below, proper⟩, python⟩)
      rw [node]
      rfl
    exact ⟨_, mem_artifactNames.mpr (Or.inr ⟨p, listed, rfl⟩), split_relativeText named listed⟩
  | benchmark below proper source kind =>
    have listed : p ∈ artifactPaths root t := by
      refine List.mem_append_right _ (List.mem_filter.mpr ⟨mem_pathsBelow.mpr ⟨?_, below, proper⟩, ?_⟩)
      · rw [node]
        rfl
      · simp [FileTree.isFile, node, source, kind]
    exact ⟨_, mem_artifactNames.mpr (Or.inr ⟨p, listed, rfl⟩), split_relativeText named listed⟩

end Tracked

section Binding

variable {root p : Path} {t t' : FileTree} {hashes hashes' : List (Str × Str)}

theorem sorted_eq {xs ys : List Str} (same : ∀ x, x ∈ xs ↔ x ∈ ys) :
    xs.dedup.insertionSort (· ≤ ·) = ys.dedup.insertionSort (· ≤ ·) := by
  have perm : xs.dedup.Perm ys.dedup :=
    (List.perm_ext_iff_of_nodup (List.nodup_dedup xs) (List.nodup_dedup ys)).mpr fun x => by
      rw [List.mem_dedup, List.mem_dedup, same]
  have whole := (List.perm_insertionSort (· ≤ ·) xs.dedup).trans
    (perm.trans (List.perm_insertionSort (· ≤ ·) ys.dedup).symm)
  exact whole.eq_of_pairwise (fun a b _ _ hab hba => le_antisymm hab hba) (List.pairwise_insertionSort _ _)
    (List.pairwise_insertionSort _ _)

theorem artifactPath_kept (hp : p ∈ artifactPaths root t) (same : t.get? p = t'.get? p) :
    p ∈ artifactPaths root t' := by
  rw [artifactPaths, List.mem_append, pythonModules, benchmarkFiles, List.mem_filter, List.mem_filter,
    mem_pathsBelow, mem_pathsBelow, FileTree.isFile] at hp ⊢
  rwa [← same]

theorem artifactNames_eq (same : ∀ p, p ∈ artifactPaths root t ↔ p ∈ artifactPaths root t') :
    artifactNames root t = artifactNames root t' := by
  refine sorted_eq fun name => ?_
  rw [List.mem_append, List.mem_append, List.mem_map, List.mem_map]
  simp only [same]

/-- What is not tracked is not hashed. -/
theorem frozenArtifactHashes_congr (named : t.Named) (same : ∀ p, Tracked root p → t.get? p = t'.get? p) :
    frozenArtifactHashes root t' = frozenArtifactHashes root t := by
  have names : artifactNames root t = artifactNames root t' := artifactNames_eq fun p =>
    ⟨fun hp => artifactPath_kept hp (same p (below_of_listed hp).2.1),
      fun hp => artifactPath_kept hp (same p (below_of_listed hp).2.1).symm⟩
  rw [frozenArtifactHashes, frozenArtifactHashes, ← names]
  refine Except.mapM_congr fun name hm => ?_
  rw [artifactHash, artifactHash, fileSha256, fileSha256, FileTree.readBytes, FileTree.readBytes,
    same _ (tracked_of_name named hm)]

/-- The hash of every artifact, under its name. -/
theorem frozenArtifactHashes_ok (h : frozenArtifactHashes root t = .ok hashes) :
    hashes.map Prod.fst = artifactNames root t ∧ ∀ entry ∈ hashes, ∃ content,
      t.contentAt (root ++ split slash entry.1) = some content ∧ Sha256.sha256 content = entry.2 := by
  rw [frozenArtifactHashes, Except.mapM_eq_ok] at h
  have each : ∀ name entry, artifactHash root t name = .ok entry → entry.1 = name ∧ ∃ content,
      t.contentAt (root ++ split slash name) = some content ∧ Sha256.sha256 content = entry.2 := by
    intro name entry made
    obtain ⟨sha256, hashed, made⟩ := Except.bind_eq_ok.mp made
    cases made
    exact ⟨rfl, fileSha256_ok.mp hashed⟩
  constructor
  · rw [← List.forall₂_eq_eq_eq, List.forall₂_map_left_iff]
    exact h.flip.imp fun entry name made => (each name entry made).1
  · intro entry hm
    obtain ⟨name, -, made⟩ := h.exists_of_mem_right hm
    obtain ⟨rfl, content⟩ := each name entry made
    exact content

theorem content_of_name {name : Str} (h : frozenArtifactHashes root t = .ok hashes)
    (hm : name ∈ artifactNames root t) : ∃ content, t.contentAt (root ++ split slash name) = some content ∧
      (name, Sha256.sha256 content) ∈ hashes := by
  obtain ⟨names, each⟩ := frozenArtifactHashes_ok h
  rw [← names] at hm
  obtain ⟨⟨name, sha256⟩, listed, rfl⟩ := List.mem_map.mp hm
  obtain ⟨content, found, rfl⟩ := each _ listed
  exact ⟨content, found, listed⟩

theorem isFile_iff {p : Path} : t.isFile p = true ↔ ∃ content, t.contentAt p = some content := by
  rw [FileTree.isFile, FileTree.contentAt]
  cases t.get? p with
  | none => simp
  | some node => cases node <;> simp

/-- The hashes are there exactly if every name is that of a file. -/
theorem frozenArtifactHashes_returns : (∃ hashes, frozenArtifactHashes root t = .ok hashes) ↔
    ∀ name ∈ artifactNames root t, t.isFile (root ++ split slash name) = true := by
  constructor
  · rintro ⟨hashes, h⟩ name hm
    obtain ⟨content, found, -⟩ := content_of_name h hm
    exact isFile_iff.mpr ⟨content, found⟩
  · intro files
    cases h : frozenArtifactHashes root t with
    | ok hashes => exact ⟨hashes, rfl⟩
    | error e =>
      obtain ⟨name, hm, failed⟩ := Except.error_of_mapM h
      obtain ⟨content, found⟩ := isFile_iff.mp (files name hm)
      rw [artifactHash, fileSha256, readBytes_ok.mpr found] at failed
      cases failed

theorem frozenArtifactHashes_total (named : t.Named) : (∃ hashes, frozenArtifactHashes root t = .ok hashes) ↔
    (∀ name ∈ fixedArtifacts, t.isFile (root ++ split slash name) = true) ∧
      ∀ p ∈ pythonModules root t, t.isFile p = true := by
  rw [frozenArtifactHashes_returns]
  constructor
  · intro files
    refine ⟨fun name hm => files name (mem_artifactNames.mpr (Or.inl hm)), fun p hp => ?_⟩
    have listed : p ∈ artifactPaths root t := List.mem_append_left _ hp
    have file := files _ (mem_artifactNames.mpr (Or.inr ⟨p, listed, rfl⟩))
    rwa [split_relativeText named listed] at file
  · rintro ⟨fixed, modules⟩ name hm
    rcases mem_artifactNames.mp hm with listed | ⟨p, listed, rfl⟩
    · exact fixed name listed
    · rw [split_relativeText named listed]
      rcases List.mem_append.mp listed with hp | hp
      · exact modules p hp
      · have kind := (List.mem_filter.mp hp).2
        simp only [Bool.and_eq_true] at kind
        exact kind.1.1

/-- SHA-256 tells the contents of tracked files apart. -/
def ArtifactsApart (root : Path) (t t' : FileTree) : Prop :=
  ∀ p content content', Tracked root p → t.contentAt p = some content → t'.contentAt p = some content' →
    Sha256.sha256 content = Sha256.sha256 content' → content = content'

theorem ArtifactsApart.symm (apart : ArtifactsApart root t t') : ArtifactsApart root t' t :=
  fun p _ _ tracked found found' same => (apart p _ _ tracked found' found same.symm).symm

/-- Trees with the same hashes have the same tracked files. -/
theorem content_of_hashes (named : t.Named) (apart : ArtifactsApart root t t')
    (h : frozenArtifactHashes root t = .ok hashes) (h' : frozenArtifactHashes root t' = .ok hashes)
    (tracked : Tracked root p) {content : Bytes} (found : t.contentAt p = some content) :
    t'.contentAt p = some content := by
  obtain ⟨name, hm, rfl⟩ := name_of_tracked tracked found named
  obtain ⟨other, same, listed⟩ := content_of_name h hm
  rw [found] at same
  cases same
  obtain ⟨content', found', sha256⟩ := (frozenArtifactHashes_ok h').2 _ listed
  rw [apart _ _ _ tracked found found' sha256.symm, found']

theorem artifactPath_of_content (named : t.Named) (h : frozenArtifactHashes root t = .ok hashes)
    (same : ∀ p, Tracked root p → t.contentAt p = t'.contentAt p) (hp : p ∈ artifactPaths root t) :
    p ∈ artifactPaths root t' := by
  have tracked := (below_of_listed hp).2.1
  obtain ⟨content, found, -⟩ := content_of_name h (mem_artifactNames.mpr (Or.inr ⟨p, hp, rfl⟩))
  rw [split_relativeText named hp] at found
  have found' := (same p tracked).symm.trans found
  exact artifactPath_kept hp ((get?_of_contentAt found).trans (get?_of_contentAt found').symm)

/-- The hashes of two projects are the same exactly if their tracked files are. -/
theorem frozenArtifactHashes_eq_iff (named : t.Named) (named' : t'.Named) (apart : ArtifactsApart root t t')
    (h : frozenArtifactHashes root t = .ok hashes) (h' : frozenArtifactHashes root t' = .ok hashes') :
    hashes = hashes' ↔ ∀ p, Tracked root p → t.contentAt p = t'.contentAt p := by
  constructor
  · rintro rfl p tracked
    refine Option.ext fun content => ⟨fun found => ?_, fun found => ?_⟩
    · exact content_of_hashes named apart h h' tracked found
    · exact content_of_hashes named' apart.symm h' h tracked found
  · intro same
    have names : artifactNames root t = artifactNames root t' := artifactNames_eq fun p =>
      ⟨artifactPath_of_content named h same,
        artifactPath_of_content named' h' fun q tracked => (same q tracked).symm⟩
    have equal : frozenArtifactHashes root t' = frozenArtifactHashes root t := by
      rw [frozenArtifactHashes, frozenArtifactHashes, ← names]
      refine Except.mapM_congr fun name hm => ?_
      obtain ⟨content, found, -⟩ := content_of_name h hm
      have found' := (same _ (tracked_of_name named hm)).symm.trans found
      rw [artifactHash, artifactHash, fileSha256, fileSha256, readBytes_ok.mpr found, readBytes_ok.mpr found']
    rw [h, h'] at equal
    exact (Except.ok.inj equal).symm

/-- What the hashes of the artifacts of a project stand for: the tracked files, and not the cases that are built.
Where the project lies below a directory of the name of the builds, they leave the benchmark out. -/
structure ArtifactsExact (root : Path) (t : FileTree) : Prop where
  succeeds : (∃ hashes, frozenArtifactHashes root t = .ok hashes) ↔
    (∀ name ∈ fixedArtifacts, t.isFile (root ++ split slash name) = true) ∧
      ∀ p ∈ pythonModules root t, t.isFile p = true
  bound : ∀ t' hashes hashes', t'.Named → ArtifactsApart root t t' → frozenArtifactHashes root t = .ok hashes →
    frozenArtifactHashes root t' = .ok hashes' →
    (hashes = hashes' ↔ ∀ p, Tracked root p → t.contentAt p = t'.contentAt p)
  built : ∀ variants, frozenArtifactHashes root (builtProject root variants t) = frozenArtifactHashes root t
  blind : lit "generated" ∈ root → ∀ t', (∀ p, ¬ benchmarkPath root <+: p → t.get? p = t'.get? p) →
    frozenArtifactHashes root t' = frozenArtifactHashes root t

theorem sources_outside {rest rest' : Path} :
    benchmarkPath root ++ rest ≠ sourcesPath root ++ rest' := by
  rw [benchmarkPath, sourcesPath, List.append_assoc, List.append_assoc]
  intro same
  exact absurd (List.cons.inj (List.append_cancel_left same)).1 (by decide)

theorem fixed_outside {name : Str} {rest : Path} (listed : name ∈ fixedArtifacts) :
    benchmarkPath root ++ rest ≠ root ++ split slash name := by
  rw [benchmarkPath, List.append_assoc]
  intro same
  have parts := (List.append_cancel_left same).symm
  simp only [fixedArtifacts, List.mem_cons, List.not_mem_nil, or_false] at listed
  rcases listed with rfl | rfl
  · exact absurd (List.cons.inj parts).1 (by decide)
  · exact absurd (List.cons.inj (List.cons.inj parts).2).1 (by decide)

/-- A tracked file below the benchmark is no build. -/
theorem source_of_tracked (tracked : Tracked root p) (inside : benchmarkPath root <+: p) : lit "generated" ∉ p := by
  obtain ⟨rest, rfl⟩ := inside
  generalize same : benchmarkPath root ++ rest = p at tracked
  cases tracked with
  | fixed listed => exact absurd same (fixed_outside listed)
  | module below =>
    obtain ⟨rest', rfl⟩ := below
    exact absurd same sources_outside
  | benchmark _ _ source => exact source

theorem tracked_outside (tracked : Tracked root p) : ¬ generatedPath (benchmarkPath root) <+: p := by
  intro inside
  have source := source_of_tracked tracked ((List.prefix_append _ _).trans inside)
  exact source (inside.subset (by simp [generatedPath]))

theorem artifact_hashes_exact (named : t.Named) : ArtifactsExact root t where
  succeeds := frozenArtifactHashes_total named
  bound := fun t' hashes hashes' named' apart h h' => frozenArtifactHashes_eq_iff named named' apart h h'
  built := fun variants => frozenArtifactHashes_congr named fun p tracked =>
    (builtTree_frame (tracked_outside tracked)).symm
  blind := by
    intro below t' same
    refine frozenArtifactHashes_congr named fun p tracked => same p ?_
    intro inside
    have whole : lit "generated" ∈ benchmarkPath root := List.mem_append_left _ below
    exact source_of_tracked tracked inside (inside.subset whole)

end Binding

section Artifacts

/-- A project with a module, a benchmark and a built case. -/
def artifactTree : FileTree where
  entries :=
    [([lit "pyproject.toml"], .file (encoded (lit "[project]\n"))),
      ([lit "src"], .dir), ([lit "src", lit "edgecase_forge"], .dir),
      ([lit "src", lit "edgecase_forge", lit "cli.py"], .file (encoded (lit "import typer\n"))),
      ([lit "benchmarks"], .dir), ([lit "benchmarks", lit "manifest.json"], written projectManifest),
      ([lit "benchmarks", lit "flashcart"], .dir),
      ([lit "benchmarks", lit "flashcart", lit "source_app.py"], .file (encoded projectSource)),
      ([lit "benchmarks", lit "flashcart", lit "generated"], .dir),
      ([lit "benchmarks", lit "flashcart", lit "generated", lit "main.py"], .file (encoded projectMutated))]
  nodup := by simp

theorem artifactTree_named : artifactTree.Named := by
  unfold FileTree.Named
  decide

theorem artifact_hashes_exact_project :
    (∃ hashes, frozenArtifactHashes [] artifactTree = .ok hashes) ∧
      artifactNames [] artifactTree = [lit "benchmarks/flashcart/source_app.py", lit "benchmarks/manifest.json",
        lit "pyproject.toml", lit "src/edgecase_forge/cli.py"] ∧ ArtifactsExact [] artifactTree := by
  have exactly : ArtifactsExact [] artifactTree := artifact_hashes_exact artifactTree_named
  exact ⟨exactly.succeeds.mpr (by decide), by decide, exactly⟩

end Artifacts

end EdgecaseForge

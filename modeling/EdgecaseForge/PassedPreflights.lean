import EdgecaseForge.PreflightChecks

namespace EdgecaseForge

open Text Effect Program

section Preflights

variable {root : Path} {oracle : Oracle} {cache cache' : OracleCache} {t t' : FileTree} {checked : Checked}
  {variants : List (Str × Str)} {manifestBytes : Bytes} {manifest : Json} {fingerprint : Str}

/-- A benchmark that passes all checks but the oracle tests. -/
structure PassingBench (root : Path) (t : FileTree) (variants : List (Str × Str)) (manifestBytes : Bytes)
    (manifest : Json) (fingerprint : Str) : Prop where
  noFile : t.isFile (generatedPath (benchmarkPath root)) = false
  made : Variants (benchmarkPath root) t variants
  ids : ∀ id, id ∈ variants.map Prod.fst ↔ id ∈ caseIds
  expected : ∃ fields, readJson (expectedHashesPath root) t = .ok (.obj fields) ∧
    ∀ id, fields.lookup id = (variants.lookup id).map fun source => .str (Sha256.sha256 (encoded source))
  read : t.readBytes (manifestPath root) = .ok manifestBytes
  decoded : jsonLoadsBytes manifestBytes = .ok manifest
  valid : ValidManifest manifest
  fingerprinted : benchmarkFingerprint (hashesOf variants) manifest = .ok fingerprint

/-- The tree that a build leaves in the project. -/
def builtProject (root : Path) (variants : List (Str × Str)) (t : FileTree) : FileTree :=
  builtTree (generatedPath (benchmarkPath root)) variants t

theorem builtProject_expected : readJson (expectedHashesPath root) (builtProject root variants t) =
    readJson (expectedHashesPath root) t := by
  have outside : ¬ generatedPath (benchmarkPath root) <+: expectedHashesPath root := by
    intro h
    have same := (List.prefix_append_right_inj (benchmarkPath root)).mp h
    simp at same
  rw [readJson, readJson, builtProject, readText_kept (builtTree_frame outside)]

theorem builtProject_manifest : (builtProject root variants t).readBytes (manifestPath root) =
    t.readBytes (manifestPath root) := by
  have outside : ¬ generatedPath (benchmarkPath root) <+: manifestPath root := by
    rw [generatedPath, benchmarkPath, manifestPath, List.append_assoc, List.prefix_append_right_inj]
    simp
  rw [FileTree.readBytes, FileTree.readBytes, builtProject, builtTree_frame outside]

theorem keys_hashesOf (once : (variants.map Prod.fst).Nodup) (id : Str) :
    id ∈ (hashesOf variants).keys ↔ id ∈ variants.map Prod.fst := by
  rw [← not_iff_not, ← Dict.get?_eq_none_iff, get?_hashesOf once, Option.map_eq_none_iff, lookup_eq_none]

theorem safe_of_known {hashes : Dict Str Sha256.Digest} {t'' : FileTree}
    (built : (buildAll root).Returns t hashes t'') (known : ∀ id ∈ hashes.keys, id ∈ caseIds) :
    ∀ fields, readJson (mutationsPath root) t = .ok (.obj fields) → ∀ f ∈ fields, SafeName f.1 :=
  fun _ read f hf => caseIds_safe f.1 (known f.1 (buildAll_ids built read f hf))

theorem PassingBench.safe (bench : PassingBench root t variants manifestBytes manifest fingerprint) :
    ∀ fields, readJson (mutationsPath (benchmarkPath root)) t = .ok (.obj fields) → ∀ f ∈ fields, SafeName f.1 := by
  intro fields read f hf
  obtain ⟨source, fields', rest, -, loaded, texts, split⟩ := bench.made.made
  rw [read] at loaded
  cases loaded
  obtain ⟨variant, hv, same, -⟩ := texts.exists_of_mem_left hf
  refine caseIds_safe f.1 ((bench.ids f.1).mp ?_)
  rw [split, ← same]
  exact List.mem_map_of_mem (List.mem_cons_of_mem _ hv)

/-- A preflight succeeds exactly on a benchmark that passes its checks and, where they have to run, its tests. -/
theorem preflightFlashcart_returns (rooted : t.Rooted) :
    (preflightFlashcart root oracle cache).Returns t (checked, cache') t' ↔
      ∃ variants manifestBytes manifest fingerprint,
        PassingBench root t variants manifestBytes manifest fingerprint ∧
        checked = ⟨hashesOf variants, manifest, Sha256.sha256 manifestBytes⟩ ∧
        OraclePasses oracle fingerprint cache (builtProject root variants t) t' ∧
        cache.touch fingerprint () = cache' := by
  constructor
  · intro h
    rw [preflightFlashcart] at h
    obtain ⟨observed, built, hb, h⟩ := returns_bind.mp h
    obtain ⟨expected, _, hr, h⟩ := returns_bind.mp h
    obtain ⟨read, rfl⟩ := returns_inspect.mp hr
    obtain ⟨_, _, hl, h⟩ := returns_bind.mp h
    obtain ⟨shape, rfl⟩ := returns_lift.mp hl
    obtain ⟨_, _, hl, h⟩ := returns_bind.mp h
    obtain ⟨equal, rfl⟩ := returns_lift.mp hl
    obtain ⟨manifestBytes, _, hr, h⟩ := returns_bind.mp h
    obtain ⟨bytes, rfl⟩ := returns_inspect.mp hr
    obtain ⟨manifest, _, hl, h⟩ := returns_bind.mp h
    obtain ⟨decoded, rfl⟩ := returns_lift.mp hl
    obtain ⟨_, _, hl, h⟩ := returns_bind.mp h
    obtain ⟨valid, rfl⟩ := returns_lift.mp hl
    obtain ⟨fingerprint, _, hl, h⟩ := returns_bind.mp h
    obtain ⟨fingerprinted, rfl⟩ := returns_lift.mp hl
    obtain ⟨touched, _, ho, h⟩ := returns_bind.mp h
    obtain ⟨pair, rfl⟩ := returns_pure.mp h
    cases pair
    obtain ⟨passes, rfl⟩ := runOraclePreflight_returns.mp ho
    obtain ⟨fields, rfl, known, same⟩ := (expected_ok (readJson_distinct read)).mp
      ⟨shape, Except.check_eq_ok.mp equal⟩
    have safe := safe_of_known hb fun id hm => (known id).mp hm
    obtain ⟨noFile, variants, made, rfl, rfl⟩ := (buildAll_returns rooted safe).mp hb
    refine ⟨variants, manifestBytes, manifest, fingerprint, ⟨noFile, made, fun id => ?_,
      ⟨fields, ?_, fun id => ?_⟩, ?_, decoded, validateManifest_ok.mp valid, fingerprinted⟩, rfl, passes, rfl⟩
    · rw [← keys_hashesOf made.once, known]
    · exact builtProject_expected.symm.trans read
    · rw [same, get?_hashesOf made.once, Option.map_map]
      rfl
    · exact builtProject_manifest.symm.trans bytes
  · rintro ⟨variants, manifestBytes, manifest, fingerprint, bench, rfl, passes, rfl⟩
    obtain ⟨fields, read, same⟩ := bench.expected
    have again : readJson (expectedHashesPath root) (builtProject root variants t) = .ok (.obj fields) :=
      builtProject_expected.trans read
    have checks : checkExpected (.obj fields) = .ok () ∧
        (hashesPayload (hashesOf variants)).pyEq (.obj fields) = true := by
      refine (expected_ok (readJson_distinct read)).mpr ⟨fields, rfl, fun id => ?_, fun id => ?_⟩
      · rw [keys_hashesOf bench.made.once, bench.ids]
      · rw [same, get?_hashesOf bench.made.once, Option.map_map]
        rfl
    rw [preflightFlashcart]
    refine returns_bind.mpr ⟨hashesOf variants, builtProject root variants t, (buildAll_returns rooted
      bench.safe).mpr ⟨bench.noFile, variants, bench.made, rfl, rfl⟩, ?_⟩
    refine returns_bind.mpr ⟨.obj fields, _, returns_inspect.mpr ⟨again, rfl⟩, ?_⟩
    refine returns_bind.mpr ⟨(), _, returns_lift.mpr ⟨checks.1, rfl⟩, ?_⟩
    refine returns_bind.mpr ⟨(), _, returns_lift.mpr ⟨Except.check_eq_ok.mpr checks.2, rfl⟩, ?_⟩
    have bytes : (builtProject root variants t).readBytes (manifestPath root) = .ok manifestBytes :=
      builtProject_manifest.trans bench.read
    refine returns_bind.mpr ⟨manifestBytes, _, returns_inspect.mpr ⟨bytes, rfl⟩, ?_⟩
    refine returns_bind.mpr ⟨manifest, _, returns_lift.mpr ⟨bench.decoded, rfl⟩, ?_⟩
    refine returns_bind.mpr ⟨(), _, returns_lift.mpr ⟨validateManifest_ok.mpr bench.valid, rfl⟩, ?_⟩
    refine returns_bind.mpr ⟨fingerprint, _, returns_lift.mpr ⟨bench.fingerprinted, rfl⟩, ?_⟩
    exact returns_bind.mpr ⟨_, _, runOraclePreflight_returns.mpr ⟨passes, rfl⟩, returns_pure.mpr ⟨rfl, rfl⟩⟩

theorem PassingBench.decoded_distinct (bench : PassingBench root t variants manifestBytes manifest fingerprint) :
    manifest.distinct = true := by
  obtain ⟨s, -, loaded⟩ := Except.bind_eq_ok.mp bench.decoded
  exact jsonLoads_distinct loaded

/-- The case of the benchmark as it has been built. -/
theorem PassingBench.built (bench : PassingBench root t variants manifestBytes manifest fingerprint)
    (rooted : t.Rooted) {id : Str} (hm : id ∈ caseIds) : ∃ main, (builtProject root variants t).get?
      (generatedPath (benchmarkPath root) ++ [id, lit "main.py"]) = some (.file main) ∧
      (hashesOf variants).get? id = some (Sha256.digest main) := by
  cases found : variants.lookup id with
  | none => exact absurd ((bench.ids id).mpr hm) (lookup_eq_none.mp found)
  | some source =>
    refine ⟨encoded source, ?_, ?_⟩
    · rw [builtProject, shows_builtTree rooted bench.made.once bench.made.apart [id, lit "main.py"]]
      simp [builtNode, found, caseNode]
    · rw [get?_hashesOf bench.made.once, found, Option.map_some]

/-- What a suite may rely on after a preflight: the hashes are those of the cases as they were built, and
every case that may be selected has its contract. -/
structure Vouched (root : Path) (built : FileTree) (checked : Checked) : Prop where
  preflight : ∃ preflight : Preflight, preflight.sourceHashes = checked.sourceHashes ∧
    preflight.manifest = checked.manifest ∧ preflight.manifestSha256 = checked.manifestSha256
  sources : ∀ id ∈ caseIds, ∃ main, built.get? (generatedPath (benchmarkPath root) ++ [id, lit "main.py"]) =
    some (.file main) ∧ checked.sourceHashes.get? id = some (Sha256.digest main)
  contracts : ∀ selection selected, validateCases selection = .ok selected → ∀ id ∈ selected,
    ∃ contract, expectedCase checked.manifest id = .ok contract ∧
      (id ≠ cleanControl → contract.get? (lit "id") = some (.str id))

theorem PassingBench.vouched (bench : PassingBench root t variants manifestBytes manifest fingerprint)
    (rooted : t.Rooted) : Vouched root (builtProject root variants t)
      ⟨hashesOf variants, manifest, Sha256.sha256 manifestBytes⟩ where
  preflight := by
    refine ⟨⟨hashesOf variants, manifest, Sha256.sha256 manifestBytes, fun id hm => ?_, bench.decoded_distinct⟩,
      rfl, rfl, rfl⟩
    obtain ⟨main, -, found⟩ := bench.built rooted hm
    rw [found]
    rfl
  sources := fun _ hm => bench.built rooted hm
  contracts := by
    intro selection selected valid id hm
    exact bench.valid.expectedCase ((validateCases_ok valid).2.2 id hm)

/-- What `preflight_flashcart` does on a tree. -/
structure PreflightExact (root : Path) (oracle : Oracle) (cache : OracleCache) (t : FileTree) : Prop where
  succeeds : (∃ checked cache' t', (preflightFlashcart root oracle cache).Returns t (checked, cache') t') ↔
    ∃ variants manifestBytes manifest fingerprint,
      PassingBench root t variants manifestBytes manifest fingerprint ∧
      ∃ t', OraclePasses oracle fingerprint cache (builtProject root variants t) t'
  vouches : ∀ checked cache' t', (preflightFlashcart root oracle cache).Returns t (checked, cache') t' →
    ∃ variants fingerprint, Vouched root (builtProject root variants t) checked ∧
      OraclePasses oracle fingerprint cache (builtProject root variants t) t' ∧
      ∀ q, ¬ generatedPath (benchmarkPath root) <+: q → (builtProject root variants t).get? q = t.get? q

theorem preflight_exact (rooted : t.Rooted) : PreflightExact root oracle cache t where
  succeeds := by
    constructor
    · rintro ⟨checked, cache', t', h⟩
      obtain ⟨variants, manifestBytes, manifest, fingerprint, bench, -, passes, -⟩ :=
        (preflightFlashcart_returns rooted).mp h
      exact ⟨variants, manifestBytes, manifest, fingerprint, bench, t', passes⟩
    · rintro ⟨variants, manifestBytes, manifest, fingerprint, bench, t', passes⟩
      exact ⟨_, _, t', (preflightFlashcart_returns rooted).mpr
        ⟨variants, manifestBytes, manifest, fingerprint, bench, rfl, passes, rfl⟩⟩
  vouches := by
    intro checked cache' t' h
    obtain ⟨variants, manifestBytes, manifest, fingerprint, bench, rfl, passes, -⟩ :=
      (preflightFlashcart_returns rooted).mp h
    exact ⟨variants, fingerprint, bench.vouched rooted, passes, fun q hq => builtTree_frame hq⟩

end Preflights

section Project

def projectSource : Str :=
  lit "price = 1\n"

def projectMutated : Str :=
  lit "price = 2\n"

def projectEdits : Json :=
  .list [.object [("find", .str (lit "1")), ("replace", .str (lit "2"))]]

/-- A benchmark in which every mutant changes the price. -/
def projectVariants : List (Str × Str) :=
  (cleanControl, projectSource) :: caseIds.tail.map fun id => (id, projectMutated)

def projectMutations : Json :=
  .obj (caseIds.tail.map fun id => (id, projectEdits))

def projectMutant (id : Str) : Json :=
  .object [("id", .str id), ("category", .str (lit "pricing")), ("invariant", .str (lit "The price is 1.")),
    ("oracle", .str (lit "check_price"))]

def projectManifest : Json :=
  .object [("benchmark_version", .str benchmarkVersion), ("status", .str (lit "frozen")),
    ("clean_control", .str cleanControl), ("mutants", .list (caseIds.tail.map projectMutant))]

def written (payload : Json) : Node :=
  .file (encoded (Json.encode Json.compact 0 payload ++ []))

def projectTree : FileTree where
  entries :=
    [([lit "benchmarks"], .dir), ([lit "benchmarks", lit "flashcart"], .dir),
      ([lit "benchmarks", lit "flashcart", lit "source_app.py"], .file (encoded projectSource)),
      ([lit "benchmarks", lit "flashcart", lit "mutations"], .dir),
      ([lit "benchmarks", lit "flashcart", lit "mutations", lit "mutations.json"], written projectMutations),
      ([lit "benchmarks", lit "flashcart", lit "expected_hashes.json"],
        written (hashesPayload (hashesOf projectVariants))),
      ([lit "benchmarks", lit "manifest.json"], written projectManifest)]
  nodup := by simp

theorem projectTree_rooted : projectTree.Rooted :=
  FileTree.rooted_of_keys (by decide)

theorem project_ids : projectVariants.map Prod.fst = caseIds := by
  rw [projectVariants, List.map_cons, List.map_map]
  rfl

theorem caseIds_nodup : caseIds.Nodup := by
  decide

theorem caseIds_isUnicode : ∀ id ∈ caseIds, isUnicode id = true := by
  decide

theorem projectEdits_encodable : projectEdits.encodable = true := by
  simp [projectEdits, Json.encodable_object, Json.encodable_list, isUnicode_lit]

theorem project_edited (id : Str) : CaseText projectSource (id, projectEdits) (id, projectMutated) :=
  ⟨rfl, _, rfl, (@applyEdits_ok id _ _ _).mp (by rfl)⟩

theorem project_text : readText (sourcePath (benchmarkPath [])) projectTree = .ok projectSource :=
  readText_plain (isUnicode_lit _) (List.forall_iff_forall_mem.mp (by decide))
    (Dict.get?_of_mem (by simp [projectTree, sourcePath, benchmarkPath]))

theorem project_mutations : readJson (mutationsPath (benchmarkPath [])) projectTree = .ok projectMutations := by
  have encodable : projectMutations.encodable = true := by
    refine Json.encodable_obj.mpr fun field hf => ?_
    obtain ⟨id, hm, rfl⟩ := List.mem_map.mp hf
    exact ⟨caseIds_isUnicode id (List.mem_of_mem_tail hm), projectEdits_encodable⟩
  exact readJson_encoded (List.forall_mem_nil _) (by decide) encodable
    (Dict.get?_of_mem (by simp [projectTree, mutationsPath, benchmarkPath, written, encoded]))

theorem project_once : (projectVariants.map Prod.fst).Nodup := by
  rw [project_ids]
  exact caseIds_nodup

theorem project_expected : readJson (expectedHashesPath []) projectTree =
    .ok (hashesPayload (hashesOf projectVariants)) := by
  have ids : ∀ entry ∈ (hashesOf projectVariants).entries, isUnicode entry.1 = true := by
    intro entry hm
    refine caseIds_isUnicode entry.1 ?_
    rw [← project_ids, ← keys_hashesOf project_once]
    exact List.mem_map_of_mem hm
  exact readJson_encoded (List.forall_mem_nil _) (hashesPayload_distinct _) (hashesPayload_encodable ids)
    (Dict.get?_of_mem (by simp [projectTree, expectedHashesPath, benchmarkPath, written, encoded]))

theorem project_variants : Variants (benchmarkPath []) projectTree projectVariants where
  made := by
    refine ⟨projectSource, _, _, project_text, project_mutations, ?_, rfl⟩
    rw [List.forall₂_map_left_iff, List.forall₂_map_right_iff]
    exact List.forall₂_same.mpr fun id _ => project_edited id
  once := project_once
  apart := by
    rw [project_ids]
    decide
  texts := by
    have source : isUnicode projectSource = true := isUnicode_lit _
    have mutated : isUnicode projectMutated = true := isUnicode_lit _
    refine List.forall_mem_cons.mpr ⟨source, fun variant hv => ?_⟩
    obtain ⟨id, -, rfl⟩ := List.mem_map.mp hv
    exact mutated

theorem projectManifest_encodable : projectManifest.encodable = true := by
  have mutants : ∀ mutant ∈ caseIds.tail.map projectMutant, mutant.encodable = true := by
    intro mutant hm
    obtain ⟨id, listed, rfl⟩ := List.mem_map.mp hm
    simp [projectMutant, Json.encodable_object, isUnicode_lit, caseIds_isUnicode id (List.mem_of_mem_tail listed)]
  rw [projectManifest, Json.encodable_object]
  simp only [List.map_cons, List.map_nil, List.forall_mem_cons, Json.encodable_list]
  have text : ∀ s, (Json.str (lit s)).encodable = true := fun s => Json.encodable_str.trans (isUnicode_lit s)
  exact ⟨text _, text _, text _, mutants, List.forall_mem_nil _⟩

theorem projectManifest_valid : ValidManifest projectManifest where
  version := by
    rw [projectManifest, Json.get?_object]
    rfl
  status := by
    rw [projectManifest, Json.get?_object]
    rfl
  control := by
    rw [projectManifest, Json.get?_object]
    rfl
  mutants := by
    refine ⟨caseIds.tail.map projectMutant, ?_, ?_⟩
    · rw [projectManifest, Json.get?_object]
      rfl
    · rw [List.forall₂_map_right_iff]
      refine List.forall₂_same.mpr fun id _ => ⟨?_, ?_⟩
      · rw [projectMutant, Json.get?_object]
        rfl
      · intro field hf
        simp only [requiredFields, List.mem_cons, List.not_mem_nil, or_false] at hf
        rcases hf with rfl | rfl | rfl
        · exact ⟨_, by rw [projectMutant, Json.get?_object]; rfl, by decide⟩
        · exact ⟨_, by rw [projectMutant, Json.get?_object]; rfl, by decide⟩
        · exact ⟨_, by rw [projectMutant, Json.get?_object]; rfl, by decide⟩

theorem projectManifest_decoded :
    jsonLoadsBytes (encoded (Json.encode Json.compact 0 projectManifest ++ [])) = .ok projectManifest := by
  have unicode : isUnicode (Json.encode Json.compact 0 projectManifest ++ []) = true :=
    isUnicode_append (Json.encode_compact_isUnicode projectManifest_encodable) rfl
  have text := utf8Encode_eq_some.mpr ⟨unicode, rfl⟩
  obtain ⟨rest, begins⟩ : ∃ rest, Json.encode Json.compact 0 projectManifest ++ [] = 0x7B :: 0x22 :: rest :=
    ⟨_, rfl⟩
  have read : decodeJsonBytes (encoded (Json.encode Json.compact 0 projectManifest ++ [])) =
      .ok (Json.encode Json.compact 0 projectManifest ++ []) := by
    rw [begins] at text ⊢
    exact decodeJsonBytes_encoded (by decide) (by decide) text
  rw [jsonLoadsBytes, read, Except.ok_bind]
  exact jsonLoads_encode Json.compact_readable (by decide)
    (Json.encodable_printable projectManifest_encodable) (List.forall_mem_nil _)

theorem project_fingerprint : ∃ fingerprint,
    benchmarkFingerprint (hashesOf projectVariants) projectManifest = .ok fingerprint := by
  have printable : (Json.object [("source_hashes", hashesPayload (hashesOf projectVariants)),
      ("manifest", projectManifest)]).printable = true := by
    simp [Json.object, Json.printable, Json.printableFields_eq_true, hashesPayload_printable,
      Json.encodable_printable projectManifest_encodable]
  obtain ⟨fingerprint, known, -⟩ := exists_jsonSha256 printable
  exact ⟨fingerprint, known⟩

theorem project_passes : ∃ fingerprint, PassingBench [] projectTree projectVariants
    (encoded (Json.encode Json.compact 0 projectManifest ++ [])) projectManifest fingerprint := by
  obtain ⟨fingerprint, known⟩ := project_fingerprint
  have read : projectTree.readBytes (manifestPath []) =
      .ok (encoded (Json.encode Json.compact 0 projectManifest ++ [])) := by
    have file : projectTree.get? (manifestPath []) = some (written projectManifest) :=
      Dict.get?_of_mem (by simp [projectTree, manifestPath])
    rw [FileTree.readBytes, file]
    rfl
  have noFile : projectTree.isFile (generatedPath (benchmarkPath [])) = false := by
    have absent : projectTree.get? (generatedPath (benchmarkPath [])) = none :=
      Dict.get?_eq_none_iff.mpr (by simp [Dict.keys, projectTree, generatedPath, benchmarkPath])
    rw [FileTree.isFile, absent]
  refine ⟨fingerprint, noFile, project_variants, fun id => by rw [project_ids], ⟨_, project_expected, fun id => ?_⟩,
    read, projectManifest_decoded, projectManifest_valid, known⟩
  change (hashesPayload (hashesOf projectVariants)).get? id = _
  rw [hashesPayload_eq, get?_hashesOf project_once, Option.map_map]
  rfl

/-- The oracle tests pass. -/
def passingOracle : Oracle :=
  fun t => (t, .ok ⟨0, [], []⟩)

theorem preflight_exact_project : PreflightExact [] passingOracle Recent.Cache.empty projectTree ∧
    ∃ fingerprint, PassingBench [] projectTree projectVariants
      (encoded (Json.encode Json.compact 0 projectManifest ++ [])) projectManifest fingerprint :=
  ⟨preflight_exact projectTree_rooted, project_passes⟩

end Project

end EdgecaseForge

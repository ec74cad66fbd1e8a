import EdgecaseForge.PassedPreflights
import EdgecaseForge.SuiteFingerprints

namespace EdgecaseForge

open Text Effect Program

/-- A preflight that has passed: what it returned, and the tests it had on the project as it was built. -/
structure PassedPreflight where
  checked : Checked
  fingerprint : Str
  oracle : Oracle
  built : FileTree

namespace PassedPreflight

def key (passed : PassedPreflight) : Str × Unit :=
  (passed.fingerprint, ())

/-- What the fingerprint is the hash of. -/
def payload (passed : PassedPreflight) : Json :=
  .object [("source_hashes", hashesPayload passed.checked.sourceHashes), ("manifest", passed.checked.manifest)]

/-- The oracle tests of a preflight pass on the project as it was built. -/
def Tested (passed : PassedPreflight) : Prop :=
  ∃ t' completed, passed.oracle passed.built = (t', .ok completed) ∧ completed.returncode = 0

end PassedPreflight

/-- The preflights of a process that have passed, the newest first, with the cache after them. Whatever happens
to the project in between, a preflight that fails leaves the cache as it is. -/
inductive Preflights (root : Path) : List PassedPreflight → OracleCache → Prop
  | start : Preflights root [] Recent.Cache.empty
  | passed {history : List PassedPreflight} {cache cache' : OracleCache} {t t' : FileTree} {checked : Checked}
      {oracle : Oracle} {fingerprint : Str} (before : Preflights root history cache) (rooted : t.Rooted)
      (returns : (preflightFlashcart root oracle cache).Returns t (checked, cache') t')
      (printed : benchmarkFingerprint checked.sourceHashes checked.manifest = .ok fingerprint) :
      Preflights root (⟨checked, fingerprint, oracle, (buildAll (benchmarkPath root) t).state⟩ :: history) cache'

section Sorted

variable {hashes hashes' : Dict Str Sha256.Digest}

theorem mem_sorted_hashes {id : Str} {digest : Sha256.Digest} : hashes.get? id = some digest ↔
    (id, Json.str digest.text) ∈ (Json.sortKeysFields (hashes.entries.map fun entry =>
      (entry.1, Json.str entry.2.text))).insertionSort fun a b => a.1 ≤ b.1 := by
  rw [List.mem_insertionSort, Json.mem_sortKeysFields]
  constructor
  · intro found
    exact ⟨(id, .str digest.text), List.mem_map_of_mem (Dict.mem_of_get? found), rfl⟩
  · rintro ⟨field, hf, same⟩
    obtain ⟨entry, hm, rfl⟩ := List.mem_map.mp hf
    obtain ⟨rfl, text⟩ := Prod.ext_iff.mp same
    rw [Sha256.Digest.ext (Json.str.inj text)]
    exact Dict.get?_of_mem hm

/-- Hashes that are written alike are the same for every case. -/
theorem hashesPayload_sortKeys (h : (hashesPayload hashes).sortKeys = (hashesPayload hashes').sortKeys) (id : Str) :
    hashes.get? id = hashes'.get? id := by
  rw [hashesPayload, hashesPayload, Json.sortKeys, Json.sortKeys] at h
  refine Option.ext fun digest => ?_
  rw [mem_sorted_hashes, mem_sorted_hashes, Json.obj.inj h]

end Sorted

section Histories

variable {root : Path} {history : List PassedPreflight} {cache : OracleCache}

/-- What the cache of the oracle tests stands for after any preflights of a process. -/
structure OracleHistory (history : List PassedPreflight) (cache : OracleCache) : Prop where
  cached : ∀ fingerprint, cache.get? fingerprint = some () ↔ ∃ before passed after,
    history = before ++ passed :: after ∧ passed.fingerprint = fingerprint ∧
    (∀ other ∈ before, other.fingerprint ≠ fingerprint) ∧
    (before.map PassedPreflight.fingerprint).toFinset.card < 4
  tested : ∀ before passed after, history = before ++ passed :: after →
    ∃ first ∈ passed :: after, first.fingerprint = passed.fingerprint ∧ first.Tested
  bound : ∀ passed ∈ history, ∀ other ∈ history, passed.fingerprint = other.fingerprint →
    FreezeCall.Identified passed.payload other.payload →
    passed.checked.manifest.sortKeys = other.checked.manifest.sortKeys ∧
      ∀ id, passed.checked.sourceHashes.get? id = other.checked.sourceHashes.get? id

/-- A preflight that passes has its fingerprint in the cache, or has run its tests. -/
theorem passes_of_returns {t t' : FileTree} {oracle : Oracle} {checked : Checked} {cache' : OracleCache}
    {fingerprint : Str} (rooted : t.Rooted)
    (returns : (preflightFlashcart root oracle cache).Returns t (checked, cache') t')
    (printed : benchmarkFingerprint checked.sourceHashes checked.manifest = .ok fingerprint) :
    OraclePasses oracle fingerprint cache (buildAll (benchmarkPath root) t).state t' ∧
      cache.touch fingerprint () = cache' := by
  obtain ⟨variants, manifestBytes, manifest, known, bench, rfl, passes, touched⟩ :=
    (preflightFlashcart_returns rooted).mp returns
  have same : known = fingerprint := Except.ok.inj (bench.fingerprinted.symm.trans printed)
  subst same
  have built := (buildAll_returns rooted bench.safe).mpr ⟨bench.noFile, variants, bench.made, rfl, rfl⟩
  rw [built.2]
  exact ⟨passes, touched⟩

theorem Preflights.holds (h : Preflights root history cache) :
    Recent.Holds (history.map PassedPreflight.key) cache := by
  induction h with
  | start => exact Recent.Holds.empty
  | passed before rooted returns printed ih =>
    obtain ⟨-, rfl⟩ := passes_of_returns rooted returns printed
    exact ih.touch _ ()

theorem Preflights.cached (h : Preflights root history cache) (fingerprint : Str) :
    cache.get? fingerprint = some () ↔ ∃ before passed after, history = before ++ passed :: after ∧
      passed.fingerprint = fingerprint ∧ (∀ other ∈ before, other.fingerprint ≠ fingerprint) ∧
      (before.map PassedPreflight.fingerprint).toFinset.card < 4 := by
  have keys : ∀ passed : List PassedPreflight,
      (passed.map PassedPreflight.key).map Prod.fst = passed.map PassedPreflight.fingerprint := by
    intro passed
    rw [List.map_map]
    rfl
  rw [h.holds.get?_iff]
  constructor
  · rintro ⟨front, back, split, absent, few⟩
    obtain ⟨before, others, rfl, rfl, second⟩ := List.map_eq_append_iff.mp split
    obtain ⟨passed, after, rfl, same, -⟩ := List.map_eq_cons_iff.mp second
    rw [keys] at absent few
    refine ⟨before, passed, after, rfl, (Prod.ext_iff.mp same).1, fun other hm equal => absent ?_, few⟩
    exact equal ▸ List.mem_map_of_mem hm
  · rintro ⟨before, passed, after, rfl, rfl, absent, few⟩
    refine ⟨before.map PassedPreflight.key, after.map PassedPreflight.key, by rw [List.map_append]; rfl, ?_, ?_⟩
    · rw [keys]
      intro hm
      obtain ⟨other, listed, same⟩ := List.mem_map.mp hm
      exact absent other listed same
    · rwa [keys]

/-- Of the preflights with a fingerprint that passed, the first has run its tests. -/
theorem Preflights.tested (h : Preflights root history cache) : ∀ before passed after,
    history = before ++ passed :: after →
    ∃ first ∈ passed :: after, first.fingerprint = passed.fingerprint ∧ first.Tested := by
  induction h with
  | start =>
    intro before passed after split
    simp at split
  | @passed history cache cache' t t' checked oracle fingerprint before rooted returns printed ih =>
    intro front passed after split
    cases front with
    | cons head front =>
      rw [List.cons_append, List.cons.injEq] at split
      exact ih front passed after split.2
    | nil =>
      rw [List.nil_append, List.cons.injEq] at split
      obtain ⟨rfl, rfl⟩ := split
      rcases (passes_of_returns rooted returns printed).1 with ⟨held, -⟩ | ⟨-, completed, ran, code⟩
      · obtain ⟨newer, other, older, rfl, same, -⟩ := (before.cached fingerprint).mp held
        obtain ⟨first, hm, one, tested⟩ := ih newer other older rfl
        exact ⟨first, List.mem_cons_of_mem _ (List.mem_append_right _ hm), one.trans same, tested⟩
      · exact ⟨_, List.mem_cons_self, rfl, t', completed, ran, code⟩

theorem Preflights.printed (h : Preflights root history cache) : ∀ passed ∈ history,
    jsonSha256 passed.payload = .ok passed.fingerprint := by
  induction h with
  | start => exact List.forall_mem_nil _
  | passed before rooted returns printed ih => exact List.forall_mem_cons.mpr ⟨printed, ih⟩

/-- Over any preflights of a process the oracle tests are skipped exactly where their fingerprint is among the
last four that passed, and a fingerprint passes only where its tests have passed. -/
theorem preflights_tested (h : Preflights root history cache) : OracleHistory history cache where
  cached := h.cached
  tested := h.tested
  bound := by
    intro passed hp other ho same identified
    have equal := identified.sortKeys (h.printed passed hp) (same ▸ h.printed other ho)
    rw [PassedPreflight.payload, PassedPreflight.payload, Json.sortKeys_object_inj (by rfl) (by simp)] at equal
    simp only [List.map_cons, List.map_nil, List.cons.injEq, and_true] at equal
    exact ⟨equal.2, hashesPayload_sortKeys equal.1⟩

end Histories

section Skipped

/-- The oracle tests fail. -/
def failingOracle : Oracle :=
  fun t => (t, .ok ⟨1, [], []⟩)

/-- A second preflight passes without its tests, which would fail. -/
theorem skipped_history : ∃ first second cache, second.oracle = failingOracle ∧
    Preflights [] [second, first] cache := by
  obtain ⟨fingerprint, bench⟩ := project_passes
  have once : OraclePasses passingOracle fingerprint Recent.Cache.empty
      (builtProject [] projectVariants projectTree) (builtProject [] projectVariants projectTree) :=
    Or.inr ⟨rfl, _, rfl, rfl⟩
  have one := (preflightFlashcart_returns projectTree_rooted).mpr ⟨_, _, _, _, bench, rfl, once, rfl⟩
  have first := Preflights.passed .start projectTree_rooted one bench.fingerprinted
  have held := (first.cached fingerprint).mpr ⟨[], _, [], rfl, rfl, List.forall_mem_nil _, by simp⟩
  have again : OraclePasses failingOracle fingerprint _ (builtProject [] projectVariants projectTree)
      (builtProject [] projectVariants projectTree) := Or.inl ⟨held, rfl⟩
  have two := (preflightFlashcart_returns projectTree_rooted).mpr ⟨_, _, _, _, bench, rfl, again, rfl⟩
  exact ⟨_, _, _, rfl, first.passed projectTree_rooted two bench.fingerprinted⟩

theorem preflights_tested_skipped : ∃ first second cache, second.oracle = failingOracle ∧
    OracleHistory [second, first] cache := by
  obtain ⟨first, second, cache, failing, history⟩ := skipped_history
  exact ⟨first, second, cache, failing, preflights_tested history⟩

end Skipped

end EdgecaseForge

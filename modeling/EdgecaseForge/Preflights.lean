import EdgecaseForge.CaseBuilds
import EdgecaseForge.FailureKinds
import EdgecaseForge.JsonBytes
import EdgecaseForge.RecentCalls

namespace EdgecaseForge

open Text Effect

def benchmarkPath (root : Path) : Path :=
  root ++ [lit "benchmarks", lit "flashcart"]

/-- `EXPECTED_HASHES_PATH` below the root of the project. -/
def expectedHashesPath (root : Path) : Path :=
  benchmarkPath root ++ [lit "expected_hashes.json"]

def manifestPath (root : Path) : Path :=
  root ++ [lit "benchmarks", lit "manifest.json"]

section Expected

/-- `set(keys) == set(CASE_IDS)`. -/
def sameIds (keys : List Json) : Bool :=
  (caseIds.all fun id => keys.any fun key => key.pyEq (.str id)) &&
    keys.all fun key => caseIds.any fun id => key.pyEq (.str id)

def dictValues : Json → Except PyError (List Json)
  | .obj fields => .ok (fields.map Prod.snd)
  | _ => .error .attributeError

def isHashText : Json → Bool
  | .str s => s.length == 64
  | _ => false

/-- The checks on the shape of the expected hashes. -/
def checkExpected (expected : Json) : Except PyError Unit := do
  let malformed := PyError.runtimeError (lit "Frozen FlashCart expected hashes are malformed")
  let keys ← iterated expected
  Except.check (keys.all isHashable) .typeError
  Except.check (sameIds keys) malformed
  let values ← dictValues expected
  Except.check (values.all isHashText) malformed

end Expected

section Manifest

def mutantsOf : Json → Except PyError (List Json)
  | .list items => .ok items
  | _ => .error (.runtimeError (lit "Benchmark manifest mutants must be a list"))

/-- `item.get("id")` of an item that is a dictionary. -/
def idOf : Json → Option Json
  | .obj fields => some ((fields.lookup (lit "id")).getD .null)
  | _ => none

def requiredFields : List String :=
  ["category", "invariant", "oracle"]

/-- `str(value).strip()` as a condition. -/
def isFilled (value : Json) : Bool :=
  !(strip (Json.pyStr value)).isEmpty

def validateMutant (mutant : Json) : Except PyError Unit := do
  let values ← requiredFields.mapM fun field => dictGet mutant field (.str [])
  let id ← dictGet mutant "id" .null
  Except.check (values.all isFilled)
    (.runtimeError (lit "Benchmark manifest case " ++ Json.pyStr id ++ lit " is incomplete"))

def validateMutants : List Json → Except PyError Unit
  | [] => .ok ()
  | mutant :: mutants => do
    validateMutant mutant
    validateMutants mutants

/-- `_validate_manifest`. -/
def validateManifest (manifest : Json) : Except PyError Unit := do
  let version ← dictGet manifest "benchmark_version" .null
  Except.check (version.pyEq (.str benchmarkVersion))
    (.runtimeError (lit "Benchmark manifest version does not match evaluator"))
  let status ← dictGet manifest "status" .null
  Except.check (status.pyEq (.str (lit "frozen"))) (.runtimeError (lit "Benchmark manifest is not frozen"))
  let control ← dictGet manifest "clean_control" .null
  Except.check (control.pyEq (.str cleanControl))
    (.runtimeError (lit "Benchmark manifest clean control must be C00"))
  let value ← dictGet manifest "mutants" .null
  let mutants ← mutantsOf value
  Except.check ((Json.list (mutants.filterMap idOf)).pyEq (texts caseIds.tail))
    (.runtimeError (lit "Benchmark manifest mutant IDs are incomplete or reordered"))
  validateMutants mutants

end Manifest

section Oracle

/-- How the process of the oracle tests ended. -/
structure OracleRun where
  returncode : Int
  stdout : Str
  stderr : Str

/-- The process of the oracle tests. It may change the tree, and it may not end in time. -/
def Oracle : Type :=
  FileTree → FileTree × Except PyError OracleRun

/-- The fingerprints that have passed, as `lru_cache(maxsize=4)` keeps them. -/
abbrev OracleCache : Type :=
  Recent.Cache Str Unit 4

/-- `_run_oracle_preflight`. -/
def runOraclePreflight (oracle : Oracle) (fingerprint : Str) (cache : OracleCache) : Disk OracleCache :=
  match cache.get? fingerprint with
  | some passed => pure (cache.touch fingerprint passed)
  | none => do
    let completed ← Program.act .wrote oracle
    if completed.returncode ≠ 0 then
      Disk.raise (.runtimeError (lit "FlashCart oracle preflight failed:\n" ++
        tail 4000 (completed.stdout ++ lineFeed :: completed.stderr)))
    else pure (cache.touch fingerprint ())

end Oracle

/-- What a preflight returns. -/
structure Checked where
  sourceHashes : Dict Str Sha256.Digest
  manifest : Json
  manifestSha256 : Str

def benchmarkFingerprint (hashes : Dict Str Sha256.Digest) (manifest : Json) : Except PyError Str :=
  jsonSha256 (.object [("source_hashes", hashesPayload hashes), ("manifest", manifest)])

/-- `preflight_flashcart`, with the cache of the process. -/
def preflightFlashcart (root : Path) (oracle : Oracle) (cache : OracleCache) : Disk (Checked × OracleCache) := do
  let observed ← buildAll (benchmarkPath root)
  let expected ← Disk.read (readJson (expectedHashesPath root))
  Program.lift (checkExpected expected)
  Program.lift (Except.check ((hashesPayload observed).pyEq expected)
    (.runtimeError (lit "Built FlashCart variants do not match frozen expected hashes")))
  let manifestBytes ← Disk.read fun t => t.readBytes (manifestPath root)
  let manifest ← Program.lift (jsonLoadsBytes manifestBytes)
  Program.lift (validateManifest manifest)
  let fingerprint ← Program.lift (benchmarkFingerprint observed manifest)
  let cache ← runOraclePreflight oracle fingerprint cache
  pure (⟨observed, manifest, Sha256.sha256 manifestBytes⟩, cache)

end EdgecaseForge

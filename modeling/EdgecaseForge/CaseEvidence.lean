import EdgecaseForge.ExecutionResults
import EdgecaseForge.JsonFiles
import EdgecaseForge.ShaCore

namespace EdgecaseForge

open Text

def slash : CodePoint := 0x2F

/-- `path.as_posix()` of a relative path. -/
def asPosix (parts : Path) : Str :=
  join slash parts

def fileSha256 (p : Path) (t : FileTree) : Except PyError Str := do
  let content ← t.readBytes p
  pure (Sha256.sha256 content)

/-- `json.dumps(payload, sort_keys=True, separators=(",", ":"))`. -/
def canonicalJson (payload : Json) : Except PyError Str :=
  jsonDumps Json.minimal payload.sortKeys

def jsonSha256 (payload : Json) : Except PyError Str := do
  let canonical ← canonicalJson payload
  let bytes ← encodeUtf8 canonical
  pure (Sha256.sha256 bytes)

/-- `n.to_bytes(8, "big")`. -/
def lengthBytes (n : Nat) : Except PyError Bytes :=
  if n < 2 ^ 64 then .ok (Sha256.bigEndian 8 n) else .error .overflowError

def relativeText (root p : Path) : Str :=
  asPosix (p.drop root.length)

def treeEntry (root : Path) (file : Path × Bytes) : Except PyError Bytes := do
  let relative ← encodeUtf8 (relativeText root file.1)
  let relativeLength ← lengthBytes relative.length
  let contentLength ← lengthBytes file.2.length
  pure (relativeLength ++ relative ++ contentLength ++ file.2)

/-- The files of a tree that its hash covers, in the order in which it takes them. -/
def hashedFiles (root : Path) (excluded : List Str) (t : FileTree) : List (Path × Bytes) :=
  (t.filesBelow root).filter fun file =>
    !(excluded.contains (relativeText root file.1) || file.1.contains (lit "__pycache__"))

def treeStream (root : Path) (excluded : List Str) (t : FileTree) : Except PyError Bytes := do
  let entries ← (hashedFiles root excluded t).mapM (treeEntry root)
  pure entries.flatten

def treeSha256 (root : Path) (excluded : List Str) (t : FileTree) : Except PyError Str := do
  let stream ← treeStream root excluded t
  pure (Sha256.sha256 stream)

def portableArgument (index : Nat) (value : Str) : Str :=
  if index = 0 then lit "<python>"
  else if endsWith value (lit "junit.xml") then lit "<junit.xml>"
  else if endsWith value (lit "test_generated_baseline.py") ||
      endsWith value (lit "test_generated.py") then
    lit "<generated-test>"
  else value

def portableCommand (command : List Str) : List Str :=
  command.mapIdx portableArgument

def artifactMetadata (p : Path) (t : FileTree) : Except PyError Json := do
  let content ← t.readBytes p
  pure (.object [("path", .str (p.getLast?.getD [])), ("bytes", .int content.length),
    ("sha256", .str (Sha256.sha256 content)), ("truncated", .bool false)])

def optionalMetadata (p : Path) (t : FileTree) : Except PyError Json :=
  if t.exists_ p then artifactMetadata p t else .ok .null

/-- The hashes of a repository and a test before and after a run. -/
structure HashPairs where
  repo : Str
  repoAfter : Str
  test : Str
  testAfter : Str

def evidencePayload (role : String) (result : ExecutionResult) (hashes : HashPairs)
    (stdout stderr junit : Json) : Json :=
  .object (result.payload stdout stderr (portableCommand result.command) ++
    [("schema_version", .str (lit "pytest-execution-v1")), ("role", .str (lit role)),
      ("repo_sha256", .str hashes.repo), ("repo_sha256_after", .str hashes.repoAfter),
      ("test_sha256", .str hashes.test), ("test_sha256_after", .str hashes.testAfter),
      ("junit", junit)])

def writeUnlessEmpty (p : Path) (s : Str) : Disk Unit :=
  if s.isEmpty then pure () else Disk.writeText p s

def writeExecutionEvidence (role : String) (directory : Path) (result : ExecutionResult)
    (hashes : HashPairs) : Disk Unit := do
  Disk.mkdir true directory
  Disk.writeText (directory ++ [lit "stdout.log"]) result.stdout
  Disk.writeText (directory ++ [lit "stderr.log"]) result.stderr
  writeUnlessEmpty (directory ++ [lit "junit.xml"]) result.junitXml
  let stdout ← Disk.read (artifactMetadata (directory ++ [lit "stdout.log"]))
  let stderr ← Disk.read (artifactMetadata (directory ++ [lit "stderr.log"]))
  let junit ← Disk.read (optionalMetadata (directory ++ [lit "junit.xml"]))
  writeJsonAtomic (directory ++ [lit "execution.json"])
    (evidencePayload role result hashes stdout stderr junit)

end EdgecaseForge

import EdgecaseForge.FrozenBenchmark
import EdgecaseForge.Occurrences
import EdgecaseForge.PyNumbers
import EdgecaseForge.TreeOperations

namespace EdgecaseForge

open Text Effect Occurrences

def neutralReadme : Str :=
  lit ("# FlashCart API\n\nSmall FastAPI checkout service used for API testing evaluation.\n\n" ++
    "Run with `uvicorn main:app`. The service exposes product, order, cancellation,\n" ++
    "and payment-webhook endpoints. Use bearer tokens `buyer-a`, `buyer-b`, or\n" ++
    "`admin` for the benchmark identities.\n")

def pyproject : Str :=
  lit ("[project]\nname = \"flashcart-api\"\nversion = \"1.1.0\"\nrequires-python = \">=3.11\"\n" ++
    "dependencies = [\"fastapi>=0.115,<1\", \"uvicorn>=0.30,<1\"]\n")

/-- `SOURCE` below the directory of the benchmark. -/
def sourcePath (root : Path) : Path :=
  root ++ [lit "source_app.py"]

def mutationsPath (root : Path) : Path :=
  root ++ [lit "mutations", lit "mutations.json"]

/-- `OUTPUT`. -/
def generatedPath (root : Path) : Path :=
  root ++ [lit "generated"]

section Edits

/-- What a `for` loop goes through. -/
def iterated : Json → Except PyError (List Json)
  | .list items => .ok items
  | .obj fields => .ok (fields.map fun field => .str field.1)
  | .str s => .ok (s.map fun c => .str [c])
  | _ => .error .typeError

def textOf : Json → Except PyError Str
  | .str s => .ok s
  | _ => .error .typeError

/-- One edit of a case: its target has to stand exactly once in the text. -/
def applyEdit (caseId : Str) (edit : Json) (mutated : Str) : Except PyError Str := do
  let needle ← subscript edit "find"
  let needle ← textOf needle
  let found := count needle mutated
  if found ≠ 1 then
    .error (.valueError (caseId ++ lit ": expected one mutation target, found " ++ decimalText found))
  else do
    let replacement ← subscript edit "replace"
    let replacement ← textOf replacement
    pure (replaceFirst needle replacement mutated)

def applyEdits (caseId : Str) : List Json → Str → Except PyError Str
  | [], mutated => .ok mutated
  | edit :: edits, mutated => do
    let mutated ← applyEdit caseId edit mutated
    applyEdits caseId edits mutated

/-- The text of a case of the mutation map. -/
def mutatedSource (source : Str) (mutant : Str × Json) : Except PyError Str := do
  let edits ← iterated mutant.2
  applyEdits mutant.1 edits source

/-- `mutation_map.items()`. -/
def mutationItems : Json → Except PyError (List (Str × Json))
  | .obj fields => .ok fields
  | _ => .error .attributeError

end Edits

section Builds

/-- `_write_case`. -/
def writeCase (output : Path) (caseId source : Str) : Disk Sha256.Digest := do
  let caseDir := joinPath output caseId
  Disk.write (FileTree.makeDir caseDir)
  Disk.writeText (caseDir ++ [lit "main.py"]) source
  Disk.writeText (caseDir ++ [lit "README.md"]) neutralReadme
  Disk.writeText (caseDir ++ [lit "pyproject.toml"]) pyproject
  let bytes ← Program.lift (encodeUtf8 source)
  pure (Sha256.digest bytes)

/-- The loop over the mutation map, with the hashes so far. -/
def buildMutants (output : Path) (source : Str) :
    List (Str × Json) → Dict Str Sha256.Digest → Disk (Dict Str Sha256.Digest)
  | [], hashes => pure hashes
  | mutant :: mutants, hashes => do
    let mutated ← Program.lift (mutatedSource source mutant)
    let digest ← writeCase output mutant.1 mutated
    buildMutants output source mutants (hashes.set mutant.1 digest)

/-- `indent=2` with `ensure_ascii=True`. -/
def asciiIndented : Json.Layout where
  pad := Json.indented.pad
  afterComma := []
  afterColon := [0x20]
  escape := Json.asciiEscape

def removeExisting (p : Path) : Disk Unit := do
  let there ← Disk.read fun t => .ok (t.exists_ p)
  if there then Disk.write (FileTree.rmtree p) else pure ()

/-- `build_all`. -/
def buildAll (root : Path) : Disk (Dict Str Sha256.Digest) := do
  let output := generatedPath root
  let source ← Disk.read (readText (sourcePath root))
  let mutationMap ← Disk.read (readJson (mutationsPath root))
  removeExisting output
  Disk.mkdir false output
  let digest ← writeCase output cleanControl source
  let mutants ← Program.lift (mutationItems mutationMap)
  let hashes ← buildMutants output source mutants (Dict.empty.set cleanControl digest)
  let dumped ← Program.lift (jsonDumps asciiIndented (hashesPayload hashes).sortKeys)
  Disk.writeText (output ++ [lit "hashes.json"]) (dumped ++ [lineFeed])
  pure hashes

end Builds

section Exports

/-- What separates the service from the hook of the evaluator. -/
def privateHook : Str :=
  lit "\ndef evaluator_snapshot() -> dict:\n"

/-- The text of a case as an agent is given it. -/
def agentSource (source : Str) : Except PyError Str :=
  match cut privateHook source with
  | some (before, _) => .ok (rstrip before ++ [lineFeed])
  | none => .error (.valueError (lit "Evaluator hook boundary was not found"))

def ensureBuilt (root caseDir : Path) : Disk Unit := do
  let built ← Disk.read fun t => .ok (t.exists_ caseDir)
  if built then pure () else do
    let _ ← buildAll root
    pure ()

def requireAbsent (destination : Path) : Disk Unit := do
  let taken ← Disk.read fun t => .ok (t.exists_ destination)
  if taken then Disk.raise .fileExistsError else pure ()

/-- `export_agent_repo`. -/
def exportAgentRepo (root : Path) (caseId : Str) (destination : Path) : Disk Path := do
  let caseDir := joinPath (generatedPath root) caseId
  ensureBuilt root caseDir
  requireAbsent destination
  Disk.mkdir false destination
  let source ← Disk.read (readText (caseDir ++ [lit "main.py"]))
  let agentSource ← Program.lift (agentSource source)
  Disk.writeText (destination ++ [lit "main.py"]) agentSource
  Disk.write (FileTree.copyFile (caseDir ++ [lit "README.md"]) (destination ++ [lit "README.md"]))
  Disk.write (FileTree.copyFile (caseDir ++ [lit "pyproject.toml"]) (destination ++ [lit "pyproject.toml"]))
  pure destination

end Exports

end EdgecaseForge

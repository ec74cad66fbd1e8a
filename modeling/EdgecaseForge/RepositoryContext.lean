import EdgecaseForge.CaseEvidence

namespace EdgecaseForge

open Text

/-- A repository: its regular files by their relative paths. -/
structure Repository where
  files : Dict Path Bytes
  named : ∀ p ∈ files.keys, p ≠ [] ∧ ∀ part ∈ p, part ≠ [] ∧ slash ∉ part
  apart : ∀ p ∈ files.keys, ∀ q ∈ files.keys, p <+: q → p = q

namespace RepositoryContext

def allowedSuffixes : List Str :=
  [lit ".py", lit ".toml", lit ".md", lit ".yaml", lit ".yml", lit ".json", lit ".ini", lit ".cfg"]

def ignoredNames : List Str :=
  [lit ".env", lit ".git", lit ".venv", lit "__pycache__", lit "node_modules", lit "dist", lit "build",
    lit "solution", lit "oracle"]

def maxFileBytes : Nat := 80000

def maxContextChars : Nat := 180000

def ignoredPart (part : Str) : Bool :=
  ignoredNames.contains part || startsWith part (lit ".env")

def ignored (p : Path) : Bool :=
  p.any ignoredPart

/-- `PurePath.suffix`: from the last dot of the name on, where that is neither its first nor its
last character. -/
def suffix (p : Path) : Str :=
  let name := p.getLast?.getD []
  let after := (name.reverse.takeWhile (· != 0x2E)).reverse
  let before := name.take (name.length - after.length - 1)
  if after.length < name.length ∧ before ≠ [] ∧ after ≠ [] then 0x2E :: after else []

/-- `path.read_text(encoding="utf-8")` of a file with this content. -/
def decodeText (content : Bytes) : Option Str :=
  (utf8Decode content).map universalNewlines

def header (p : Path) : Str :=
  lit "\n--- FILE: " ++ asPosix p ++ lit " ---\n"

/-- The section of a file, unless it is skipped. -/
def fileSection (lower : Str → Str) (file : Path × Bytes) : Option Str :=
  if !allowedSuffixes.contains (lower (suffix file.1)) then none
  else if ignored file.1 then none
  else if maxFileBytes < file.2.length then none
  else (decodeText file.2).map fun content => header file.1 ++ content

/-- The sort key of a path: the paths with priority first, then by name. -/
def keyLe (priority : List Str) (a b : Path × Bytes) : Bool :=
  let first := priority.contains (asPosix a.1)
  let second := priority.contains (asPosix b.1)
  (first && !second) || (first == second) && asPosix a.1 ≤ asPosix b.1

/-- The files in the order in which they are read. -/
def orderedFiles (priority : List Str) (r : Repository) : List (Path × Bytes) :=
  r.files.entries.insertionSort fun a b => keyLe priority a b

/-- The loop over the files, with the length of the sections before. -/
def collectFrom (lower : Str → Str) (maxChars : Nat) : Nat → List (Path × Bytes) → List Str
  | _, [] => []
  | total, file :: rest =>
    match fileSection lower file with
    | none => collectFrom lower maxChars total rest
    | some text =>
      if maxChars < total + text.length then []
      else text :: collectFrom lower maxChars (total + text.length) rest

/-- `collect_repository_context`. -/
def collect (lower : Str → Str) (priority : List Str) (maxChars : Nat) (r : Repository) : Str :=
  (collectFrom lower maxChars 0 (orderedFiles priority r)).flatten

end RepositoryContext

end EdgecaseForge

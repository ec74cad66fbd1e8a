import EdgecaseForge.DictCore
import EdgecaseForge.EffectCore
import EdgecaseForge.ProviderErrors
import Mathlib.Data.List.Infix
import Mathlib.Data.List.Sort

namespace EdgecaseForge

open Text

/-- The parts of an absolute path below the root. -/
abbrev Path := List Str

inductive Node
  | file (content : Bytes)
  | dir
  deriving DecidableEq

abbrev FileTree := Dict Path Node

namespace FileTree

def isFile (t : FileTree) (p : Path) : Bool :=
  match t.get? p with
  | some (.file _) => true
  | _ => false

def isDir (t : FileTree) (p : Path) : Bool :=
  p = [] || t.get? p == some .dir

def exists_ (t : FileTree) (p : Path) : Bool :=
  t.isFile p || t.isDir p

def readBytes (t : FileTree) (p : Path) : Except PyError Bytes :=
  match t.get? p with
  | some (.file content) => .ok content
  | some .dir => .error .isADirectoryError
  | none => .error .fileNotFoundError

/-- Opening a file to write it: its directory has to be there. -/
def openable (t : FileTree) (p : Path) : Except PyError Unit :=
  if t.isDir p then .error .isADirectoryError
  else if t.isDir p.dropLast then .ok ()
  else .error .fileNotFoundError

/-- `path.write_bytes`. -/
def writeBytes (p : Path) (content : Bytes) (t : FileTree) : FileTree × Except PyError Unit :=
  match t.openable p with
  | .ok () => (t.set p (.file content), .ok ())
  | .error e => (t, .error e)

def addDir (t : FileTree) (p : Path) : FileTree :=
  if t.get? p = none then t.set p .dir else t

/-- `path.mkdir(parents=True, exist_ok=existOk)`. -/
def mkdir (existOk : Bool) (p : Path) (t : FileTree) : FileTree × Except PyError Unit :=
  if t.isDir p then (t, if existOk then .ok () else .error .fileExistsError)
  else if t.isFile p then (t, .error .fileExistsError)
  else if p.inits.any t.isFile then (t, .error .notADirectoryError)
  else (p.inits.tail.foldl addDir t, .ok ())

/-- The files below a directory, in the order of their paths. -/
def filesBelow (t : FileTree) (root : Path) : List (Path × Bytes) :=
  (t.entries.filterMap fun entry =>
    match entry.2 with
    | .file content => if root <+: entry.1 ∧ entry.1 ≠ root then some (entry.1, content) else none
    | .dir => none).insertionSort fun a b => a.1 ≤ b.1

end FileTree

/-- What is noted of an operation on the disk: a write, or that a case is evaluated. -/
inductive Note
  | wrote
  | evaluating (repetition : Nat) (caseId : Str)
  deriving DecidableEq

abbrev Disk := Effect.Program FileTree Note PyError

namespace Disk

open Effect

def read {α : Type} (f : FileTree → Except PyError α) : Disk α :=
  Program.inspect f

def raise {α : Type} (e : PyError) : Disk α :=
  Program.lift (.error e)

def write (f : FileTree → FileTree × Except PyError Unit) : Disk Unit :=
  Program.act .wrote f

def mkdir (existOk : Bool) (p : Path) : Disk Unit :=
  write (FileTree.mkdir existOk p)

def writeBytes (p : Path) (content : Bytes) : Disk Unit :=
  write (FileTree.writeBytes p content)

end Disk

namespace FileTree

section Frame

theorem isFile_of_get? {t : FileTree} {p : Path} {content : Bytes}
    (h : t.get? p = some (.file content)) : t.isFile p = true := by
  rw [isFile, h]

theorem exists_of_get? {t : FileTree} {p : Path} {content : Bytes}
    (h : t.get? p = some (.file content)) : t.exists_ p = true := by
  rw [exists_, isFile_of_get? h, Bool.true_or]

variable {t : FileTree} {p q : Path}

theorem get?_addDir_of_some {node : Node} (h : t.get? q = some node) :
    (t.addDir p).get? q = some node := by
  unfold addDir
  split
  next hp =>
    have hne : q ≠ p := by
      rintro rfl
      rw [h] at hp
      cases hp
    rw [Dict.get?_set_ne hne, h]
  next => exact h

theorem get?_addDir_ne (h : q ≠ p) : (t.addDir p).get? q = t.get? q := by
  unfold addDir
  split
  next => exact Dict.get?_set_ne h
  next => rfl

theorem get?_foldl_addDir_of_some {ps : List Path} {node : Node} (h : t.get? q = some node) :
    (ps.foldl addDir t).get? q = some node := by
  induction ps generalizing t with
  | nil => exact h
  | cons p ps ih => exact ih (get?_addDir_of_some h)

theorem get?_foldl_addDir_ne {ps : List Path} (h : q ∉ ps) :
    (ps.foldl addDir t).get? q = t.get? q := by
  induction ps generalizing t with
  | nil => rfl
  | cons p ps ih =>
    rw [List.mem_cons, not_or] at h
    rw [List.foldl_cons, ih h.2, get?_addDir_ne h.1]

/-- Making directories changes no file. -/
theorem mkdir_of_some {existOk : Bool} {node : Node} (h : t.get? q = some node) :
    (mkdir existOk p t).1.get? q = some node := by
  unfold mkdir
  split
  · exact h
  · split
    · exact h
    · split
      · exact h
      · exact get?_foldl_addDir_of_some h

theorem get?_foldl_addDir_mem {ps : List Path} (hp : p ∈ ps)
    (free : t.get? p = none ∨ t.get? p = some .dir) : (ps.foldl addDir t).get? p = some .dir := by
  induction ps generalizing t with
  | nil => cases hp
  | cons q ps ih =>
    rw [List.foldl_cons]
    by_cases same : p = q
    · refine get?_foldl_addDir_of_some ?_
      rw [← same, addDir]
      rcases free with none | dir
      · rw [if_pos none, Dict.get?_set_self]
      · rw [if_neg (by rw [dir]; simp), dir]
    · have rest : p ∈ ps := by simpa [same] using hp
      exact ih rest (by rwa [get?_addDir_ne same])

/-- A directory is there once it has been made. -/
theorem mkdir_made {existOk : Bool} (h : (mkdir existOk p t).2 = .ok ()) :
    (mkdir existOk p t).1.isDir p = true := by
  unfold mkdir at h ⊢
  split at h
  next there => rwa [if_pos there]
  next absent =>
    split at h
    next => cases h
    next noFile =>
      split at h
      next => cases h
      next above =>
        rw [if_neg absent, if_neg noFile, if_neg above]
        have some : p ≠ [] := by
          rintro rfl
          exact absent rfl
        have listed : p ∈ p.inits.tail := by
          cases p with
          | nil => exact absurd rfl some
          | cons name p => simp
        have free : t.get? p = none := by
          cases hg : t.get? p with
          | none => rfl
          | some node =>
            cases node with
            | file content => exact absurd (isFile_of_get? hg) noFile
            | dir => simp [isDir, hg] at absent
        rw [isDir, get?_foldl_addDir_mem listed (Or.inl free)]
        simp

theorem mkdir_ne {existOk : Bool} (h : ¬ q <+: p) : (mkdir existOk p t).1.get? q = t.get? q := by
  have outside : q ∉ p.inits.tail := fun hm =>
    h (List.mem_inits q p |>.mp (List.mem_of_mem_tail hm))
  unfold mkdir
  split
  · rfl
  · split
    · rfl
    · split
      · rfl
      · exact get?_foldl_addDir_ne outside

theorem writeBytes_ne {content : Bytes} (h : q ≠ p) :
    (writeBytes p content t).1.get? q = t.get? q := by
  unfold writeBytes
  split
  next => exact Dict.get?_set_ne h
  next => rfl

end Frame

end FileTree

end EdgecaseForge

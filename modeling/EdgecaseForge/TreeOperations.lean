import EdgecaseForge.ProgressEvidence
import EdgecaseForge.ScanArtifacts

namespace Dict

variable {κ ν : Type*}

/-- The entries whose keys are kept. -/
def filterKeys (d : Dict κ ν) (keep : κ → Bool) : Dict κ ν where
  entries := d.entries.filter fun entry => keep entry.1
  nodup := d.nodup.sublist (List.filter_sublist.map Prod.fst)

theorem lookup_filter_keys [DecidableEq κ] {entries : List (κ × ν)} {keep : κ → Bool} {k : κ} :
    (entries.filter fun entry => keep entry.1).lookup k = if keep k then entries.lookup k else none := by
  induction entries with
  | nil => simp
  | cons entry entries ih =>
    by_cases kept : keep entry.1 = true
    · rw [List.filter_cons_of_pos (by simpa using kept), lookup_cons_if, lookup_cons_if, ih]
      by_cases here : k = entry.1
      · rw [here]
        simp [kept]
      · simp [here]
    · rw [List.filter_cons_of_neg (by simpa using kept), lookup_cons_if, ih]
      by_cases here : k = entry.1
      · rw [here]
        simp [kept]
      · simp [here]

theorem get?_filterKeys [DecidableEq κ] (d : Dict κ ν) (keep : κ → Bool) (k : κ) :
    (d.filterKeys keep).get? k = if keep k then d.get? k else none :=
  lookup_filter_keys

end Dict

namespace EdgecaseForge

open Text Effect Program

/-- `directory / name`. -/
def joinPath (directory : Path) (name : Str) : Path :=
  if isAbsolute name then pathParts name else directory ++ pathParts name

theorem SafeName.joinPath {name : Str} (h : SafeName name) (directory : Path) :
    joinPath directory name = directory ++ [name] := by
  have one : ∀ n ∈ [name], SafeName n := by
    intro n hn
    rwa [List.mem_singleton.mp hn]
  have parts : pathParts name = [name] := pathParts_asPosix (List.cons_ne_nil _ _) one
  have relative : isAbsolute name = false := (asPosix_relative (List.cons_ne_nil _ _) one).2
  rw [EdgecaseForge.joinPath, relative, parts]
  rfl

namespace FileTree

/-- What remains of a tree without a path and everything below it. -/
def clear (p : Path) (t : FileTree) : FileTree :=
  t.filterKeys fun q => !p.isPrefixOf q

/-- `shutil.rmtree(path)`. -/
def rmtree (p : Path) (t : FileTree) : FileTree × Except PyError Unit :=
  if t.isDir p then (t.clear p, .ok ())
  else if t.isFile p then (t, .error .notADirectoryError)
  else (t, .error .fileNotFoundError)

/-- `path.mkdir()`. -/
def makeDir (p : Path) (t : FileTree) : FileTree × Except PyError Unit :=
  if t.exists_ p then (t, .error .fileExistsError)
  else if t.isDir p.dropLast then (t.set p .dir, .ok ())
  else if t.isFile p.dropLast then (t, .error .notADirectoryError)
  else (t, .error .fileNotFoundError)

/-- `shutil.copy2(source, target)`, which copies into a target that is a directory. -/
def copyFile (source target : Path) (t : FileTree) : FileTree × Except PyError Unit :=
  let target := if t.isDir target then target ++ [source.getLast?.getD []] else target
  match t.readBytes source with
  | .ok content => t.writeBytes target content
  | .error e => (t, .error e)

/-- Every entry stands in a directory, and the root is none of them. -/
structure Rooted (t : FileTree) : Prop where
  root : t.get? [] = none
  parent : ∀ p name node, t.get? (p ++ [name]) = some node → t.isDir p = true

section Clear

variable {t : FileTree} {p q : Path}

theorem get?_clear : (t.clear p).get? q = if p <+: q then none else t.get? q := by
  rw [clear, Dict.get?_filterKeys]
  by_cases below : p <+: q <;> simp [below]

theorem get?_clear_below (h : p <+: q) : (t.clear p).get? q = none := by
  rw [get?_clear, if_pos h]

theorem get?_clear_ne (h : ¬ p <+: q) : (t.clear p).get? q = t.get? q := by
  rw [get?_clear, if_neg h]

end Clear

section Rooted

variable {t : FileTree} {p q : Path}

theorem rooted_of_keys (h : ∀ q ∈ Dict.keys t, q ≠ [] ∧ t.isDir q.dropLast = true) : t.Rooted where
  root := Dict.get?_eq_none_iff.mpr fun hm => (h [] hm).1 rfl
  parent := by
    intro p name node found
    have there := (h _ (Dict.mem_keys_of_get? found)).2
    rwa [List.dropLast_concat] at there

theorem Rooted.isDir_above (h : t.Rooted) {node : Node} (hp : t.get? p = some node) (hq : q <+: p)
    (proper : q ≠ p) : t.isDir q = true := by
  obtain ⟨rest, rfl⟩ := hq
  induction rest using List.reverseRecOn generalizing node with
  | nil => exact absurd (List.append_nil q).symm proper
  | append_singleton rest name ih =>
    rw [← List.append_assoc] at hp
    have parent := h.parent (q ++ rest) name node hp
    by_cases same : q = q ++ rest
    · rwa [← same] at parent
    · rcases isDir_iff.mp parent with root | there
      · exact absurd (by simpa using (List.append_eq_nil_iff.mp root).2) same
      · exact ih there same

/-- Nothing stands below what is not there. -/
theorem Rooted.absent (h : t.Rooted) (hp : t.exists_ p = false) (hq : p <+: q) : t.get? q = none := by
  cases found : t.get? q with
  | none => rfl
  | some node =>
    have there : t.exists_ p = true := by
      by_cases same : p = q
      · rw [← same] at found
        cases node with
        | file content => exact exists_of_get? found
        | dir => rw [exists_, isDir_iff.mpr (Or.inr found), Bool.or_true]
      · rw [exists_, h.isDir_above found hq same, Bool.or_true]
    rw [there] at hp
    cases hp

theorem Rooted.isDir_prefix (h : t.Rooted) (hp : t.isDir p = true) (hq : q <+: p) : t.isDir q = true := by
  by_cases same : q = p
  · rwa [same]
  · rcases isDir_iff.mp hp with rfl | there
    · exact absurd (List.prefix_nil.mp hq) same
    · exact h.isDir_above there hq same

theorem Rooted.isFile_of_isDir (h : t.Rooted) (hp : t.isDir p = true) : t.isFile p = false := by
  unfold isFile
  rcases isDir_iff.mp hp with rfl | there
  · rw [h.root]
  · rw [there]

end Rooted

section Making

variable {t : FileTree} {p q directory : Path} {name : Str}

theorem get?_of_not_exists (h : t.exists_ p = false) : t.get? p = none := by
  cases found : t.get? p with
  | none => rfl
  | some node =>
    cases node with
    | file content =>
      rw [exists_of_get? found] at h
      cases h
    | dir =>
      rw [exists_, isDir_iff.mpr (Or.inr found), Bool.or_true] at h
      cases h

theorem Rooted.clear (h : t.Rooted) (p : Path) : (t.clear p).Rooted where
  root := by
    rw [get?_clear, h.root, ite_self]
  parent := by
    intro q name node found
    rw [get?_clear] at found
    split at found
    next => cases found
    next outside =>
      have above : ¬ p <+: q := fun hp => outside (hp.trans (List.prefix_append q [name]))
      rcases isDir_iff.mp (h.parent q name node found) with rfl | there
      · exact isDir_iff.mpr (Or.inl rfl)
      · exact isDir_iff.mpr (Or.inr (by rw [get?_clear_ne above, there]))

/-- A new entry of a directory. -/
theorem Rooted.set (h : t.Rooted) (there : t.isDir directory = true)
    (free : t.get? (directory ++ [name]) ≠ some .dir) (node : Node) :
    Rooted (Dict.set t (directory ++ [name]) node) where
  root := by
    rw [Dict.get?_set_ne (by simp), h.root]
  parent := by
    intro q n other found
    by_cases same : q ++ [n] = directory ++ [name]
    · obtain ⟨rfl, -⟩ := List.append_inj' same rfl
      rcases isDir_iff.mp there with rfl | made
      · exact isDir_iff.mpr (Or.inl rfl)
      · exact isDir_iff.mpr (Or.inr (by rw [Dict.get?_set_ne (by simp), made]))
    · rw [Dict.get?_set_ne same] at found
      rcases isDir_iff.mp (h.parent q n other found) with rfl | made
      · exact isDir_iff.mpr (Or.inl rfl)
      · refine isDir_iff.mpr (Or.inr ?_)
        rw [Dict.get?_set_ne (fun he => free (by rw [← he, made])), made]

theorem foldl_addDir_of_present {ps : List Path} (h : ∀ q ∈ ps, (t.get? q).isSome) : ps.foldl addDir t = t := by
  induction ps with
  | nil => rfl
  | cons p ps ih =>
    have here : t.get? p ≠ none := Option.isSome_iff_ne_none.mp (h p List.mem_cons_self)
    rw [List.foldl_cons, addDir, if_neg here]
    exact ih fun q hq => h q (List.mem_cons_of_mem p hq)

theorem mem_inits_tail (h : q ∈ p.inits.tail) : q <+: p ∧ q ≠ [] := by
  refine ⟨(List.mem_inits q p).mp (List.mem_of_mem_tail h), ?_⟩
  cases p with
  | nil => cases h
  | cons name p =>
    rw [List.inits_cons, List.tail_cons, List.mem_map] at h
    obtain ⟨rest, -, rfl⟩ := h
    exact List.cons_ne_nil name rest

theorem inits_concat (p : Path) (name : Str) : (p ++ [name]).inits = p.inits ++ [p ++ [name]] := by
  rw [List.inits_append]
  rfl

theorem inits_concat_tail (p : Path) (name : Str) : (p ++ [name]).inits.tail = p.inits.tail ++ [p ++ [name]] := by
  have some : p.inits ≠ [] := List.length_pos_iff.mp (by rw [List.length_inits]; omega)
  rw [inits_concat, List.tail_append_of_ne_nil some]

theorem Rooted.noFile_inits (rooted : t.Rooted) (there : t.isDir directory = true) :
    directory.inits.any t.isFile = false := by
  rw [List.any_eq_false]
  intro q hq
  rw [rooted.isFile_of_isDir (rooted.isDir_prefix there ((List.mem_inits q directory).mp hq))]
  exact Bool.false_ne_true

/-- Below a directory that is there, nothing but the new directory has to be made. -/
theorem foldl_addDir_new (rooted : t.Rooted) (there : t.isDir directory = true)
    (absent : t.get? (directory ++ [name]) = none) :
    (directory ++ [name]).inits.tail.foldl addDir t = t.set (directory ++ [name]) .dir := by
  have present : ∀ q ∈ directory.inits.tail, (t.get? q).isSome := by
    intro q hq
    obtain ⟨hp, some⟩ := mem_inits_tail hq
    rcases isDir_iff.mp (rooted.isDir_prefix there hp) with rfl | found
    · exact absurd rfl some
    · rw [found]
      rfl
  rw [inits_concat_tail, List.foldl_append, foldl_addDir_of_present present, List.foldl_cons, List.foldl_nil,
    addDir, if_pos absent]

theorem mkdir_free (noDir : t.isDir p = false) (noFile : t.isFile p = false)
    (noFiles : p.inits.any t.isFile = false) : mkdir false p t = (p.inits.tail.foldl addDir t, .ok ()) := by
  simp only [mkdir, noDir, noFile, noFiles, Bool.false_eq_true, if_false]

theorem mkdir_new (rooted : t.Rooted) (there : t.isDir directory = true)
    (absent : t.exists_ (directory ++ [name]) = false) :
    mkdir false (directory ++ [name]) t = (t.set (directory ++ [name]) .dir, .ok ()) := by
  have noEntry := get?_of_not_exists absent
  rw [exists_, Bool.or_eq_false_iff] at absent
  have noFile : (directory ++ [name]).inits.any t.isFile = false := by
    rw [inits_concat, List.any_append, rooted.noFile_inits there, List.any_cons, absent.1]
    rfl
  rw [mkdir_free absent.2 absent.1 noFile, foldl_addDir_new rooted there noEntry]

end Making

end FileTree

end EdgecaseForge

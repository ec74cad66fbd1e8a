import EdgecaseForge.ProgressReader
import EdgecaseForge.TreeAgreement

namespace EdgecaseForge

open Text

section Paths

variable {root p : Path} {value : Json} {line : Nat}

theorem safeChildPath_below (h : safeChildPath root value line = .ok p) : root <+: p := by
  unfold safeChildPath at h
  split at h
  next s =>
    split at h
    next => cases h
    next =>
      split at h
      next => cases h
      next =>
        obtain ⟨u, -, rfl⟩ := Except.map_eq_ok.mp h
        exact List.prefix_append _ _
  next => cases h

/-- A name that a path may hold as it is. -/
structure SafeName (name : Str) : Prop where
  nonempty : name ≠ []
  notDot : name ≠ lit "."
  notDots : name ≠ lit ".."
  slashFree : slash ∉ name
  usable : checkName name = .ok ()

theorem checkNames_ok {names : Path} (h : ∀ name ∈ names, SafeName name) :
    checkNames names = .ok () := by
  induction names with
  | nil => rfl
  | cons name names ih =>
    have first := (h name List.mem_cons_self).usable
    have others := ih fun n hn => h n (List.mem_cons_of_mem name hn)
    rw [checkNames, first, Except.ok_bind, others]

theorem pathParts_asPosix {names : Path} (hne : names ≠ []) (h : ∀ name ∈ names, SafeName name) :
    pathParts (asPosix names) = names := by
  obtain ⟨name, rest, rfl⟩ := List.exists_cons_of_ne_nil hne
  unfold pathParts asPosix
  rw [split_join fun p hp => (h p hp).slashFree]
  refine List.filter_eq_self.mpr fun p hp => ?_
  simp [(h p hp).nonempty, (h p hp).notDot]

theorem asPosix_relative {names : Path} (hne : names ≠ []) (h : ∀ name ∈ names, SafeName name) :
    asPosix names ≠ [] ∧ isAbsolute (asPosix names) = false := by
  obtain ⟨name, rest, rfl⟩ := List.exists_cons_of_ne_nil hne
  have first := h name List.mem_cons_self
  obtain ⟨c, cs, rfl⟩ := List.exists_cons_of_ne_nil first.nonempty
  have plain : c ≠ slash := by
    rintro rfl
    exact first.slashFree List.mem_cons_self
  cases rest <;> simp [asPosix, join, isAbsolute, plain]

theorem safeChildPath_asPosix {names : Path} (hne : names ≠ [])
    (h : ∀ name ∈ names, SafeName name) (root : Path) (line : Nat) :
    safeChildPath root (.str (asPosix names)) line = .ok (root ++ names) := by
  obtain ⟨some, relative⟩ := asPosix_relative hne h
  have dots : names.contains (lit "..") = false := by
    rw [List.contains_eq_mem, decide_eq_false_iff_not]
    intro hm
    exact (h _ hm).notDots rfl
  simp only [safeChildPath, if_neg some, relative, pathParts_asPosix hne h, dots, checkNames_ok h]
  rfl

theorem safeSuitePath_asPosix {names : Path} (hne : names ≠ [])
    (h : ∀ name ∈ names, SafeName name) (root : Path) (line : Nat) :
    safeSuitePath root (.str (asPosix names)) line = .ok (root ++ names) := by
  have some := (asPosix_relative hne h).1
  rw [safeSuitePath, if_neg some]
  exact safeChildPath_asPosix hne h root line

end Paths

section Agreement

variable {root directory : Path} {t t' : FileTree} {line : Nat}

theorem checkArtifact_congr (h : AgreesBelow directory t t') (execution : Json) (field : String) :
    checkArtifact directory execution line field t =
      checkArtifact directory execution line field t' := by
  unfold checkArtifact
  refine Except.bind_congr_ok fun metadata _ => ?_
  split
  · rfl
  · refine Except.bind_congr_ok fun _ _ => Except.bind_congr_ok fun artifact ha => ?_
    have below := safeChildPath_below ha
    rw [h.isFile below, h.readBytes below]

theorem validateExecutionArtifacts_congr (h : AgreesBelow directory t t') (execution : Json) :
    validateExecutionArtifacts directory execution line t =
      validateExecutionArtifacts directory execution line t' := by
  unfold validateExecutionArtifacts
  rw [checkArtifact_congr h, checkArtifact_congr h, checkArtifact_congr h]

end Agreement

section Stands

variable {suiteDir relative directory : Path} {row : Json} {t t' : FileTree}

/-- The evidence of an execution is there and passes the checks of the reader. -/
structure EvidenceStands (directory : Path) (t : FileTree) : Prop where
  checked : ∃ execution, t.isFile (directory ++ [lit "execution.json"]) = true ∧
    readJson (directory ++ [lit "execution.json"]) t = .ok execution ∧
    ∀ line, validateExecutionArtifacts directory execution line t = .ok ()

theorem EvidenceStands.congr (h : EvidenceStands directory t) (agree : AgreesBelow directory t t') :
    EvidenceStands directory t' := by
  obtain ⟨execution, isFile, read, artifacts⟩ := h.checked
  have below := below_child directory (lit "execution.json")
  refine ⟨execution, ?_, ?_, fun line => ?_⟩
  · rw [← agree.isFile below, isFile]
  · rw [← agree.readJson below, read]
  · rw [← validateExecutionArtifacts_congr agree, artifacts line]

def differentialFolder (suiteDir relative : Path) : Path :=
  suiteDir ++ relative ++ [lit "differential"]

def differentialNames (relative : Path) : Path :=
  relative ++ [lit "differential", lit "differential.json"]

/-- The entry of one side names its evidence, or says that there is none. -/
def SideStands (folder : Path) (differential : Json) (role : String) (t : FileTree) : Prop :=
  differential.get (lit (role ++ "_execution")) = .null ∨
    differential.get (lit (role ++ "_execution")) =
      .str (asPosix [lit role, lit "execution.json"]) ∧ EvidenceStands (folder ++ [lit role]) t

/-- The differential of a row is on disk, unchanged, and says of the case what the row says. -/
structure DifferentialStands (suiteDir relative : Path) (row : Json) (t : FileTree) : Prop where
  path : row.get (lit "differential_evidence") = .str (asPosix (differentialNames relative))
  isFile : t.isFile (suiteDir ++ differentialNames relative) = true
  hash : ∃ sha256, fileSha256 (suiteDir ++ differentialNames relative) t = .ok sha256 ∧
    row.get (lit "differential_sha256") = .str sha256
  content : ∃ differential, readJson (suiteDir ++ differentialNames relative) t = .ok differential ∧
    differential.isObj = true ∧ (∀ line, checkMetadata row differential line = .ok ()) ∧
    SideStands (differentialFolder suiteDir relative) differential "clean" t ∧
    SideStands (differentialFolder suiteDir relative) differential "mutant" t

/-- The artifacts of a completed row are on disk as the row has them. -/
structure RunStands (suiteDir relative : Path) (row : Json) (t : FileTree) : Prop where
  nonempty : relative ≠ []
  names : ∀ name ∈ relative, SafeName name
  runDirectory : row.get (lit "run_directory") = .str (asPosix relative)
  isDir : t.isDir (suiteDir ++ relative) = true
  artifacts : ∃ sha256, treeSha256 (suiteDir ++ relative) [] t = .ok sha256 ∧
    row.get (lit "run_artifacts_sha256") = .str sha256
  evidence : row.get (lit "test_generated") = .bool false ∧
      row.get (lit "differential_evidence") = .null ∨
    row.get (lit "test_generated") = .bool true ∧ DifferentialStands suiteDir relative row t

theorem differentialNames_below (suiteDir relative : Path) :
    suiteDir ++ relative <+: suiteDir ++ differentialNames relative := by
  unfold differentialNames
  rw [← List.append_assoc]
  exact List.prefix_append _ _

theorem SideStands.congr {folder : Path} {differential : Json} {role : String}
    (h : SideStands folder differential role t) (agree : AgreesBelow folder t t') :
    SideStands folder differential role t' := by
  rcases h with h | ⟨h, stands⟩
  · exact Or.inl h
  · exact Or.inr ⟨h, stands.congr (agree.mono (below_child _ _))⟩

theorem DifferentialStands.congr (h : DifferentialStands suiteDir relative row t)
    (agree : AgreesBelow (suiteDir ++ relative) t t') :
    DifferentialStands suiteDir relative row t' := by
  have below := differentialNames_below suiteDir relative
  have inside := agree.mono (below_child (suiteDir ++ relative) (lit "differential"))
  obtain ⟨sha256, hash, recorded⟩ := h.hash
  obtain ⟨differential, read, isObj, metadata, clean, mutant⟩ := h.content
  refine ⟨h.path, ?_, ⟨sha256, ?_, recorded⟩, differential, ?_, isObj, metadata,
    clean.congr inside, mutant.congr inside⟩
  · rw [← agree.isFile below, h.isFile]
  · rw [← agree.fileSha256 below, hash]
  · rw [← agree.readJson below, read]

/-- Artifacts stand as long as nothing below the directory of the run changes. -/
theorem RunStands.congr (h : RunStands suiteDir relative row t)
    (agree : AgreesBelow (suiteDir ++ relative) t t') : RunStands suiteDir relative row t' := by
  obtain ⟨sha256, hash, recorded⟩ := h.artifacts
  refine ⟨h.nonempty, h.names, h.runDirectory, ?_, ⟨sha256, ?_, recorded⟩, ?_⟩
  · rw [← agree.isDir (List.prefix_refl _), h.isDir]
  · rw [← treeSha256_congr agree, hash]
  · exact h.evidence.imp id fun ⟨generated, stands⟩ => ⟨generated, stands.congr agree⟩

theorem safeName_execution : ∀ name ∈ [lit "clean", lit "mutant", lit "execution.json"],
    SafeName name := by
  intro name h
  have plain : name ≠ [] ∧ name ≠ lit "." ∧ name ≠ lit ".." ∧ slash ∉ name ∧
      checkName name = .ok () := by
    simp only [List.mem_cons, List.not_mem_nil, or_false] at h
    rcases h with rfl | rfl | rfl <;> exact ⟨by decide, by decide, by decide, by decide, rfl⟩
  exact ⟨plain.1, plain.2.1, plain.2.2.1, plain.2.2.2.1, plain.2.2.2.2⟩

theorem getField_of_isObj {value : Json} (h : value.isObj = true) (name : String) :
    getField value name = .ok (value.get (lit name)) := by
  cases value with
  | obj fields => rfl
  | _ => cases h

theorem SideStands.accepted {folder : Path} {differential : Json} {role : String}
    (hr : role = "clean" ∨ role = "mutant") (isObj : differential.isObj = true)
    (h : SideStands folder differential role t) (line : Nat) :
    checkExecution folder differential line (role ++ "_execution") t = .ok () := by
  unfold checkExecution
  rw [getField_of_isObj isObj, Except.ok_bind]
  rcases h with h | ⟨h, stands⟩
  · rw [h]
    rfl
  · obtain ⟨execution, isFile, read, artifacts⟩ := stands.checked
    have names : ∀ name ∈ [lit role, lit "execution.json"], SafeName name := by
      intro name hn
      refine safeName_execution name ?_
      rcases hr with rfl | rfl <;> simp only [List.mem_cons] at hn ⊢ <;> tauto
    have path := safeChildPath_asPosix (by simp) names folder line
    have whole : folder ++ [lit role, lit "execution.json"] =
        folder ++ [lit role] ++ [lit "execution.json"] := by simp
    rw [whole] at path
    rw [h]
    simp only [isNone, Bool.false_eq_true, if_false, path, Except.ok_bind, isFile, read,
      List.dropLast_concat, artifacts line, Except.check, if_true]

@[simp] theorem pyEq_str (a b : Str) : (Json.str a).pyEq (.str b) = (a == b) := by
  simp [Json.pyEq]

theorem differentialNames_safe (names : ∀ name ∈ relative, SafeName name) :
    ∀ name ∈ differentialNames relative, SafeName name := by
  have folder : SafeName (lit "differential") :=
    ⟨by decide, by decide, by decide, by decide, rfl⟩
  have file : SafeName (lit "differential.json") :=
    ⟨by decide, by decide, by decide, by decide, rfl⟩
  intro name h
  rcases List.mem_append.mp h with h | h
  · exact names name h
  · simp only [List.mem_cons, List.not_mem_nil, or_false] at h
    rcases h with rfl | rfl
    · exact folder
    · exact file

theorem DifferentialStands.accepted (names : ∀ name ∈ relative, SafeName name)
    (h : DifferentialStands suiteDir relative row t) (line : Nat) :
    validateDifferential row suiteDir line t = .ok () := by
  obtain ⟨sha256, hash, recorded⟩ := h.hash
  obtain ⟨differential, read, isObj, metadata, clean, mutant⟩ := h.content
  have path := safeSuitePath_asPosix (by simp [differentialNames]) (differentialNames_safe names)
    suiteDir line
  have folder : (suiteDir ++ differentialNames relative).dropLast =
      differentialFolder suiteDir relative := by
    have whole : suiteDir ++ differentialNames relative =
        differentialFolder suiteDir relative ++ [lit "differential.json"] := by
      simp [differentialNames, differentialFolder]
    rw [whole, List.dropLast_concat]
  have first := clean.accepted (Or.inl rfl) isObj line
  have second := mutant.accepted (Or.inr rfl) isObj line
  unfold validateDifferential
  rw [h.path, path, Except.ok_bind, h.isFile, hash, recorded]
  simp only [Except.check, if_true, Except.ok_bind, pyEq_str, beq_self_eq_true, read, metadata line,
    folder]
  rw [show "clean_execution" = "clean" ++ "_execution" from rfl, first, Except.ok_bind,
    show "mutant_execution" = "mutant" ++ "_execution" from rfl, second]

/-- The reader accepts the artifacts of a row as long as they stand. -/
theorem RunStands.accepted (h : RunStands suiteDir relative row t) (line : Nat) :
    validateCompleted row suiteDir line t = .ok () := by
  obtain ⟨sha256, hash, recorded⟩ := h.artifacts
  have path := safeSuitePath_asPosix h.nonempty h.names suiteDir line
  unfold validateCompleted
  rw [h.runDirectory, path, Except.ok_bind, h.isDir, hash, recorded]
  simp only [Except.check, if_true, Except.ok_bind, pyEq_str, beq_self_eq_true]
  rcases h.evidence with ⟨generated, none⟩ | ⟨generated, stands⟩
  · simp [generated, none, Json.truthy, isNone]
  · simp only [generated, Json.truthy, if_true]
    exact stands.accepted h.names line

end Stands

end EdgecaseForge

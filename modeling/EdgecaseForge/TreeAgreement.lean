import EdgecaseForge.DiskPrograms

namespace EdgecaseForge

open Text Effect Program

/-- Two trees have the same entries at a directory and below it. -/
def AgreesBelow (root : Path) (t t' : FileTree) : Prop :=
  ∀ q, root <+: q → t.get? q = t'.get? q

namespace AgreesBelow

variable {root sub p : Path} {t t' t'' : FileTree}

theorem refl (root : Path) (t : FileTree) : AgreesBelow root t t :=
  fun _ _ => rfl

theorem trans (h : AgreesBelow root t t') (h' : AgreesBelow root t' t'') :
    AgreesBelow root t t'' :=
  fun q hq => (h q hq).trans (h' q hq)

theorem mono (h : AgreesBelow root t t') (hs : root <+: sub) : AgreesBelow sub t t' :=
  fun q hq => h q (hs.trans hq)

theorem isFile (h : AgreesBelow root t t') (hp : root <+: p) : t.isFile p = t'.isFile p := by
  unfold FileTree.isFile
  rw [h p hp]

theorem isDir (h : AgreesBelow root t t') (hp : root <+: p) : t.isDir p = t'.isDir p := by
  unfold FileTree.isDir
  rw [h p hp]

theorem readBytes (h : AgreesBelow root t t') (hp : root <+: p) :
    t.readBytes p = t'.readBytes p := by
  unfold FileTree.readBytes
  rw [h p hp]

theorem fileSha256 (h : AgreesBelow root t t') (hp : root <+: p) :
    EdgecaseForge.fileSha256 p t = EdgecaseForge.fileSha256 p t' := by
  unfold EdgecaseForge.fileSha256
  rw [h.readBytes hp]

theorem readJson (h : AgreesBelow root t t') (hp : root <+: p) :
    EdgecaseForge.readJson p t = EdgecaseForge.readJson p t' := by
  unfold EdgecaseForge.readJson readText
  rw [h.readBytes hp]

end AgreesBelow

section Files

variable {root : Path} {t t' : FileTree} {file : Path × Bytes}

theorem mem_filesBelow : file ∈ t.filesBelow root ↔
    t.get? file.1 = some (.file file.2) ∧ root <+: file.1 ∧ file.1 ≠ root := by
  unfold FileTree.filesBelow
  rw [List.mem_insertionSort, List.mem_filterMap]
  constructor
  · rintro ⟨⟨p, node⟩, he, h⟩
    cases node with
    | dir => cases h
    | file content =>
      dsimp only at h
      split at h
      next hb =>
        cases h
        exact ⟨Dict.get?_of_mem he, hb⟩
      next => cases h
  · rintro ⟨hg, hb⟩
    refine ⟨(file.1, .file file.2), Dict.mem_of_get? hg, ?_⟩
    dsimp only
    rw [if_pos hb]

theorem nodup_filesBelow (root : Path) (t : FileTree) :
    ((t.filesBelow root).map Prod.fst).Nodup := by
  unfold FileTree.filesBelow
  refine ((List.perm_insertionSort _ _).map Prod.fst).nodup_iff.mpr (List.Nodup.sublist ?_ t.nodup)
  induction t.entries with
  | nil => exact List.Sublist.refl _
  | cons entry entries ih =>
    rw [List.filterMap_cons]
    split
    next => exact ih.trans (List.sublist_cons_self _ _)
    next file hf =>
      have same : file.1 = entry.1 := by
        obtain ⟨p, node⟩ := entry
        cases node with
        | dir => cases hf
        | file content =>
          dsimp only at hf
          split at hf
          next => cases hf; rfl
          next => cases hf
      rw [List.map_cons, List.map_cons, same]
      exact ih.cons_cons _

/-- The files below a directory are determined by what is below it. -/
theorem filesBelow_congr (h : AgreesBelow root t t') : t.filesBelow root = t'.filesBelow root := by
  have members : ∀ file, file ∈ t.filesBelow root ↔ file ∈ t'.filesBelow root := by
    intro file
    rw [mem_filesBelow, mem_filesBelow]
    constructor
    · rintro ⟨hg, hb⟩
      exact ⟨(h _ hb.1).symm.trans hg, hb⟩
    · rintro ⟨hg, hb⟩
      exact ⟨(h _ hb.1).trans hg, hb⟩
  have perm : (t.filesBelow root).Perm (t'.filesBelow root) :=
    (List.perm_ext_iff_of_nodup (nodup_filesBelow root t).of_map
      (nodup_filesBelow root t').of_map).mpr members
  have once := List.inj_on_of_nodup_map (nodup_filesBelow root t)
  refine perm.eq_of_pairwise (fun a b ha hb hab hba => ?_) (List.pairwise_insertionSort _ _)
    (List.pairwise_insertionSort _ _)
  exact once ha ((members b).mpr hb) (le_antisymm hab hba)

theorem treeSha256_congr (h : AgreesBelow root t t') (excluded : List Str) :
    treeSha256 root excluded t = treeSha256 root excluded t' := by
  unfold treeSha256 treeStream hashedFiles
  rw [filesBelow_congr h]

end Files

end EdgecaseForge

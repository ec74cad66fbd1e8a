import EdgecaseForge.ByteFraming
import EdgecaseForge.ProgressAccepted
import EdgecaseForge.TreeAgreement

namespace EdgecaseForge

open Text Framing

/-- The names of a tree are such as a file system has. -/
def FileTree.Named (t : FileTree) : Prop :=
  ∀ p ∈ t.keys, ∀ name ∈ p, name ≠ [] ∧ slash ∉ name

def relativeFile (root : Path) (file : Path × Bytes) : Path × Bytes :=
  (file.1.drop root.length, file.2)

/-- The relative paths and contents of the files that the hash of a tree covers. -/
def includedFiles (root : Path) (excluded : List Str) (t : FileTree) : List (Path × Bytes) :=
  (hashedFiles root excluded t).map (relativeFile root)

/-- Two lists have the same files, in whatever order. -/
def SameFiles (files files' : List (Path × Bytes)) : Prop :=
  ∀ file, file ∈ files ↔ file ∈ files'

section Files

variable {root root' : Path} {excluded excluded' : List Str} {t t' : FileTree}
  {file : Path × Bytes}

theorem mem_hashedFiles (h : file ∈ hashedFiles root excluded t) :
    t.get? file.1 = some (.file file.2) ∧ root <+: file.1 ∧ file.1 ≠ root :=
  mem_filesBelow.mp (List.mem_filter.mp h).1

theorem append_drop_of_prefix {p : Path} (h : root <+: p) : root ++ p.drop root.length = p := by
  obtain ⟨rest, rfl⟩ := h
  rw [List.drop_left]

theorem includedFiles_ne (h : file ∈ includedFiles root excluded t) : file.1 ≠ [] := by
  obtain ⟨whole, hw, rfl⟩ := List.mem_map.mp h
  obtain ⟨-, below, proper⟩ := mem_hashedFiles hw
  intro none
  have same := append_drop_of_prefix below
  rw [show whole.1.drop root.length = [] from none, List.append_nil] at same
  exact proper same.symm

theorem includedFiles_named (named : t.Named) (h : file ∈ includedFiles root excluded t) :
    ∀ name ∈ file.1, name ≠ [] ∧ slash ∉ name := by
  obtain ⟨whole, hw, rfl⟩ := List.mem_map.mp h
  obtain ⟨stored, -⟩ := mem_hashedFiles hw
  have key : whole.1 ∈ t.keys := List.mem_map_of_mem (Dict.mem_of_get? stored)
  exact fun name hn => named _ key name (List.mem_of_mem_drop hn)

theorem includedFiles_sorted (root : Path) (excluded : List Str) (t : FileTree) :
    (includedFiles root excluded t).Pairwise fun a b => a.1 ≤ b.1 := by
  have sorted : (hashedFiles root excluded t).Pairwise fun a b => a.1 ≤ b.1 :=
    (List.pairwise_insertionSort _ _).filter _
  refine List.pairwise_map.mpr (sorted.imp_of_mem fun {a b} ha hb le => ?_)
  obtain ⟨-, below, -⟩ := mem_hashedFiles ha
  obtain ⟨-, below', -⟩ := mem_hashedFiles hb
  rw [← append_drop_of_prefix below, ← append_drop_of_prefix below'] at le
  exact not_lt.mp fun lt => absurd (List.append_left_lt lt) (not_lt.mpr le)

theorem includedFiles_nodup (root : Path) (excluded : List Str) (t : FileTree) :
    ((includedFiles root excluded t).map Prod.fst).Nodup := by
  have once : ((hashedFiles root excluded t).map Prod.fst).Nodup :=
    (nodup_filesBelow root t).sublist (List.filter_sublist.map _)
  have apart : ∀ a ∈ hashedFiles root excluded t, ∀ b ∈ hashedFiles root excluded t,
      (relativeFile root a).1 = (relativeFile root b).1 → a.1 = b.1 := by
    intro a ha b hb same
    obtain ⟨-, below, -⟩ := mem_hashedFiles ha
    obtain ⟨-, below', -⟩ := mem_hashedFiles hb
    rw [← append_drop_of_prefix below, ← append_drop_of_prefix below']
    exact congrArg (root ++ ·) same
  rw [includedFiles, List.map_map]
  refine List.Nodup.map_on (fun a ha b hb same => ?_) once.of_map
  exact List.inj_on_of_nodup_map once ha hb (apart a ha b hb same)

/-- The order of the hash is that of the relative paths, so the same files come in the same order. -/
theorem includedFiles_eq (h : SameFiles (includedFiles root excluded t)
    (includedFiles root' excluded' t')) :
    includedFiles root excluded t = includedFiles root' excluded' t' := by
  have once := includedFiles_nodup root excluded t
  have perm : (includedFiles root excluded t).Perm (includedFiles root' excluded' t') :=
    (List.perm_ext_iff_of_nodup once.of_map (includedFiles_nodup root' excluded' t').of_map).mpr h
  refine perm.eq_of_pairwise (fun a b ha hb hab hba => ?_) (includedFiles_sorted _ _ _)
    (includedFiles_sorted _ _ _)
  exact List.inj_on_of_nodup_map once ha ((h b).mpr hb) (le_antisymm hab hba)

end Files

section Stream

variable {root root' : Path} {excluded excluded' : List Str} {t t' : FileTree} {stream' : Bytes}

/-- The bytes of a relative path. -/
def pathBytes (names : Path) : Bytes :=
  (utf8Encode (asPosix names)).getD []

/-- The fields that the hash takes of a file. -/
def fileFields (file : Path × Bytes) : List Bytes :=
  [pathBytes file.1, file.2]

theorem lengthBytes_ok {n : Nat} {b : Bytes} (h : lengthBytes n = .ok b) :
    n < 0x100 ^ 8 ∧ b = Sha256.bigEndian 8 n := by
  unfold lengthBytes at h
  split at h
  next bound =>
    cases h
    exact ⟨by omega, rfl⟩
  next => cases h

/-- What is known of a file whose entry was made. -/
structure Framed (file : Path × Bytes) : Prop where
  encoded : utf8Encode (asPosix file.1) = some (pathBytes file.1)
  bounded : ∀ b ∈ fileFields file, b.length < 0x100 ^ 8

theorem treeEntry_ok {file : Path × Bytes} {entry : Bytes} (h : treeEntry root file = .ok entry) :
    Framed (relativeFile root file) ∧ entry = stream 8 (fileFields (relativeFile root file)) := by
  obtain ⟨relative, encoded, h⟩ := Except.bind_eq_ok.mp h
  obtain ⟨relativeLength, first, h⟩ := Except.bind_eq_ok.mp h
  obtain ⟨contentLength, second, h⟩ := Except.bind_eq_ok.mp h
  obtain ⟨short, rfl⟩ := lengthBytes_ok first
  obtain ⟨short', rfl⟩ := lengthBytes_ok second
  have text : utf8Encode (asPosix (relativeFile root file).1) = some relative := by
    unfold encodeUtf8 at encoded
    split at encoded
    next bytes hb =>
      cases encoded
      exact hb
    next => cases encoded
  have bytes : pathBytes (relativeFile root file).1 = relative := by
    rw [pathBytes, text]
    rfl
  constructor
  · constructor
    · rw [bytes, text]
    · exact List.forall_mem_cons.mpr ⟨by rwa [bytes], List.forall_mem_singleton.mpr short'⟩
  · have fields : fileFields (relativeFile root file) = [relative, file.2] := by
      rw [fileFields, bytes]
      rfl
    rw [← Except.ok.inj h, fields]
    simp [stream, field]

theorem treeStream_ok (h : treeStream root excluded t = .ok stream') :
    (∀ file ∈ includedFiles root excluded t, Framed file) ∧
      stream' = stream 8 ((includedFiles root excluded t).flatMap fileFields) := by
  obtain ⟨entries, made, h⟩ := Except.bind_eq_ok.mp h
  rw [← Except.ok.inj h, includedFiles]
  have each := Except.mapM_eq_ok.mp made
  clear made h
  generalize hashedFiles root excluded t = files at each
  induction each with
  | nil => exact ⟨by simp, rfl⟩
  | cons made _ ih =>
    obtain ⟨framed, rfl⟩ := treeEntry_ok made
    obtain ⟨others, same⟩ := ih
    refine ⟨List.forall_mem_cons.mpr ⟨framed, others⟩, ?_⟩
    rw [List.flatten_cons, same]
    simp [stream, List.flatMap_append]

theorem asPosix_inj {names names' : Path} (some : names ≠ []) (some' : names' ≠ [])
    (plain : ∀ name ∈ names, slash ∉ name) (plain' : ∀ name ∈ names', slash ∉ name)
    (h : asPosix names = asPosix names') : names = names' := by
  obtain ⟨name, rest, rfl⟩ := List.exists_cons_of_ne_nil some
  obtain ⟨name', rest', rfl⟩ := List.exists_cons_of_ne_nil some'
  rw [← split_join plain, ← split_join plain']
  exact congrArg (split slash) h

theorem pathBytes_inj {file file' : Path × Bytes} (framed : Framed file) (framed' : Framed file')
    (h : pathBytes file.1 = pathBytes file'.1) : asPosix file.1 = asPosix file'.1 := by
  have decoded := utf8Decode_encode framed.encoded
  rw [h, utf8Decode_encode framed'.encoded] at decoded
  exact (Option.some.inj decoded).symm

/-- Files that can be told apart by their fields are determined by the fields in a row. -/
theorem flatMap_fileFields_inj {files files' : List (Path × Bytes)}
    (each : ∀ a ∈ files, ∀ b ∈ files', pathBytes a.1 = pathBytes b.1 → a.1 = b.1)
    (h : files.flatMap fileFields = files'.flatMap fileFields) : files = files' := by
  induction files generalizing files' with
  | nil =>
    cases files' with
    | nil => rfl
    | cons file' files' => cases h
  | cons file files ih =>
    cases files' with
    | nil => cases h
    | cons file' files' =>
      simp only [List.flatMap_cons, fileFields, List.cons_append, List.nil_append,
        List.cons.injEq] at h
      obtain ⟨path, content, others⟩ := h
      have same : file.1 = file'.1 := each file List.mem_cons_self file' List.mem_cons_self path
      rw [Prod.ext same content, ih (fun a ha b hb =>
        each a (List.mem_cons_of_mem file ha) b (List.mem_cons_of_mem file' hb)) others]

/-- The stream that is hashed tells exactly which files there are and what they hold. -/
theorem treeStream_eq_iff (named : t.Named) (named' : t'.Named) {s s' : Bytes}
    (h : treeStream root excluded t = .ok s) (h' : treeStream root' excluded' t' = .ok s') :
    s = s' ↔
      SameFiles (includedFiles root excluded t) (includedFiles root' excluded' t') := by
  obtain ⟨framed, rfl⟩ := treeStream_ok h
  obtain ⟨framed', rfl⟩ := treeStream_ok h'
  have bounded : ∀ {files : List (Path × Bytes)}, (∀ file ∈ files, Framed file) →
      ∀ b ∈ files.flatMap fileFields, b.length < 0x100 ^ 8 := by
    intro files all b hb
    obtain ⟨file, hf, hb⟩ := List.mem_flatMap.mp hb
    exact (all file hf).bounded b hb
  constructor
  · intro same
    have fields := stream_inj (by decide) (bounded framed) (bounded framed') same
    have files := flatMap_fileFields_inj (fun a ha b hb path => ?_) fields
    · exact fun file => by rw [files]
    · exact asPosix_inj (includedFiles_ne ha) (includedFiles_ne hb)
        (fun name hn => (includedFiles_named named ha name hn).2)
        (fun name hn => (includedFiles_named named' hb name hn).2)
        (pathBytes_inj (framed a ha) (framed' b hb) path)
  · intro same
    rw [includedFiles_eq same]

end Stream

section Reader

/-- SHA-256 tells the streams of two directories apart. -/
def CollisionFree (root root' : Path) (t t' : FileTree) : Prop :=
  ∀ s s', treeStream root [] t = .ok s → treeStream root' [] t' = .ok s' →
    Sha256.sha256 s = Sha256.sha256 s' → s = s'

variable {root root' : Path} {t t' : FileTree} {row : Json} {line : Nat}

theorem treeSha256_eq (named : t.Named) (named' : t'.Named) {sha256 : Str}
    (h : treeSha256 root [] t = .ok sha256) (h' : treeSha256 root' [] t' = .ok sha256)
    (free : CollisionFree root root' t t') :
    SameFiles (includedFiles root [] t) (includedFiles root' [] t') := by
  obtain ⟨s, made, hs⟩ := Except.bind_eq_ok.mp h
  obtain ⟨s', made', hs'⟩ := Except.bind_eq_ok.mp h'
  have digests : Sha256.sha256 s = Sha256.sha256 s' :=
    (Except.ok.inj hs).trans (Except.ok.inj hs').symm
  exact (treeStream_eq_iff named named' made made').mp (free s s' made made' digests)

theorem validateEvaluationArtifacts_completed {suiteDir : Path}
    (completed : row.get (lit "status") = .str (lit "completed"))
    (h : validateEvaluationArtifacts row suiteDir line t = .ok ()) :
    validateCompleted row suiteDir line t = .ok () := by
  obtain ⟨_, -, h⟩ := Except.bind_eq_ok.mp h
  have other : (Json.str (lit "completed")).pyEq (.str (lit "model_output_error")) = false := by
    simp [Json.pyEq]
  rw [completed, other] at h
  exact h

/-- The hashed stream determines the files of a directory, and the reader takes a completed row
only if the files of its run are those whose hash was recorded. -/
theorem tree_tampering_detected {recorded : FileTree} (named : t.Named) (before : recorded.Named) :
    (∀ root root' excluded excluded' s s', treeStream root excluded t = .ok s →
      treeStream root' excluded' recorded = .ok s' →
      (s = s' ↔ SameFiles (includedFiles root excluded t)
        (includedFiles root' excluded' recorded))) ∧
    ∀ context path rows row recordedDir sha256, readProgress context path t = .ok rows →
      row ∈ rows → row.get (lit "status") = .str (lit "completed") →
      treeSha256 recordedDir [] recorded = .ok sha256 →
      row.get (lit "run_artifacts_sha256") = .str sha256 →
      ∃ runDir line,
        safeSuitePath context.suiteDir (row.get (lit "run_directory")) line = .ok runDir ∧
        (CollisionFree runDir recordedDir t recorded →
          SameFiles (includedFiles runDir [] t) (includedFiles recordedDir [] recorded)) := by
  constructor
  · intro root root' excluded excluded' s s' h h'
    exact treeStream_eq_iff named before h h'
  · intro context path rows row recordedDir sha256 read hr completed hashed stored
    obtain ⟨key, accepted⟩ := readProgress_mem read hr
    obtain ⟨line, valid⟩ := accepted.artifacts
    obtain ⟨runDir, now, safe, taken, same⟩ :=
      validateCompleted_hash (validateEvaluationArtifacts_completed completed valid)
    cases same.symm.trans stored
    exact ⟨runDir, line, safe, treeSha256_eq named before taken hashed⟩

/-- A renamed file changes what is hashed. -/
theorem tree_tampering_detected_renamed :
    treeStream [lit "run"] [] (Dict.empty.set [lit "run", lit "a"] (.file [1])) ≠
      treeStream [lit "run"] [] (Dict.empty.set [lit "run", lit "b"] (.file [1])) := by
  have named : ∀ name : Str, (decide (name ≠ [] ∧ slash ∉ name)) = true →
      FileTree.Named (Dict.empty.set [lit "run", name] (.file [1])) := by
    intro name hn p hp part hpart
    obtain rfl : p = [lit "run", name] := by simpa [Dict.keys, Dict.set, Dict.empty] using hp
    rcases List.mem_cons.mp hpart with rfl | hpart
    · decide
    · cases List.mem_singleton.mp hpart
      simpa using hn
  intro same
  obtain ⟨s, made⟩ : ∃ s, treeStream [lit "run"] []
      (Dict.empty.set [lit "run", lit "a"] (.file [1])) = .ok s := ⟨_, rfl⟩
  have both := (tree_tampering_detected (named (lit "a") (by decide))
    (named (lit "b") (by decide))).1 _ _ _ _ s s made (same ▸ made)
  have there := (both.mp rfl ([lit "a"], [1])).mp (by decide)
  exact absurd there (by decide)

end Reader

end EdgecaseForge

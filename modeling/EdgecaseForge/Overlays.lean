import EdgecaseForge.AdjudicationFiles
import EdgecaseForge.JsonEquality
import EdgecaseForge.WrittenFiles

namespace EdgecaseForge

open Text Effect Program

section Written

/-- The file at a path is what an atomic write makes of a value. -/
structure Written (p : Path) (payload : Json) (t : FileTree) : Prop where
  distinct : payload.distinct = true
  file : ∃ bytes, Prints payload bytes ∧ t.get? p = some (.file bytes)

variable {p q : Path} {payload : Json} {t t' : FileTree}

theorem Written.readJson (h : Written p payload t) : readJson p t = .ok payload := by
  obtain ⟨bytes, prints, file⟩ := h.file
  exact prints.readJson h.distinct file

theorem Written.of_get? (h : Written p payload t) (same : t'.get? p = t.get? p) :
    Written p payload t' := by
  obtain ⟨bytes, prints, file⟩ := h.file
  exact ⟨h.distinct, bytes, prints, same.trans file⟩

theorem get?_of_not_exists (h : t.exists_ p = false) : t.get? p = none := by
  cases hg : t.get? p with
  | none => rfl
  | some node => cases node <;> simp [FileTree.exists_, FileTree.isFile, FileTree.isDir, hg] at h

theorem get?_of_exists (hp : p ≠ []) (h : t.exists_ p = true) : ∃ node, t.get? p = some node := by
  cases hg : t.get? p with
  | none => simp [FileTree.exists_, FileTree.isFile, FileTree.isDir, hg, hp] at h
  | some node => exact ⟨node, rfl⟩

theorem replaceText_written {s : Str} (hd : payload.distinct = true)
    (hs : jsonDumps Json.indented payload = .ok s)
    (h : (replaceText p (s ++ [lineFeed]) t).2 = .ok ()) :
    Written p payload (replaceText p (s ++ [lineFeed]) t).1 := by
  obtain ⟨printable, rfl⟩ := jsonDumps_eq_ok.mp hs
  obtain ⟨bytes, encoded, file⟩ := replaceText_ok h
  exact ⟨hd, bytes, ⟨printable, encoded⟩, file⟩

/-- Where an atomic write stops, the file is as it was or as it was to be. -/
theorem writeJsonAtomic_stages (hp : ¬ p <+: p.dropLast) (hd : payload.distinct = true)
    (h : t' ∈ (writeJsonAtomic p payload).stages t) :
    t'.get? p = t.get? p ∨ Written p payload t' := by
  rcases mem_stages_bind h with h | ⟨_, made, hm, h⟩
  · rw [mem_stages_act h]
    exact Or.inl (FileTree.mkdir_ne hp)
  · have before : made.get? p = t.get? p := by
      rw [← hm.2]
      exact FileTree.mkdir_ne hp
    rw [← before]
    rcases mem_stages_bind h with h | ⟨s, _, hs, h⟩
    · rw [List.mem_singleton.mp h]
      exact Or.inl rfl
    · obtain ⟨dumped, rfl⟩ := returns_lift.mp hs
      rw [mem_stages_act h]
      cases hr : (replaceText p (s ++ [lineFeed]) made).2 with
      | error e => exact Or.inl (replaceText_error hr)
      | ok u => exact Or.inr (replaceText_written hd dumped hr)

theorem writeJsonAtomic_written {u : Unit} (hd : payload.distinct = true)
    (h : (writeJsonAtomic p payload).Returns t u t') : Written p payload t' :=
  ⟨hd, writeJsonAtomic_returns h⟩

end Written

section WriteOnce

variable {directory : Path} {name other : Str} {payload : Json} {t t' : FileTree} {u : Unit}

theorem child_ne_above (directory : Path) (name : Str) : ¬ directory ++ [name] <+: directory := by
  intro h
  have length := h.length_le
  simp at length

/-- The file is there and reads as a value equal to the given one. -/
def Holds (directory : Path) (name : Str) (payload : Json) (t : FileTree) : Prop :=
  ∃ existing, readObject (directory ++ [name]) name t = .ok existing ∧
    existing.pyEq payload = true

theorem readObject_congr {p : Path} {label : Str} (h : t'.get? p = t.get? p) :
    readObject p label t' = readObject p label t := by
  simp only [readObject, readJson, readText, FileTree.readBytes, h]

theorem Holds.of_get? (h : Holds directory name payload t)
    (same : t'.get? (directory ++ [name]) = t.get? (directory ++ [name])) :
    Holds directory name payload t' := by
  obtain ⟨existing, read, equal⟩ := h
  exact ⟨existing, (readObject_congr same).trans read, equal⟩

theorem readObject_of_readJson {p : Path} {label : Str} {value : Json} (h : readJson p t = .ok value)
    (ho : value.isObj = true) : readObject p label t = .ok value := by
  simp only [readObject, h, ho, if_true]

theorem readObject_ok {p : Path} {label : Str} {value : Json} (h : readObject p label t = .ok value) :
    readJson p t = .ok value ∧ value.isObj = true := by
  unfold readObject at h
  split at h
  · cases h
  · cases h
  · cases h
  next read hr =>
    split at h
    next ho =>
      cases h
      exact ⟨hr, ho⟩
    next => cases h

theorem get?_of_readJson {p : Path} {value : Json} (h : readJson p t = .ok value) :
    ∃ content, t.get? p = some (.file content) := by
  obtain ⟨s, text, -⟩ := Except.bind_eq_ok.mp h
  obtain ⟨bytes, read, -⟩ := Except.bind_eq_ok.mp text
  unfold FileTree.readBytes at read
  split at read
  next content file => exact ⟨content, file⟩
  next => cases read
  next => cases read

theorem Written.holds (h : Written (directory ++ [name]) payload t) (ho : payload.isObj = true) :
    Holds directory name payload t := by
  have number : payload.isNaN = false := by
    obtain ⟨fields, rfl⟩ := Json.isObj_iff.mp ho
    rfl
  exact ⟨payload, readObject_of_readJson h.readJson ho, Json.pyEq_self h.distinct number⟩

/-- Where a write-once stops, the file is as it was, or newly there. -/
theorem writeOnce_stages (hd : payload.distinct = true)
    (h : t' ∈ (writeOnce directory name payload).stages t) :
    t'.get? (directory ++ [name]) = t.get? (directory ++ [name]) ∨
      t.get? (directory ++ [name]) = none ∧ Written (directory ++ [name]) payload t' := by
  rcases mem_stages_bind h with h | ⟨present, _, hr, h⟩
  · rw [List.mem_singleton.mp h]
    exact Or.inl rfl
  · obtain ⟨found, rfl⟩ := returns_inspect.mp hr
    cases present with
    | true =>
      rcases mem_stages_bind h with h | ⟨existing, _, he, h⟩
      · rw [List.mem_singleton.mp h]
        exact Or.inl rfl
      · obtain ⟨-, rfl⟩ := returns_inspect.mp he
        rw [List.mem_singleton.mp h]
        exact Or.inl rfl
    | false =>
      have outside : ¬ directory ++ [name] <+: (directory ++ [name]).dropLast := by
        rw [List.dropLast_concat]
        exact child_ne_above directory name
      rcases writeJsonAtomic_stages outside hd h with same | written
      · exact Or.inl same
      · exact Or.inr ⟨get?_of_not_exists (Except.ok.inj found), written⟩

theorem writeOnce_returns (hd : payload.distinct = true) (ho : payload.isObj = true)
    (h : (writeOnce directory name payload).Returns t u t') : Holds directory name payload t' := by
  obtain ⟨present, _, hr, h⟩ := returns_bind.mp h
  obtain ⟨-, rfl⟩ := returns_inspect.mp hr
  cases present with
  | true =>
    obtain ⟨existing, _, he, h⟩ := returns_bind.mp h
    obtain ⟨read, rfl⟩ := returns_inspect.mp he
    obtain ⟨equal, rfl⟩ := returns_lift.mp h
    exact ⟨existing, read, Except.check_eq_ok.mp equal⟩
  | false => exact (writeJsonAtomic_written hd h).holds ho

/-- Writing once more what is there changes nothing. -/
theorem writeOnce_holds (h : Holds directory name payload t) :
    Program.Ran (writeOnce directory name payload) t [] t (.ok ()) := by
  obtain ⟨existing, read, equal⟩ := h
  obtain ⟨_, file⟩ := get?_of_readJson (readObject_ok read).1
  have present : t.exists_ (directory ++ [name]) = true := FileTree.exists_of_get? file
  refine Program.Ran.inspect_bind (congrArg Except.ok present) (Program.Ran.inspect_bind read ?_)
  rw [equal]
  exact Program.Ran.lift

theorem writeOnce_keeps (hn : other ≠ name) (ht : other ≠ name ++ lit ".tmp") :
    Keeps (fun t : FileTree => t.get? (directory ++ [other])) (writeOnce directory name payload) := by
  refine Keeps.bind (Keeps.inspect _) fun present => ?_
  cases present with
  | true => exact Keeps.bind (Keeps.inspect _) fun _ => Keeps.lift _
  | false =>
    have file : directory ++ [other] ≠ directory ++ [name] := by simpa using hn
    have temporary : directory ++ [other] ≠ temporaryPath (directory ++ [name]) := by
      simpa [temporaryPath] using ht
    refine Keeps.bind (Keeps.act fun t => FileTree.mkdir_ne ?_) fun _ =>
      Keeps.bind (Keeps.lift _) fun _ => Keeps.act fun t => replaceText_ne file temporary
    rw [List.dropLast_concat]
    exact child_ne_above directory other

theorem dropLast_child (directory : Path) (name : Str) :
    (directory ++ [name]).dropLast = directory :=
  List.dropLast_concat

/-- What a write-once that succeeds has done: nothing, or the three steps of an atomic write. -/
theorem writeOnce_cases (h : (writeOnce directory name payload).Returns t u t') :
    t' = t ∧ (∃ node, t.get? (directory ++ [name]) = some node) ∨
      t.get? (directory ++ [name]) = none ∧ ∃ made s, FileTree.mkdir true directory t = (made, .ok ()) ∧
        replaceText (directory ++ [name]) s made = (t', .ok ()) := by
  obtain ⟨present, _, hr, h⟩ := returns_bind.mp h
  obtain ⟨found, rfl⟩ := returns_inspect.mp hr
  cases present with
  | true =>
    obtain ⟨existing, _, he, h⟩ := returns_bind.mp h
    obtain ⟨-, rfl⟩ := returns_inspect.mp he
    obtain ⟨-, rfl⟩ := returns_lift.mp h
    exact Or.inl ⟨rfl, get?_of_exists (by simp) (Except.ok.inj found)⟩
  | false =>
    obtain ⟨_, made, hm, h⟩ := returns_bind.mp h
    obtain ⟨s, _, hs, h⟩ := returns_bind.mp h
    obtain ⟨-, rfl⟩ := returns_lift.mp hs
    have made' := returns_act.mp hm
    rw [dropLast_child] at made'
    exact Or.inr ⟨get?_of_not_exists (Except.ok.inj found), made, _, made', returns_act.mp h⟩

/-- A write-once takes away nothing but the temporary file of a file that it writes. -/
theorem writeOnce_kept {q : Path} {node : Node}
    (h : (writeOnce directory name payload).Returns t u t') (hq : t.get? q = some node)
    (scratch : t.get? (directory ++ [name]) = none → q ≠ temporaryPath (directory ++ [name])) :
    t'.get? q = some node := by
  obtain ⟨rfl, -⟩ | ⟨absent, made, s, hm, replaced⟩ := writeOnce_cases h
  · exact hq
  · have there : made.get? q = some node := by
      have kept : (FileTree.mkdir true directory t).1.get? q = some node :=
        FileTree.mkdir_of_some hq
      rwa [hm] at kept
    have other : q ≠ directory ++ [name] := by
      rintro rfl
      rw [absent] at hq
      cases hq
    have kept := replaceText_ne (s := s) (t := made) other (scratch absent)
    rw [replaced] at kept
    exact kept.trans there

theorem writeOnce_erased (h : (writeOnce directory name payload).Returns t u t')
    (absent : t.get? (directory ++ [name]) = none) :
    t'.get? (temporaryPath (directory ++ [name])) = none := by
  obtain ⟨-, node, there⟩ | ⟨-, made, s, -, replaced⟩ := writeOnce_cases h
  · rw [absent] at there
    cases there
  · exact replaceText_erased replaced

theorem writeOnce_directory (h : (writeOnce directory name payload).Returns t u t')
    (there : t.get? directory = some .dir) : t'.get? directory = some .dir := by
  refine writeOnce_kept h there fun _ same => ?_
  have length := congrArg List.length same
  rw [temporaryPath_child, List.length_append, List.length_singleton] at length
  omega

/-- In a directory that is there, a write-once changes nothing but its two files. -/
theorem writeOnce_other {q : Path} (h : (writeOnce directory name payload).Returns t u t')
    (there : t.isDir directory = true) (file : q ≠ directory ++ [name])
    (scratch : q ≠ temporaryPath (directory ++ [name])) : t'.get? q = t.get? q := by
  obtain ⟨rfl, -⟩ | ⟨-, made, s, hm, replaced⟩ := writeOnce_cases h
  · rfl
  · rw [FileTree.mkdir, if_pos there] at hm
    cases hm
    have kept := replaceText_ne (s := s) (t := t) file scratch
    rwa [replaced] at kept

/-- A write-once into a directory without the file succeeds with every value that has a text. -/
theorem writeOnce_total (there : t.isDir directory = true) (fresh : t.get? (directory ++ [name]) = none)
    (scratch : t.get? (directory ++ [name ++ lit ".tmp"]) = none) (h : payload.encodable = true) :
    ∃ t', (writeOnce directory name payload).Returns t () t' := by
  have absent : (Disk.read fun t : FileTree => .ok (t.exists_ (directory ++ [name]))).Returns t false t :=
    returns_inspect.mpr ⟨congrArg Except.ok (exists_child fresh), rfl⟩
  obtain ⟨t', written⟩ := writeJsonAtomic_total there (isDir_child fresh) (isDir_child scratch) h
  exact ⟨t', returns_bind.mpr ⟨false, t, absent, written⟩⟩

end WriteOnce

end EdgecaseForge

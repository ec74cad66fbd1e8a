import EdgecaseForge.LedgerText

namespace EdgecaseForge

open Text Effect Program

/-- The ledger of a suite. -/
def ledgerPath (suiteDir : Path) : Path :=
  suiteDir ++ [lit "case-evaluations.jsonl"]

/-- The ledger has these rows, one a line. A ledger that is not there has none. -/
def LedgerHolds (suiteDir : Path) (rows : List Json) (t : FileTree) : Prop :=
  utf8Encode (ledgerText rows) = some (contentOrEmpty (ledgerPath suiteDir) t)

section File

variable {suiteDir p : Path} {rows : List Json} {row : Json} {t t' : FileTree}

theorem contentOrEmpty_congr (h : t'.get? p = t.get? p) :
    contentOrEmpty p t' = contentOrEmpty p t := by
  rw [contentOrEmpty, contentOrEmpty, h]

theorem LedgerHolds.congr (h : LedgerHolds suiteDir rows t)
    (kept : t'.get? (ledgerPath suiteDir) = t.get? (ledgerPath suiteDir)) :
    LedgerHolds suiteDir rows t' := by
  rwa [LedgerHolds, contentOrEmpty_congr kept]

theorem ledgerHolds_nil (h : t.get? (ledgerPath suiteDir) = none) :
    LedgerHolds suiteDir [] t := by
  rw [LedgerHolds, contentOrEmpty, h]
  rfl

theorem ledgerText_append (rows : List Json) (row : Json) :
    ledgerText (rows ++ [row]) = ledgerText rows ++ (rowText row ++ [lineFeed]) := by
  simp [ledgerText]

theorem contentOrEmpty_set (p : Path) (content : Bytes) (t : FileTree) :
    contentOrEmpty p (t.set p (.file content)) = content := by
  rw [contentOrEmpty, Dict.get?_set_self]

/-- An append adds its row as the last line. -/
theorem appendLine_ok (h : (appendLine p row t).2 = .ok ()) :
    row.printable = true ∧ ∃ line, utf8Encode (rowText row ++ [lineFeed]) = some line ∧
      (appendLine p row t).1.get? p = some (.file (contentOrEmpty p t ++ line)) := by
  unfold appendLine at h ⊢
  split at h
  next => cases h
  next =>
    split at h
    next line printed =>
      obtain ⟨printable, encoded⟩ := jsonLine_eq_ok.mp printed
      exact ⟨printable, line, encoded, Dict.get?_set_self _ _ _⟩
    next => cases h

/-- An append that fails leaves the lines there were. -/
theorem appendLine_error {e : PyError} (h : (appendLine p row t).2 = .error e) :
    contentOrEmpty p (appendLine p row t).1 = contentOrEmpty p t := by
  unfold appendLine at h ⊢
  split at h
  next => rfl
  next =>
    split at h
    next => cases h
    next => exact contentOrEmpty_set _ _ _

theorem appendLine_prefix : contentOrEmpty p t <+: contentOrEmpty p (appendLine p row t).1 := by
  cases hr : (appendLine p row t).2 with
  | error e => rw [appendLine_error hr]
  | ok u =>
    obtain ⟨-, line, -, stored⟩ := appendLine_ok hr
    have written : contentOrEmpty p (appendLine p row t).1 = contentOrEmpty p t ++ line := by
      rw [contentOrEmpty, stored]
    rw [written]
    exact List.prefix_append _ _

theorem LedgerHolds.append (h : LedgerHolds suiteDir rows t)
    (ok : (appendLine (ledgerPath suiteDir) row t).2 = .ok ()) :
    LedgerHolds suiteDir (rows ++ [row]) (appendLine (ledgerPath suiteDir) row t).1 := by
  obtain ⟨-, line, encoded, stored⟩ := appendLine_ok ok
  rw [LedgerHolds, ledgerText_append, contentOrEmpty, stored]
  exact utf8Encode_append h encoded

theorem LedgerHolds.append_error (h : LedgerHolds suiteDir rows t) {e : PyError}
    (failed : (appendLine (ledgerPath suiteDir) row t).2 = .error e) :
    LedgerHolds suiteDir rows (appendLine (ledgerPath suiteDir) row t).1 := by
  rwa [LedgerHolds, appendLine_error failed]

end File

section Reading

variable {context : ProgressContext} {t : FileTree} {entries : List (CaseKey × Json)}

theorem ledgerText_concat (rows : List Json) (row : Json) :
    ∃ s, ledgerText (rows ++ [row]) = s ++ [lineFeed] :=
  ⟨ledgerText rows ++ rowText row, by rw [ledgerText_append, List.append_assoc]⟩

theorem ledgerText_eq_nil {rows : List Json} (h : ledgerText rows = []) : rows = [] := by
  cases rows with
  | nil => rfl
  | cons row rows =>
    rw [ledgerText_cons] at h
    exact absurd h (by simp)

/-- The bytes of a ledger end with a line feed, if there are any. -/
theorem ledger_last {rows : List Json} {raw : Bytes} (h : utf8Encode (ledgerText rows) = some raw)
    (some : raw ≠ []) : raw.getLast? = .some 0x0A := by
  rcases List.eq_nil_or_concat' rows with rfl | ⟨before, row, rfl⟩
  · cases h
    exact absurd rfl some
  · obtain ⟨s, hs⟩ := ledgerText_concat before row
    rw [hs] at h
    obtain ⟨bytes, more, -, last, rfl⟩ := utf8Encode_append_eq_some.mp h
    have feed : utf8Encode [lineFeed] = .some [0x0A] := by decide
    cases feed.symm.trans last
    simp

theorem progressLines_ledger {rows : List Json} {raw : Bytes}
    (h : utf8Encode (ledgerText rows) = some raw) :
    progressLines raw = .ok (splitLines (ledgerText rows)) := by
  rw [progressLines, utf8Decode_encode h, if_neg]
  rintro ⟨some, last⟩
  exact last (ledger_last h some)

theorem contentOrEmpty_of_exists {p : Path} {raw : Bytes} (h : t.readBytes p = .ok raw) :
    contentOrEmpty p t = raw := by
  unfold FileTree.readBytes at h
  rw [contentOrEmpty]
  split at h
  next content hg =>
    cases h
    rw [hg]
  next => cases h
  next => cases h

theorem contentOrEmpty_of_absent {p : Path} (h : t.exists_ p = false) :
    contentOrEmpty p t = [] := by
  rw [FileTree.exists_, Bool.or_eq_false_iff] at h
  unfold contentOrEmpty
  split
  next content hg =>
    rw [FileTree.isFile_of_get? hg] at h
    cases h.1
  next => rfl

/-- The reader goes through the lines of a ledger it finds. -/
theorem readProgress_eq {rows : List Json} (h : LedgerHolds context.suiteDir rows t)
    (readable : t.isDir (ledgerPath context.suiteDir) = false) :
    readProgress context (ledgerPath context.suiteDir) t =
      readRows context t [] 1 (splitLines (ledgerText rows)) := by
  unfold readProgress
  split
  next found =>
    have isFile : t.isFile (ledgerPath context.suiteDir) = true := by
      rw [FileTree.exists_, readable, Bool.or_false] at found
      exact found
    obtain ⟨raw, read⟩ : ∃ raw, t.readBytes (ledgerPath context.suiteDir) = .ok raw := by
      unfold FileTree.isFile at isFile
      unfold FileTree.readBytes
      split at isFile
      next content hg => exact ⟨content, by rw [hg]⟩
      next => cases isFile
    rw [LedgerHolds, contentOrEmpty_of_exists read] at h
    rw [read, Except.ok_bind, progressLines_ledger h, Except.ok_bind]
  next absent =>
    rw [LedgerHolds, contentOrEmpty_of_absent (by simpa using absent)] at h
    have none : ledgerText rows = [] := by
      have decoded := utf8Decode_encode h
      exact (Option.some.inj decoded).symm
    rw [none]
    rfl

/-- Whatever the reader takes from a ledger is the rows that were written to it. -/
theorem readProgress_inv {rows : List Json}
    (h : LedgerHolds context.suiteDir (entries.map Prod.snd) t)
    (listed : ∀ e ∈ entries, Listed context e.1 e.2)
    (read : readProgress context (ledgerPath context.suiteDir) t = .ok rows) :
    rows = entries.map Prod.snd ∧ ∀ e ∈ entries, e.2.LineSafe ∧ e.1 ∈ context.allowed ∧
      ∃ line, validateEvaluationArtifacts e.2 context.suiteDir line t = .ok () := by
  by_cases isDir : t.isDir (ledgerPath context.suiteDir) = true
  · have refused : readProgress context (ledgerPath context.suiteDir) t =
        .error .isADirectoryError := by
      have stored : t.get? (ledgerPath context.suiteDir) = some .dir := by
        simpa [FileTree.isDir, ledgerPath] using isDir
      rw [readProgress, if_pos (by rw [FileTree.exists_, isDir, Bool.or_true])]
      rw [FileTree.readBytes, stored]
      rfl
    rw [refused] at read
    cases read
  · rw [readProgress_eq h (by simpa using isDir)] at read
    have safe := readRows_lineSafe listed read
    rw [splitLines_ledgerText (List.forall_mem_map.mpr safe)] at read
    obtain ⟨rfl, accepted⟩ := readRows_inv listed read
    exact ⟨rfl, fun e he => ⟨safe e he, accepted e he⟩⟩

/-- A ledger whose rows keep to their lines, have their place and have their artifacts is read as
what was written to it. -/
theorem readProgress_ok (h : LedgerHolds context.suiteDir (entries.map Prod.snd) t)
    (readable : t.isDir (ledgerPath context.suiteDir) = false)
    (listed : ∀ e ∈ entries, Listed context e.1 e.2) (safe : ∀ e ∈ entries, e.2.LineSafe)
    (allowed : ∀ e ∈ entries, e.1 ∈ context.allowed) (once : (entries.map Prod.fst).Nodup)
    (artifacts : ∀ e ∈ entries, ∀ line,
      validateEvaluationArtifacts e.2 context.suiteDir line t = .ok ()) :
    readProgress context (ledgerPath context.suiteDir) t = .ok (entries.map Prod.snd) := by
  rw [readProgress_eq h readable,
    splitLines_ledgerText (List.forall_mem_map.mpr safe)]
  exact readRows_ok listed allowed (by simp) once artifacts

end Reading

end EdgecaseForge

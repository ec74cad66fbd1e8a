import EdgecaseForge.ProgressReader

namespace EdgecaseForge

open Text

section Values

theorem isNone_iff {value : Json} : isNone value = true ↔ value = .null := by
  cases value <;> simp [isNone]

theorem pyEq_str_left {s : Str} {value : Json} (h : (Json.str s).pyEq value = true) :
    value = .str s := by
  cases value with
  | str s' =>
    simp only [Json.pyEq, beq_iff_eq] at h
    rw [h]
  | _ => simp [Json.pyEq, Json.rat?] at h

theorem pyEq_str_right {s : Str} {value : Json} (h : value.pyEq (.str s) = true) :
    value = .str s := by
  cases value with
  | str s' =>
    simp only [Json.pyEq, beq_iff_eq] at h
    rw [h]
  | float x => cases x <;> simp [Json.pyEq, Json.rat?] at h
  | _ => simp [Json.pyEq, Json.rat?] at h

end Values

section Rows

variable {context : ProgressContext} {t : FileTree} {row : Json} {rows : List Json} {line : Nat}
  {seen : List CaseKey} {key : CaseKey} {s : Str}

/-- What the reader has made sure of in a row that it takes. -/
structure Accepted (context : ProgressContext) (key : CaseKey) (row : Json) (t : FileTree) :
    Prop where
  isObj : row.isObj = true
  scheduled : key ∈ context.allowed
  repetition : (row.get (lit "repetition")).pyEq (.int key.repetition) = true
  caseId : row.get (lit "case_id") = .str key.caseId
  artifacts : ∃ line, validateEvaluationArtifacts row context.suiteDir line t = .ok ()

theorem scheduledKey_found {allowed : List CaseKey}
    (h : scheduledKey allowed row = .ok (some key)) : key ∈ allowed ∧
      (row.get (lit "repetition")).pyEq (.int key.repetition) = true ∧
      row.get (lit "case_id") = .str key.caseId := by
  obtain ⟨_, -, h⟩ := Except.bind_eq_ok.mp h
  have found := Except.ok.inj h
  have same := List.find?_some found
  rw [Bool.and_eq_true] at same
  exact ⟨List.mem_of_find?_eq_some found, same.1, pyEq_str_right same.2⟩

theorem checkKey_found {allowed : List CaseKey} (h : checkKey allowed seen row line = .ok key) :
    scheduledKey allowed row = .ok (some key) ∧ key ∉ seen := by
  obtain ⟨scheduled, found, h⟩ := Except.bind_eq_ok.mp h
  cases scheduled with
  | none => cases h
  | some k =>
    dsimp only at h
    split at h
    next => cases h
    next fresh =>
      cases h
      exact ⟨found, fresh⟩

theorem readRow_accepted (h : readRow context seen line s t = .ok (key, row)) :
    Accepted context key row t ∧ key ∉ seen := by
  obtain ⟨_, -, h⟩ := Except.bind_eq_ok.mp h
  obtain ⟨parsed, -, h⟩ := Except.bind_eq_ok.mp h
  obtain ⟨_, isObj, h⟩ := Except.bind_eq_ok.mp h
  obtain ⟨_, -, h⟩ := Except.bind_eq_ok.mp h
  obtain ⟨found, checked, h⟩ := Except.bind_eq_ok.mp h
  obtain ⟨_, -, h⟩ := Except.bind_eq_ok.mp h
  obtain ⟨_, valid, h⟩ := Except.bind_eq_ok.mp h
  cases h
  obtain ⟨scheduled, fresh⟩ := checkKey_found checked
  obtain ⟨listed, repetition, caseId⟩ := scheduledKey_found scheduled
  exact ⟨⟨Except.check_eq_ok.mp isObj, listed, repetition, caseId, line, valid⟩, fresh⟩

/-- The rows that the reader takes have distinct pairs of the schedule. -/
theorem readRows_accepted {lines : List Str}
    (h : readRows context t seen line lines = .ok rows) :
    ∃ entries : List (CaseKey × Json), rows = entries.map Prod.snd ∧
      (∀ e ∈ entries, Accepted context e.1 e.2 t ∧ e.1 ∉ seen) ∧
      (entries.map Prod.fst).Nodup := by
  induction lines generalizing seen line rows with
  | nil =>
    cases h
    exact ⟨[], rfl, by simp, List.nodup_nil⟩
  | cons s lines ih =>
    obtain ⟨⟨key, row⟩, first, h⟩ := Except.bind_eq_ok.mp h
    obtain ⟨rest, others, h⟩ := Except.bind_eq_ok.mp h
    cases h
    obtain ⟨accepted, fresh⟩ := readRow_accepted first
    obtain ⟨entries, rfl, all, once⟩ := ih others
    refine ⟨(key, row) :: entries, rfl, ?_, List.nodup_cons.mpr ⟨?_, once⟩⟩
    · refine List.forall_mem_cons.mpr ⟨⟨accepted, fresh⟩, fun e he => ?_⟩
      obtain ⟨ok, unseen⟩ := all e he
      exact ⟨ok, fun hs => unseen (List.mem_cons_of_mem key hs)⟩
    · intro hk
      obtain ⟨e, he, same⟩ := List.mem_map.mp hk
      exact (all e he).2 (List.mem_cons.mpr (Or.inl same))

theorem readProgress_accepted {path : Path} (h : readProgress context path t = .ok rows) :
    ∃ entries : List (CaseKey × Json), rows = entries.map Prod.snd ∧
      (∀ e ∈ entries, Accepted context e.1 e.2 t) ∧ (entries.map Prod.fst).Nodup := by
  unfold readProgress at h
  split at h
  next =>
    obtain ⟨raw, -, h⟩ := Except.bind_eq_ok.mp h
    obtain ⟨lines, -, h⟩ := Except.bind_eq_ok.mp h
    obtain ⟨entries, rfl, all, once⟩ := readRows_accepted h
    exact ⟨entries, rfl, fun e he => (all e he).1, once⟩
  next =>
    cases h
    exact ⟨[], rfl, by simp, List.nodup_nil⟩

theorem readProgress_mem {path : Path} (h : readProgress context path t = .ok rows)
    (hr : row ∈ rows) : ∃ key, Accepted context key row t := by
  obtain ⟨entries, rfl, all, -⟩ := readProgress_accepted h
  obtain ⟨e, he, rfl⟩ := List.mem_map.mp hr
  exact ⟨e.1, all e he⟩

/-- A row without a model error has the hash of the files of its run. -/
theorem validateCompleted_hash {suiteDir : Path}
    (h : validateCompleted row suiteDir line t = .ok ()) :
    ∃ runDir sha256, safeSuitePath suiteDir (row.get (lit "run_directory")) line = .ok runDir ∧
      treeSha256 runDir [] t = .ok sha256 ∧
      row.get (lit "run_artifacts_sha256") = .str sha256 := by
  obtain ⟨runDir, named, h⟩ := Except.bind_eq_ok.mp h
  obtain ⟨_, -, h⟩ := Except.bind_eq_ok.mp h
  obtain ⟨sha256, hashed, h⟩ := Except.bind_eq_ok.mp h
  obtain ⟨_, same, -⟩ := Except.bind_eq_ok.mp h
  exact ⟨runDir, sha256, named, hashed, pyEq_str_left (Except.check_eq_ok.mp same)⟩

end Rows

end EdgecaseForge

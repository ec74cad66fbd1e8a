import EdgecaseForge.Eligibility
import EdgecaseForge.ScoreOrder

namespace EdgecaseForge

open Text Effect Program

section Rows

variable {x y row : Json} {key key' : CaseKey} {suiteDir : Path} {line : Nat} {t : FileTree}

/-- Equal values count as the same number, if they count as one. -/
theorem rat?_eq_of_pyEq (h : x.pyEq y = true) : x.rat? = y.rat? := by
  cases x with
  | float f => cases f <;> cases y <;> first | (rename_i g; cases g) | skip
               all_goals simp_all [Json.pyEq, Json.rat?]
  | _ => cases y <;> first | (rename_i g; cases g) | skip
         all_goals simp_all [Json.pyEq, Json.rat?]

theorem pyEq_true_congr (h : x.pyEq y = true) :
    x.pyEq (.bool true) = true ↔ y.pyEq (.bool true) = true := by
  rw [pyEq_bool_iff, pyEq_bool_iff, rat?_eq_of_pyEq h]

/-- A row is about a pair. -/
structure RowOf (key : CaseKey) (row : Json) : Prop where
  repetition : (row.get (lit "repetition")).pyEq (.int key.repetition) = true
  caseId : row.get (lit "case_id") = .str key.caseId

theorem RowOf.unique (h : RowOf key row) (h' : RowOf key' row) : key = key' := by
  have number := (pyEq_int_iff.mp h.repetition).symm.trans (pyEq_int_iff.mp h'.repetition)
  have caseId := h.caseId.symm.trans h'.caseId
  refine CaseKey.ext ?_ (Json.str.inj caseId)
  exact_mod_cast Option.some.inj number

/-- A row names a file below the suite as its evidence. -/
def NamesEvidence (suiteDir : Path) (row : Json) (path : Path) : Prop :=
  ∃ line, safeSuitePath suiteDir (row.get (lit "differential_evidence")) line = .ok path

theorem safeSuitePath_line {value : Json} {line line' : Nat} {path path' : Path}
    (h : safeSuitePath suiteDir value line = .ok path)
    (h' : safeSuitePath suiteDir value line' = .ok path') : path = path' := by
  cases value with
  | str s =>
    simp only [safeSuitePath, safeChildPath] at h h'
    by_cases empty : s = []
    · simp [empty] at h
    · simp only [empty, if_false] at h h'
      split at h
      · cases h
      next safe =>
        rw [if_neg safe] at h'
        exact Except.ok.inj (h.symm.trans h')
  | _ => cases h

end Rows

section Decisions

variable {expected : List CaseKey} {rows : List Json} {row : Json} {key : CaseKey}
  {decisions : List AdjudicationDecision}

theorem observedPair_some (h : observedPair expected row = .ok (some key)) : RowOf key row := by
  obtain ⟨repetition, hr, h⟩ := Except.bind_eq_ok.mp h
  obtain ⟨caseId, hc, h⟩ := Except.bind_eq_ok.mp h
  obtain ⟨_, -, h⟩ := Except.bind_eq_ok.mp h
  have found := Except.ok.inj h
  have both := List.find?_some found
  obtain ⟨first, second⟩ := Bool.and_eq_true_iff.mp both
  constructor
  · rw [Json.get, subscript_ok hr, Option.getD_some]
    exact first
  · rw [Json.get, subscript_ok hc, Option.getD_some]
    exact pyEq_str_right second

theorem candidateRows_mem {candidates : List (CaseKey × Json)}
    (h : candidateRows expected rows = .ok candidates) (hm : (key, row) ∈ candidates) :
    row ∈ rows ∧ RowOf key row := by
  induction rows generalizing candidates with
  | nil =>
    cases h
    cases hm
  | cons first rows ih =>
    obtain ⟨kill, -, h⟩ := Except.bind_eq_ok.mp h
    obtain ⟨rest, hr, h⟩ := Except.bind_eq_ok.mp h
    split at h
    next =>
      obtain ⟨pair, hp, h⟩ := Except.bind_eq_ok.mp h
      cases h
      rcases List.mem_append.mp hm with hm | hm
      · cases pair with
        | none => cases hm
        | some k =>
          cases List.mem_singleton.mp hm
          exact ⟨List.mem_cons_self, observedPair_some hp⟩
      · obtain ⟨listed, of⟩ := ih hr hm
        exact ⟨List.mem_cons_of_mem first listed, of⟩
    next =>
      cases h
      obtain ⟨listed, of⟩ := ih hr hm
      exact ⟨List.mem_cons_of_mem first listed, of⟩

theorem indexDecisions_nodup {acc indexed : List (CaseKey × AdjudicationDecision)}
    (h : indexDecisions acc decisions = .ok indexed) (ha : (acc.map Prod.fst).Nodup) :
    (indexed.map Prod.fst).Nodup := by
  induction decisions generalizing acc with
  | nil =>
    cases h
    exact ha
  | cons d decisions ih =>
    unfold indexDecisions at h
    split at h
    · cases h
    next fresh =>
      refine ih h ?_
      rw [List.map_append, List.map_singleton]
      exact List.nodup_append.mpr ⟨ha, List.nodup_singleton _, fun a ha b hb same => by
        rw [List.mem_singleton.mp hb] at same
        rw [same] at ha
        exact fresh ha⟩

/-- A decision that is taken has the hashes of a row of its pair. -/
theorem decideCases_row {ds : List CaseDecision} (h : decideCases expected rows decisions = .ok ds)
    {d : AdjudicationDecision} (hd : d ∈ decisions) :
    ∃ row ∈ rows, RowOf d.key row ∧ row.get (lit "test_sha256") = .str d.testSha256.text ∧
      row.get (lit "differential_sha256") = .str d.differentialSha256.text := by
  obtain ⟨candidates, hc, h⟩ := Except.bind_eq_ok.mp h
  obtain ⟨indexed, hi, h⟩ := Except.bind_eq_ok.mp h
  obtain ⟨_, covered, h⟩ := Except.bind_eq_ok.mp h
  have listed : (d.key, d) ∈ indexed := by
    rw [indexDecisions_eq hi, List.nil_append]
    exact List.mem_map.mpr ⟨d, hd, rfl⟩
  have extra := (Bool.and_eq_true_iff.mp (Except.check_eq_ok.mp covered)).2
  obtain ⟨⟨key, row⟩, hm, same⟩ :=
    List.mem_map.mp (of_decide_eq_true (List.all_eq_true.mp extra (d.key, d) listed))
  cases same
  obtain ⟨inRows, rowOf⟩ := candidateRows_mem hc hm
  have sorted : (d.key, row) ∈ sortedKeys candidates := List.mem_insertionSort _ |>.mpr hm
  obtain ⟨decided, hr⟩ := Except.ok_of_mem_mapM h sorted
  have once := indexDecisions_nodup hi List.nodup_nil
  have found : indexed.lookup d.key = some d := by
    cases hl : indexed.lookup d.key with
    | none =>
      have absent := List.lookup_eq_none_iff.mp hl _ listed
      simp at absent
    | some other =>
      obtain ⟨l, r, split, -⟩ := List.lookup_eq_some_iff.mp hl
      have there : (d.key, other) ∈ indexed := split ▸ by simp
      have same := List.inj_on_of_nodup_map once there listed rfl
      rw [(Prod.mk.inj same).2]
  unfold decideCase at hr
  dsimp only at hr
  rw [found] at hr
  obtain ⟨testSha256, ht, hr⟩ := Except.bind_eq_ok.mp hr
  obtain ⟨_, testSame, hr⟩ := Except.bind_eq_ok.mp hr
  obtain ⟨differentialSha256, hs, hr⟩ := Except.bind_eq_ok.mp hr
  obtain ⟨_, differentialSame, -⟩ := Except.bind_eq_ok.mp hr
  refine ⟨row, inRows, rowOf, ?_, ?_⟩
  · rw [Json.get, subscript_ok ht, Option.getD_some]
    exact pyEq_str_left (Except.check_eq_ok.mp testSame)
  · rw [Json.get, subscript_ok hs, Option.getD_some]
    exact pyEq_str_left (Except.check_eq_ok.mp differentialSame)

end Decisions

section Evidence

variable {row differential : Json} {suiteDir path : Path} {line : Nat} {t t' : FileTree}
  {d : AdjudicationDecision}

/-- What the reader has found of the evidence that a row names. -/
structure CheckedEvidence (row : Json) (suiteDir path : Path) (sha256 : Str)
    (differential : Json) (t : FileTree) : Prop where
  below : suiteDir <+: path
  hashed : fileSha256 path t = .ok sha256
  recorded : row.get (lit "differential_sha256") = .str sha256
  read : readJson path t = .ok differential
  caseId : (differential.get (lit "case_id")).pyEq (row.get (lit "case_id")) = true
  testSha256 : (differential.get (lit "test_sha256")).pyEq (row.get (lit "test_sha256")) = true
  kill : (differential.get (lit "case_candidate_kill")).pyEq (row.get (lit "candidate_kill")) = true

theorem getField_ok {value field : Json} {name : String} (h : getField value name = .ok field) :
    field = value.get (lit name) := by
  cases value with
  | obj fields => exact (Except.ok.inj h).symm
  | _ => cases h

theorem safeSuitePath_below {value : Json} (h : safeSuitePath suiteDir value line = .ok path) :
    suiteDir <+: path := by
  cases value with
  | str s =>
    simp only [safeSuitePath, safeChildPath] at h
    by_cases empty : s = []
    · simp [empty] at h
    · simp only [empty, if_false] at h
      split at h
      · cases h
      · obtain ⟨_, -, rfl⟩ := Except.map_eq_ok.mp h
        exact List.prefix_append _ _
  | _ => cases h

theorem validateDifferential_ok (h : validateDifferential row suiteDir line t = .ok ()) :
    ∃ path sha256 differential,
      safeSuitePath suiteDir (row.get (lit "differential_evidence")) line = .ok path ∧
      CheckedEvidence row suiteDir path sha256 differential t := by
  obtain ⟨path, named, h⟩ := Except.bind_eq_ok.mp h
  obtain ⟨_, -, h⟩ := Except.bind_eq_ok.mp h
  obtain ⟨sha256, hashed, h⟩ := Except.bind_eq_ok.mp h
  obtain ⟨_, recorded, h⟩ := Except.bind_eq_ok.mp h
  obtain ⟨differential, read, h⟩ := Except.bind_eq_ok.mp h
  obtain ⟨_, metadata, -⟩ := Except.bind_eq_ok.mp h
  obtain ⟨caseId, hc, metadata⟩ := Except.bind_eq_ok.mp metadata
  obtain ⟨testSha256, ht, metadata⟩ := Except.bind_eq_ok.mp metadata
  obtain ⟨kill, hk, metadata⟩ := Except.bind_eq_ok.mp metadata
  rw [getField_ok hc, getField_ok ht, getField_ok hk, Except.check_eq_ok, Bool.and_eq_true,
    Bool.and_eq_true] at metadata
  obtain ⟨⟨sameCase, sameTest⟩, sameKill⟩ := metadata
  exact ⟨path, sha256, differential, named, safeSuitePath_below named, hashed,
    pyEq_str_left (Except.check_eq_ok.mp recorded), read, sameCase, sameTest, sameKill⟩

/-- The three ways in which the reader accepts the artifacts of a row: only the last has evidence. -/
theorem validateEvaluationArtifacts_ok
    (h : validateEvaluationArtifacts row suiteDir line t = .ok ()) :
    row.get (lit "differential_evidence") = .null ∧
        (row.get (lit "status") ≠ .str (lit "completed") ∨
          (row.get (lit "test_generated")).truthy = false) ∨
      row.get (lit "status") = .str (lit "completed") ∧
      (row.get (lit "test_generated")).truthy = true ∧
      validateDifferential row suiteDir line t = .ok () := by
  obtain ⟨_, shape, h⟩ := Except.bind_eq_ok.mp h
  obtain ⟨_, known, -⟩ := Except.bind_eq_ok.mp shape
  split at h
  next modelError =>
    obtain ⟨_, -, h⟩ := Except.bind_eq_ok.mp h
    have absent := isNone_iff.mp (Bool.and_eq_true_iff.mp (Except.check_eq_ok.mp h)).2
    refine Or.inl ⟨absent, Or.inl fun completed => ?_⟩
    rw [completed] at modelError
    exact absurd modelError (by decide)
  next other =>
    obtain ⟨runDir, -, h⟩ := Except.bind_eq_ok.mp h
    obtain ⟨_, -, h⟩ := Except.bind_eq_ok.mp h
    obtain ⟨sha256, -, h⟩ := Except.bind_eq_ok.mp h
    obtain ⟨_, -, h⟩ := Except.bind_eq_ok.mp h
    split at h
    next generated =>
      refine Or.inr ⟨?_, generated, h⟩
      unfold checkStatus at known
      split at known
      · cases known
      · cases known
      · rw [Except.check_eq_ok, Bool.or_eq_true, or_iff_left other] at known
        exact pyEq_str_right known
    next untested =>
      exact Or.inl ⟨isNone_iff.mp (Except.check_eq_ok.mp h), Or.inr (by simpa using untested)⟩

end Evidence

section Confirmed

variable {decode : DecisionReader} {suiteDir decisionsPath path : Path} {t t' : FileTree} {row : Json}
  {d : AdjudicationDecision}

/-- A file below the suite is evidence of a decision. -/
structure EvidenceOf (suiteDir path : Path) (d : AdjudicationDecision) (t : FileTree) : Prop where
  below : suiteDir <+: path
  sha256 : fileSha256 path t = .ok d.differentialSha256.text
  content : ∃ differential, readJson path t = .ok differential ∧
    differential.get (lit "case_id") = .str d.caseId ∧
    differential.get (lit "test_sha256") = .str d.testSha256.text ∧
    (differential.get (lit "case_candidate_kill")).pyEq (.bool true) = true

/-- A row whose evidence the reader has gone through, that claims exactly `True` and whose evidence
is no temporary file of the call. -/
structure FullyChecked (suiteDir : Path) (t : FileTree) (row : Json) : Prop where
  completed : row.get (lit "status") = .str (lit "completed")
  generated : (row.get (lit "test_generated")).truthy = true
  kill : (row.get (lit "candidate_kill")).pyEq (.bool true) = true
  kept : ∀ path, NamesEvidence suiteDir row path → ¬ Scratch suiteDir t path

theorem readBytes_congr {p : Path} (h : t'.get? p = t.get? p) : t'.readBytes p = t.readBytes p := by
  rw [FileTree.readBytes, FileTree.readBytes, h]

theorem EvidenceOf.of_get? (h : EvidenceOf suiteDir path d t) (same : t'.get? path = t.get? path) :
    EvidenceOf suiteDir path d t' := by
  obtain ⟨below, sha256, differential, read, content⟩ := h
  have bytes := readBytes_congr same
  refine ⟨below, ?_, differential, ?_, content⟩
  · rw [fileSha256, bytes]
    exact sha256
  · rw [readJson, readText, bytes]
    exact read

theorem EvidenceOf.stored (h : EvidenceOf suiteDir path d t) :
    ∃ content, t.get? path = some (.file content) := by
  obtain ⟨differential, read, -⟩ := h.content
  exact get?_of_readJson read

/-- The evidence of an accepted row is evidence of a decision with the hashes of the row exactly if
the row claims `True`. -/
theorem CheckedEvidence.evidenceOf {sha256 : Str} {differential : Json}
    (h : CheckedEvidence row suiteDir path sha256 differential t) (rowOf : RowOf d.key row)
    (test : row.get (lit "test_sha256") = .str d.testSha256.text)
    (recorded : row.get (lit "differential_sha256") = .str d.differentialSha256.text) :
    EvidenceOf suiteDir path d t ↔ (row.get (lit "candidate_kill")).pyEq (.bool true) = true := by
  constructor
  · rintro ⟨-, -, found, read, -, -, kill⟩
    rw [h.read] at read
    cases read
    exact (pyEq_true_congr h.kill).mp kill
  · intro kill
    have same := h.recorded.symm.trans recorded
    refine ⟨h.below, ?_, differential, h.read, ?_, ?_, (pyEq_true_congr h.kill).mpr kill⟩
    · rw [h.hashed, Json.str.inj same]
    · have caseId := h.caseId
      rw [rowOf.caseId] at caseId
      exact pyEq_str_right caseId
    · have testSha256 := h.testSha256
      rw [test] at testSha256
      exact pyEq_str_right testSha256

theorem readSuite_rows {suite : RawSuite} (h : readSuite suiteDir t = .ok suite) :
    readProgress (suite.config.progress suiteDir) (progressPath suiteDir) t =
      .ok suite.evaluations := by
  obtain ⟨config, -, h⟩ := Except.bind_eq_ok.mp h
  obtain ⟨evaluations, read, h⟩ := Except.bind_eq_ok.mp h
  obtain ⟨_, -, h⟩ := Except.bind_eq_ok.mp h
  obtain ⟨_, -, h⟩ := Except.bind_eq_ok.mp h
  obtain ⟨_, -, h⟩ := Except.bind_eq_ok.mp h
  obtain ⟨_, -, h⟩ := Except.bind_eq_ok.mp h
  obtain ⟨_, -, h⟩ := Except.bind_eq_ok.mp h
  obtain ⟨_, -, h⟩ := Except.bind_eq_ok.mp h
  cases h
  exact read

theorem reviewSuite_decisions {review : Review}
    (h : reviewSuite decode suiteDir decisionsPath t = .ok review) : ∃ decisions,
      readDecisions decode decisionsPath t = .ok decisions ∧
      decideCases review.suite.config.schedule review.suite.evaluations decisions.decisions =
        .ok review.adjudication.decisions := by
  obtain ⟨_, -, h⟩ := Except.bind_eq_ok.mp h
  obtain ⟨suite, -, h⟩ := Except.bind_eq_ok.mp h
  obtain ⟨decisions, read, h⟩ := Except.bind_eq_ok.mp h
  obtain ⟨_, -, h⟩ := Except.bind_eq_ok.mp h
  obtain ⟨_, -, h⟩ := Except.bind_eq_ok.mp h
  obtain ⟨ds, decided, h⟩ := Except.bind_eq_ok.mp h
  obtain ⟨_, -, h⟩ := Except.bind_eq_ok.mp h
  cases h
  exact ⟨decisions, read, decided⟩

/-- No two rows of an accepted ledger are about one pair. -/
theorem readProgress_rowOf {context : ProgressContext} {p : Path} {rows : List Json} {key : CaseKey}
    {row' : Json} (h : readProgress context p t = .ok rows) (hr : row ∈ rows) (hr' : row' ∈ rows)
    (of : RowOf key row) (of' : RowOf key row') : row = row' := by
  obtain ⟨entries, rfl, accepted, once⟩ := readProgress_accepted h
  obtain ⟨e, he, rfl⟩ := List.mem_map.mp hr
  obtain ⟨e', he', rfl⟩ := List.mem_map.mp hr'
  have about : ∀ e ∈ entries, RowOf e.1 e.2 := fun e he =>
    ⟨(accepted e he).repetition, (accepted e he).caseId⟩
  have same : e.1 = e'.1 := ((about e he).unique of).trans (of'.unique (about e' he'))
  rw [List.inj_on_of_nodup_map once he he' same]

/-- Confirmed decisions have evidence that is there when the call returns exactly if all of their
rows were fully checked. -/
theorem adjudicateSuite_evidenced {paths : Path × Path}
    (accepted : (adjudicateSuite decode suiteDir decisionsPath).Returns t paths t') :
    ∃ suite decisions, readSuite suiteDir t = .ok suite ∧
      readDecisions decode decisionsPath t = .ok decisions ∧
      ((∀ d ∈ decisions.decisions, d.decision = .confirmed →
          ∃ row ∈ suite.evaluations, RowOf d.key row ∧
            ∃ path, NamesEvidence suiteDir row path ∧ EvidenceOf suiteDir path d t') ↔
        ∀ d ∈ decisions.decisions, d.decision = .confirmed →
          ∀ row ∈ suite.evaluations, RowOf d.key row → FullyChecked suiteDir t row) := by
  obtain ⟨-, review, sha256, summary, done⟩ := adjudicateSuite_returns accepted
  obtain ⟨decisions, read, decided⟩ := reviewSuite_decisions done.reviewed
  have suiteRead := reviewSuite_suite done.reviewed
  have rows := readSuite_rows suiteRead
  refine ⟨review.suite, decisions, suiteRead, read, forall₂_congr fun d hd => imp_congr_right fun _ => ?_⟩
  obtain ⟨row, listed, rowOf, test, recorded⟩ := decideCases_row decided hd
  obtain ⟨key, ok⟩ := readProgress_mem rows listed
  obtain ⟨line, valid⟩ := ok.artifacts
  have only : ∀ row' ∈ review.suite.evaluations, RowOf d.key row' → row' = row :=
    fun row' listed' rowOf' => readProgress_rowOf rows listed' listed rowOf' rowOf
  constructor
  · rintro ⟨row', listed', rowOf', path, ⟨line', named⟩, evidence⟩ row'' listed'' rowOf''
    rw [only row'' listed'' rowOf'']
    rw [only row' listed' rowOf'] at named
    have kept : ∀ p, NamesEvidence suiteDir row p → ¬ Scratch suiteDir t p := by
      rintro p ⟨line'', named''⟩ scratch
      have gone := adjudicateSuite_erased accepted scratch
      obtain ⟨content, there⟩ := evidence.stored
      rw [← safeSuitePath_line named named'', there] at gone
      cases gone
    rcases validateEvaluationArtifacts_ok valid with ⟨absent, -⟩ | ⟨completed, generated, checked⟩
    · rw [absent] at named
      cases named
    · obtain ⟨path', sha256, differential, named', found⟩ := validateDifferential_ok checked
      cases safeSuitePath_line named named'
      obtain ⟨content, there⟩ := get?_of_readJson found.read
      have same := adjudicateSuite_kept accepted there (kept path ⟨line, named'⟩)
      have before := evidence.of_get? (there.trans same.symm)
      exact ⟨completed, generated, (found.evidenceOf rowOf test recorded).mp before, kept⟩
  · intro all
    have full := all row listed rowOf
    rcases validateEvaluationArtifacts_ok valid with ⟨-, other | untested⟩ | ⟨-, -, checked⟩
    · exact absurd full.completed other
    · rw [full.generated] at untested
      cases untested
    · obtain ⟨path, sha256, differential, named, found⟩ := validateDifferential_ok checked
      have before := (found.evidenceOf rowOf test recorded).mpr full.kill
      obtain ⟨content, there⟩ := before.stored
      have same := adjudicateSuite_kept accepted there (full.kept path ⟨line, named⟩)
      exact ⟨row, listed, rowOf, path, ⟨line, named⟩, before.of_get? (same.trans there.symm)⟩

def confirmedDecision : AdjudicationDecision where
  repetition := 1
  caseId := lit "M01"
  testSha256 := zeroDigest
  differentialSha256 := zeroDigest
  decision := .confirmed
  reason := lit "r"
  positive := by decide
  mutant := by decide
  reasoned := by decide

def confirmedCase : CaseDecision where
  repetition := 1
  caseId := lit "M01"
  testSha256 := zeroDigest
  differentialSha256 := zeroDigest
  decision := .confirmed
  reason := lit "r"

/-- No file says whether its case is a kill. -/
def Silent (t : FileTree) : Bool :=
  t.entries.all fun entry =>
    match readJson entry.1 t with
    | .ok value => (value.get? (lit "case_candidate_kill")).isNone
    | .error _ => true

theorem silent_no_evidence (h : Silent t = true) (path : Path) : ¬ EvidenceOf suiteDir path d t := by
  intro evidence
  obtain ⟨content, there⟩ := evidence.stored
  obtain ⟨differential, read, -, -, kill⟩ := evidence.content
  have silent := List.all_eq_true.mp h _ (Dict.mem_of_get? there)
  rw [read] at silent
  rw [Json.get, Option.isNone_iff_eq_none.mp silent] at kill
  exact absurd kill (by decide)

theorem silent_iff : Silent t = true ↔ ∀ path value, readJson path t = .ok value →
    value.get? (lit "case_candidate_kill") = none := by
  constructor
  · intro h path value read
    obtain ⟨content, there⟩ := get?_of_readJson read
    have silent := List.all_eq_true.mp h _ (Dict.mem_of_get? there)
    rw [read] at silent
    exact Option.isNone_iff_eq_none.mp silent
  · intro h
    refine List.all_eq_true.mpr fun entry _ => ?_
    cases read : readJson entry.1 t with
    | ok value => exact Option.isNone_iff_eq_none.mpr (h _ value read)
    | error _ => rfl

/-- Overlays do not say whether a case is a kill. -/
theorem adjudicateSuite_silent {paths : Path × Path}
    (h : (adjudicateSuite decode suiteDir decisionsPath).Returns t paths t') (there : t.get? suiteDir = some .dir)
    (fresh : ∀ name ∈ [adjudicationName, adjudicationName ++ lit ".tmp", adjudicatedName,
      adjudicatedName ++ lit ".tmp"], t.get? (suiteDir ++ [name]) = none) (silent : Silent t = true) :
    Silent t' = true := by
  simp only [List.forall_mem_cons] at fresh
  obtain ⟨adjudication, -, adjudicated, -⟩ := fresh
  obtain ⟨review, sha256, summary, middle, rfl, reviewed, -, built, first, second⟩ := adjudicateSuite_writes h
  rw [silent_iff] at silent ⊢
  intro path value read
  by_cases overlay : path = adjudicationPath suiteDir
  · subst overlay
    have kept := Returns.keeps (writeOnce_summary_keeps summary) second
    obtain ⟨_, file⟩ := get?_of_readJson read
    rcases writeOnce_stages (suiteAdjudication_payload_distinct _) first.mem_stages with same | ⟨-, written⟩
    · rw [kept, adjudicationPath, same, adjudication] at file
      cases file
    · cases read.symm.trans (written.of_get? kept).readJson
      simp [SuiteAdjudication.payload, List.lookup_cons]
  by_cases other : path = adjudicatedPath suiteDir
  · subst other
    have before := Returns.keeps (writeOnce_adjudication_keeps _) first
    obtain ⟨config, raw⟩ := readSuite_distinct (reviewSuite_suite reviewed)
    obtain ⟨_, file⟩ := get?_of_readJson read
    rcases writeOnce_stages (buildAdjudicatedSummary_distinct config raw built) second.mem_stages with
      same | ⟨-, written⟩
    · rw [adjudicatedPath, same, ← adjudicatedPath, before, adjudicatedPath, adjudicated] at file
      cases file
    · cases read.symm.trans written.readJson
      obtain ⟨_, -, -, -, -, -, -, quiet⟩ := buildAdjudicatedSummary_ok built
      exact quiet
  by_cases scratch : Scratch suiteDir t path
  · obtain ⟨_, file⟩ := get?_of_readJson read
    rw [adjudicateSuite_erased h scratch] at file
    cases file
  rw [Scratch, not_or] at scratch
  have still := writeOnce_directory first there
  have unscratched : path ≠ temporaryPath (adjudicationPath suiteDir) ∧ path ≠ temporaryPath (adjudicatedPath suiteDir) :=
    ⟨fun same => scratch.1 ⟨same, adjudication⟩, fun same => scratch.2 ⟨same, adjudicated⟩⟩
  have after := writeOnce_other second (isDir_of_get? still) other unscratched.2
  have before := writeOnce_other first (isDir_of_get? there) overlay unscratched.1
  refine silent path value ?_
  rw [readJson, readText, readBytes_congr (after.trans before)] at read
  exact read

theorem smallTree_silent : Silent (smallTree (unusableRow true) (smallDecisions [confirmedDecision])) = true := by
  rw [silent_iff]
  intro path value read
  obtain ⟨content, there⟩ := get?_of_readJson read
  obtain ⟨-, progress, -, decided⟩ :=
    smallTree_files (unusableRow true) (smallDecisions [confirmedDecision])
  have entries : (smallTree (unusableRow true) (smallDecisions [confirmedDecision])).entries.map Prod.fst =
      [smallDir, configPath smallDir, progressPath smallDir, summaryPath smallDir, smallDecisionsPath] := rfl
  have listed := List.mem_map_of_mem (f := Prod.fst) (Dict.mem_of_get? there)
  rw [entries] at listed
  simp only [List.mem_cons, List.not_mem_nil, or_false] at listed
  obtain rfl | rfl | rfl | rfl | rfl := listed
  · cases (smallTree_fresh _ _).1.symm.trans there
  · cases read.symm.trans smallTree_config
    simp [smallConfig, List.lookup_cons]
  · have nothing : ledgerText [] = [] := rfl
    rw [ledgerText_cons, nothing, rowText] at progress
    have row : readJson (progressPath smallDir) _ = .ok (unusableRow true) :=
      readJson_encoded (List.forall_mem_singleton.mpr rfl) (unusableRow_distinct true) (unusableRow_encodable true) progress
    cases read.symm.trans row
    simp [unusableRow, countFields, secondsFields, List.lookup_cons]
  · cases read.symm.trans (smallTree_summary true _)
    simp [smallSummary, List.lookup_cons]
  · rw [← List.append_nil (Json.encode _ _ _)] at decided
    have file : readJson smallDecisionsPath _ = .ok (smallDecisions [confirmedDecision]).json :=
      readJson_encoded (List.forall_mem_nil _) (by decide) (by decide) decided
    cases read.symm.trans file
    simp [AdjudicationDecisions.json, List.lookup_cons]

/-- A confirmed decision on a row without a usable answer is accepted. -/
theorem smallTree_confirmed : ∃ paths t',
    (adjudicateSuite (readerOf (smallDecisions [confirmedDecision])) smallDir
      smallDecisionsPath).Returns
      (smallTree (unusableRow true) (smallDecisions [confirmedDecision])) paths t' ∧
    Silent t' = true := by
  have decisions : (smallDecisions [confirmedDecision]).json.encodable = true := by decide
  have payload : (smallAdjudication (smallDecisions [confirmedDecision]) [confirmedCase]).payload.encodable = true := by
    decide
  have payloads : ∀ decision ∈ [confirmedCase], decision.payload.encodable = true :=
    List.forall_mem_singleton.mpr (by decide)
  obtain ⟨t', returned⟩ : ∃ t', (adjudicateSuite (readerOf (smallDecisions [confirmedDecision])) smallDir
      smallDecisionsPath).Returns (smallTree (unusableRow true) (smallDecisions [confirmedDecision]))
      (adjudicationPath smallDir, adjudicatedPath smallDir) t' :=
    smallTree_total decisions rfl rfl rfl payload payloads (by decide +kernel)
  obtain ⟨there, fresh⟩ := smallTree_fresh (unusableRow true) (smallDecisions [confirmedDecision])
  exact ⟨_, t', returned, adjudicateSuite_silent returned there fresh smallTree_silent⟩

theorem adjudicateSuite_evidenced_small : ∃ t' suite decisions,
    readSuite smallDir (smallTree (unusableRow true) (smallDecisions [confirmedDecision])) =
        .ok suite ∧
      readDecisions (readerOf (smallDecisions [confirmedDecision])) smallDecisionsPath
        (smallTree (unusableRow true) (smallDecisions [confirmedDecision])) = .ok decisions ∧
      ((∀ d ∈ decisions.decisions, d.decision = .confirmed →
          ∃ row ∈ suite.evaluations, RowOf d.key row ∧
            ∃ path, NamesEvidence smallDir row path ∧ EvidenceOf smallDir path d t') ↔
        ∀ d ∈ decisions.decisions, d.decision = .confirmed →
          ∀ row ∈ suite.evaluations, RowOf d.key row → FullyChecked smallDir
            (smallTree (unusableRow true) (smallDecisions [confirmedDecision])) row) := by
  obtain ⟨paths, t', returned, -⟩ := smallTree_confirmed
  obtain ⟨suite, decisions, read⟩ := adjudicateSuite_evidenced returned
  exact ⟨t', suite, decisions, read⟩

/-- A kill is confirmed although no file is evidence of it. -/
theorem adjudicateSuite_unevidenced : ∃ paths t' decisions,
    (adjudicateSuite (readerOf (smallDecisions [confirmedDecision])) smallDir
      smallDecisionsPath).Returns
      (smallTree (unusableRow true) (smallDecisions [confirmedDecision])) paths t' ∧
    readDecisions (readerOf (smallDecisions [confirmedDecision])) smallDecisionsPath
      (smallTree (unusableRow true) (smallDecisions [confirmedDecision])) = .ok decisions ∧
    ∃ d ∈ decisions.decisions, d.decision = .confirmed ∧
      ∀ path, ¬ EvidenceOf smallDir path d t' := by
  obtain ⟨paths, t', returned, silent⟩ := smallTree_confirmed
  obtain ⟨-, review, sha256, summary, done⟩ := adjudicateSuite_returns returned
  obtain ⟨decisions, read, -⟩ := reviewSuite_decisions done.reviewed
  refine ⟨paths, t', decisions, returned, read, ?_⟩
  have same : decisions = smallDecisions [confirmedDecision] := by
    unfold readDecisions readerOf at read
    split at read
    · cases read
    · cases read
    · split at read
      next found hf =>
        cases read
        split at hf
        · exact (Option.some.inj hf).symm
        · cases hf
      next => cases read
  rw [same]
  exact ⟨confirmedDecision, List.mem_cons_self, rfl, silent_no_evidence silent⟩

end Confirmed

end EdgecaseForge

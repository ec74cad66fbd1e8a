import EdgecaseForge.CaseLedger
import Mathlib.Data.List.TakeWhile

namespace EdgecaseForge

open Text

section Schedule

variable {repetitions : Nat} {selectedCases : List Str} {key : CaseKey}

theorem mem_schedule : key ∈ schedule repetitions selectedCases ↔
    (1 ≤ key.repetition ∧ key.repetition ≤ repetitions) ∧ key.caseId ∈ selectedCases := by
  simp only [schedule, List.mem_flatMap, List.mem_range'_1, List.mem_map]
  constructor
  · rintro ⟨repetition, ⟨first, last⟩, caseId, listed, rfl⟩
    exact ⟨⟨first, by dsimp only; omega⟩, listed⟩
  · rintro ⟨⟨first, last⟩, listed⟩
    exact ⟨key.repetition, ⟨first, by omega⟩, key.caseId, listed, rfl⟩

theorem nodup_schedule (h : selectedCases.Nodup) : (schedule repetitions selectedCases).Nodup := by
  refine List.nodup_flatMap.mpr ⟨fun repetition _ => ?_, ?_⟩
  · exact h.map fun a b he => congrArg CaseKey.caseId he
  · refine (List.nodup_range' (s := 1)).imp fun {a b} differ => ?_
    rw [Function.onFun, List.disjoint_left]
    intro key ha hb
    obtain ⟨_, -, rfl⟩ := List.mem_map.mp ha
    obtain ⟨_, -, he⟩ := List.mem_map.mp hb
    exact differ (congrArg CaseKey.repetition he).symm

end Schedule

section Lines

variable {context : ProgressContext} {t : FileTree} {row : Json} {seen : List CaseKey} {line : Nat}

/-- A row of the ledger as one line, without its line feed. -/
def rowText (row : Json) : Str :=
  Json.encode Json.compact 0 row

def ledgerText (rows : List Json) : Str :=
  (rows.map rowText).flatMap fun line => line ++ [lineFeed]

theorem rowText_head (h : row.isObj = true) : ∃ rest, rowText row = Json.openBrace :: rest := by
  cases row with
  | obj fields => cases fields <;> exact ⟨_, rfl⟩
  | _ => cases h

theorem strip_ne_nil {s : Str} {c : CodePoint} (hc : isSpace c = false) : strip (c :: s) ≠ [] := by
  have left : lstrip (c :: s) = c :: s := by simp [lstrip, hc]
  intro h
  rw [strip, left, rstrip, List.reverse_eq_nil_iff, List.dropWhile_eq_nil_iff] at h
  have space := h c (by simp)
  rw [hc] at space
  cases space

theorem rowText_strip (h : row.isObj = true) : (strip (rowText row)).isEmpty = false := by
  obtain ⟨rest, he⟩ := rowText_head h
  rw [he, List.isEmpty_eq_false_iff]
  exact strip_ne_nil (by decide)

theorem parseLine_rowText (hd : row.distinct = true) (hp : row.printable = true) :
    parseLine line (rowText row) = .ok row := by
  have decoded := jsonLoads_encode Json.compact_readable hd hp (List.forall_mem_nil _)
  rw [List.append_nil] at decoded
  rw [parseLine, rowText, decoded]

/-- A row that was cut at a line break is refused. -/
theorem parseLine_cut (isObj : row.isObj = true) (hd : row.distinct = true)
    (hp : row.printable = true) {p q : Str} (he : rowText row = p ++ q) (hpne : p ≠ [])
    (hq : q ≠ []) (value : Json) : parseLine line p ≠ .ok value := by
  cases row with
  | obj fields =>
    have cut := Json.loads_cut Json.compact_readable hd hp he hpne hq
    intro h
    unfold parseLine jsonLoads at h
    cases hl : Json.loads p with
    | ok v => exact cut v hl
    | error e =>
      rw [hl] at h
      dsimp only [Except.mapError] at h
      split at h
      next => cases h
      next => cases h
  | _ => cases isObj

end Lines

section Reading

variable {context : ProgressContext} {t : FileTree} {row : Json} {seen : List CaseKey} {line : Nat}
  {key : CaseKey}

/-- What the reader asks of a row besides the artifacts. -/
structure Listed (context : ProgressContext) (key : CaseKey) (row : Json) : Prop where
  isObj : row.isObj = true
  distinct : row.distinct = true
  printable : row.printable = true
  version : row.get (lit "evaluation_schema_version") = .str (lit "case-evaluation-v2")
  repetition : row.get (lit "repetition") = .int key.repetition
  caseId : row.get (lit "case_id") = .str key.caseId
  source : ∃ hash, context.sourceHashes.get? key.caseId = some hash ∧
    (row.get (lit "source_sha256")).pyEq hash = true

theorem pyEq_int (a b : Int) : (Json.int a).pyEq (.int b) = (a == b) := by
  simp [Json.pyEq, Json.rat?, beq_eq_decide]

theorem scheduledKey_ok (h : Listed context key row) (allowed : List CaseKey) :
    scheduledKey allowed row = .ok (if key ∈ allowed then some key else none) := by
  have same : (fun k : CaseKey => (Json.int key.repetition).pyEq (.int k.repetition) &&
      (Json.str key.caseId).pyEq (.str k.caseId)) = fun k => decide (k = key) := by
    funext k
    obtain ⟨repetition, caseId⟩ := k
    obtain ⟨repetition', caseId'⟩ := key
    rw [pyEq_int, pyEq_str, Bool.eq_iff_iff, Bool.and_eq_true, beq_iff_eq, beq_iff_eq,
      decide_eq_true_eq, CaseKey.mk.injEq, Int.ofNat_inj]
    exact ⟨fun ⟨first, second⟩ => ⟨first.symm, second.symm⟩,
      fun ⟨first, second⟩ => ⟨first.symm, second.symm⟩⟩
  have found : allowed.find? (fun k => decide (k = key)) =
      if key ∈ allowed then some key else none := by
    induction allowed with
    | nil => rfl
    | cons k allowed ih =>
      rw [List.find?_cons, ih]
      by_cases hk : k = key
      · simp [hk]
      · simp [hk, Ne.symm hk]
  unfold scheduledKey
  dsimp only
  rw [h.repetition, h.caseId, same, found]
  rfl

theorem checkKey_ok (h : Listed context key row) (allowed : List CaseKey) {k : CaseKey} :
    checkKey allowed seen row line = .ok k ↔ k = key ∧ key ∈ allowed ∧ key ∉ seen := by
  unfold checkKey
  rw [scheduledKey_ok h, Except.ok_bind]
  by_cases ha : key ∈ allowed
  · by_cases hs : key ∈ seen <;> simp [ha, hs, eq_comm]
  · simp [ha]

theorem checkSource_ok (h : Listed context key row) :
    checkSource context.sourceHashes row key line = .ok () := by
  obtain ⟨hash, found, same⟩ := h.source
  rw [checkSource, found]
  exact Except.check_eq_ok.mpr same

/-- The reader takes a row back, if it has its place in the schedule and its artifacts. -/
theorem readRow_rowText (h : Listed context key row) {k : CaseKey} {value : Json} :
    readRow context seen line (rowText row) t = .ok (k, value) ↔
      (k = key ∧ value = row) ∧ (key ∈ context.allowed ∧ key ∉ seen) ∧
        validateEvaluationArtifacts row context.suiteDir line t = .ok () := by
  unfold readRow
  rw [rowText_strip h.isObj, parseLine_rowText h.distinct h.printable]
  simp only [Bool.not_false, Except.check, if_true, Except.ok_bind, h.isObj, h.version, pyEq_str,
    beq_self_eq_true]
  rw [Except.bind_eq_ok]
  constructor
  · rintro ⟨k', hk, hrest⟩
    obtain ⟨rfl, place⟩ := (checkKey_ok h _).mp hk
    rw [checkSource_ok h, Except.ok_bind, Except.bind_eq_ok] at hrest
    obtain ⟨u, artifacts, hv⟩ := hrest
    cases hv
    exact ⟨⟨rfl, rfl⟩, place, artifacts⟩
  · rintro ⟨⟨rfl, rfl⟩, place, artifacts⟩
    refine ⟨k, (checkKey_ok h _).mpr ⟨rfl, place⟩, ?_⟩
    rw [checkSource_ok h, Except.ok_bind, artifacts]
    rfl

theorem readRows_cons {s : Str} {lines : List Str} {rows : List Json} :
    readRows context t seen line (s :: lines) = .ok rows ↔
      ∃ key row rest, readRow context seen line s t = .ok (key, row) ∧
        readRows context t (key :: seen) (line + 1) lines = .ok rest ∧ rows = row :: rest := by
  rw [readRows, Except.bind_eq_ok]
  constructor
  · rintro ⟨⟨key, row⟩, first, h⟩
    obtain ⟨rest, others, h⟩ := Except.bind_eq_ok.mp h
    exact ⟨key, row, rest, first, others, (Except.ok.inj h).symm⟩
  · rintro ⟨key, row, rest, first, others, rfl⟩
    exact ⟨(key, row), first, Except.bind_eq_ok.mpr ⟨rest, others, rfl⟩⟩

/-- Rows that have their place and their artifacts are read back in order. -/
theorem readRows_ok {entries : List (CaseKey × Json)}
    (listed : ∀ e ∈ entries, Listed context e.1 e.2)
    (allowed : ∀ e ∈ entries, e.1 ∈ context.allowed) (unseen : ∀ e ∈ entries, e.1 ∉ seen)
    (once : (entries.map Prod.fst).Nodup)
    (artifacts : ∀ e ∈ entries, ∀ line,
      validateEvaluationArtifacts e.2 context.suiteDir line t = .ok ()) :
    readRows context t seen line ((entries.map Prod.snd).map rowText) =
      .ok (entries.map Prod.snd) := by
  induction entries generalizing seen line with
  | nil => rfl
  | cons e entries ih =>
    obtain ⟨key, row⟩ := e
    have here : (key, row) ∈ (key, row) :: entries := List.mem_cons_self
    have there := fun e (he : e ∈ entries) => List.mem_cons_of_mem (key, row) he
    obtain ⟨fresh, others⟩ := List.nodup_cons.mp once
    have first : readRow context seen line (rowText row) t = .ok (key, row) :=
      (readRow_rowText (listed _ here)).mpr
        ⟨⟨rfl, rfl⟩, ⟨allowed _ here, unseen _ here⟩, artifacts _ here line⟩
    have later : ∀ e ∈ entries, e.1 ∉ key :: seen := by
      intro e he
      rw [List.mem_cons, not_or]
      exact ⟨fun same => fresh (List.mem_map.mpr ⟨e, he, same⟩), unseen e (there e he)⟩
    have rest : readRows context t (key :: seen) (line + 1) ((entries.map Prod.snd).map rowText) =
        .ok (entries.map Prod.snd) :=
      ih (fun e he => listed e (there e he)) (fun e he => allowed e (there e he)) later others
        (fun e he => artifacts e (there e he))
    exact readRows_cons.mpr ⟨key, row, _, first, rest, rfl⟩

/-- Rows that are read back had their place and their artifacts. -/
theorem readRows_inv {entries : List (CaseKey × Json)} {rows : List Json}
    (listed : ∀ e ∈ entries, Listed context e.1 e.2)
    (h : readRows context t seen line ((entries.map Prod.snd).map rowText) = .ok rows) :
    rows = entries.map Prod.snd ∧ ∀ e ∈ entries, e.1 ∈ context.allowed ∧
      ∃ line, validateEvaluationArtifacts e.2 context.suiteDir line t = .ok () := by
  induction entries generalizing seen line rows with
  | nil =>
    cases h
    exact ⟨rfl, by simp⟩
  | cons e entries ih =>
    obtain ⟨key, row⟩ := e
    obtain ⟨key', row', rest, first, others, rfl⟩ := readRows_cons.mp h
    obtain ⟨⟨rfl, rfl⟩, ⟨allowed, -⟩, artifacts⟩ :=
      (readRow_rowText (listed _ List.mem_cons_self)).mp first
    obtain ⟨rfl, accepted⟩ := ih (fun e he => listed e (List.mem_cons_of_mem _ he)) others
    refine ⟨rfl, fun e he => ?_⟩
    rcases List.mem_cons.mp he with rfl | he
    · exact ⟨allowed, line, artifacts⟩
    · exact accepted e he

theorem readRow_cut {p q : Str} (h : Listed context key row) (he : rowText row = p ++ q)
    (hpne : p ≠ []) (hq : q ≠ []) (value : CaseKey × Json) :
    readRow context seen line p t ≠ .ok value := by
  intro hr
  obtain ⟨_, _, hr⟩ := Except.bind_eq_ok.mp hr
  obtain ⟨parsed, hp, _⟩ := Except.bind_eq_ok.mp hr
  exact parseLine_cut h.isObj h.distinct h.printable he hpne hq parsed hp

theorem ledgerText_cons (row : Json) (rows : List Json) :
    ledgerText (row :: rows) = rowText row ++ lineFeed :: ledgerText rows := by
  simp [ledgerText]

theorem exists_break {s : Str} (h : ¬ ∀ c ∈ s, isLineBreak c = false) :
    ∃ p c q, s = p ++ c :: q ∧ (∀ d ∈ p, isLineBreak d = false) ∧ isLineBreak c = true := by
  induction s with
  | nil => simp at h
  | cons d s ih =>
    by_cases hd : isLineBreak d = true
    · exact ⟨[], d, s, rfl, by simp, hd⟩
    · have rest : ¬ ∀ c ∈ s, isLineBreak c = false := fun hs =>
        h (List.forall_mem_cons.mpr ⟨by simpa using hd, hs⟩)
      obtain ⟨p, c, q, rfl, plain, hc⟩ := ih rest
      exact ⟨d :: p, c, q, rfl, List.forall_mem_cons.mpr ⟨by simpa using hd, plain⟩, hc⟩

theorem splitLines_ledgerText_cons (h : row.LineSafe) (rows : List Json) :
    splitLines (ledgerText (row :: rows)) = rowText row :: splitLines (ledgerText rows) := by
  rw [ledgerText_cons]
  exact splitLines_break ((Json.lineSafe_iff row 0).mp h) isLineBreak_lineFeed (by decide) _

theorem splitLines_ledgerText {rows : List Json} (h : ∀ row ∈ rows, row.LineSafe) :
    splitLines (ledgerText rows) = rows.map rowText := by
  induction rows with
  | nil => rfl
  | cons row rows ih =>
    rw [splitLines_ledgerText_cons (h row List.mem_cons_self),
      ih fun r hr => h r (List.mem_cons_of_mem row hr), List.map_cons]

/-- A ledger that is read holds no row that broke its line. -/
theorem readRows_lineSafe {entries : List (CaseKey × Json)} {rows : List Json}
    (listed : ∀ e ∈ entries, Listed context e.1 e.2)
    (h : readRows context t seen line (splitLines (ledgerText (entries.map Prod.snd))) = .ok rows) :
    ∀ e ∈ entries, e.2.LineSafe := by
  induction entries generalizing seen line rows with
  | nil => simp
  | cons e entries ih =>
    obtain ⟨key, row⟩ := e
    have here := listed _ List.mem_cons_self
    by_cases safe : row.LineSafe
    · rw [List.map_cons, splitLines_ledgerText_cons safe] at h
      obtain ⟨_, _, rest, -, others, -⟩ := readRows_cons.mp h
      have after := ih (fun e he => listed e (List.mem_cons_of_mem _ he)) others
      exact List.forall_mem_cons.mpr ⟨safe, after⟩
    · exfalso
      rw [Json.lineSafe_iff row 0] at safe
      obtain ⟨p, c, q, he, plain, hc⟩ := exists_break safe
      obtain ⟨rest, brace⟩ := rowText_head here.isObj
      have some : p ≠ [] := by
        rintro rfl
        have same : Json.openBrace :: rest = c :: q := brace.symm.trans he
        cases same
        exact absurd hc (by decide)
      have text : rowText row = p ++ c :: q := he
      have hne : c ≠ carriageReturn := Json.lineBreak_ne_carriageReturn
        (show c ∈ rowText row by rw [text]; simp)
      rw [List.map_cons, ledgerText_cons, text, List.append_assoc, List.cons_append, splitLines_break plain hc hne] at h
      obtain ⟨_, _, _, first, -⟩ := readRows_cons.mp h
      exact readRow_cut here he some (List.cons_ne_nil c q) _ first

end Reading

end EdgecaseForge

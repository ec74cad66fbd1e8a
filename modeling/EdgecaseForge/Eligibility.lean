import EdgecaseForge.FrozenBenchmark
import EdgecaseForge.OverlayRuns

namespace EdgecaseForge

open Text Effect Program

/-- The ledger and the configuration of a suite show nothing against an official score. -/
structure Unblocked (suite : RawSuite) : Prop where
  everyCase : suite.config.selectedCases = caseIds
  integrity : ∀ row ∈ suite.evaluations, (row.get (lit "integrity_error_count")).truthy = false
  infrastructure : ∀ row ∈ suite.evaluations,
    (row.get (lit "evaluator_infrastructure_error_count")).truthy = false
  available : ((suite.config.frozen.get (lit "git_state")).get (lit "available")).truthy = true
  clean : ((suite.config.frozen.get (lit "git_state")).get (lit "dirty")).truthy = false

/-- A summary has a blocker among its own that an adjudication does not lift. -/
def NamesBlocker (rawSummary : Json) : Prop :=
  ∃ items, iterate ((rawSummary.get? (lit "official_score_blockers")).getD (.list [])) = .ok items ∧
    ∃ blocker ∈ items, blocker.pyEq (.str (lit "pending_adjudication")) = false

section Eligible

variable {decode : DecisionReader} {suiteDir decisionsPath : Path} {t t' : FileTree}
  {rawSummary value : Json}

theorem pyEq_bool_iff {b : Bool} :
    value.pyEq (.bool b) = true ↔ value.rat? = some (if b then 1 else 0) := by
  cases value with
  | float x => cases x <;> simp [Json.pyEq, Json.rat?]
  | _ => simp [Json.pyEq, Json.rat?]

theorem pyEq_bool_true {b : Bool} (h : value.pyEq (.bool b) = true) :
    value.pyEq (.bool true) = true ↔ b = true := by
  rw [pyEq_bool_iff] at h ⊢
  rw [h]
  cases b <;> simp

theorem remainingBlockers_isEmpty {blockers : List Json}
    (h : remainingBlockers rawSummary = .ok blockers) :
    blockers.isEmpty = true ↔ ¬ NamesBlocker rawSummary := by
  obtain ⟨named, got, h⟩ := Except.bind_eq_ok.mp h
  obtain ⟨items, through, h⟩ := Except.bind_eq_ok.mp h
  cases h
  rw [dictGet_ok got] at through
  rw [List.isEmpty_iff, List.filter_eq_nil_iff, NamesBlocker]
  constructor
  · rintro none ⟨items', through', blocker, hb, other⟩
    rw [through] at through'
    cases through'
    exact none blocker hb (by rw [other, Bool.not_false])
  · intro none blocker hb kept
    exact none ⟨items, through, blocker, hb, by simpa using kept⟩

/-- The adjudicated summary that is left says that the score is official exactly if the raw summary
names no blocker but the adjudication. -/
theorem adjudicated_eligible {review : Review} {sha256 : Str} {summary : Json}
    (h : Adjudicated decode suiteDir decisionsPath t t' review sha256 summary) :
    ∃ existing, readJson (adjudicatedPath suiteDir) t' = .ok existing ∧
      ((existing.get (lit "official_score_eligible")).pyEq (.bool true) = true ↔
        ¬ NamesBlocker review.suite.rawSummary) := by
  obtain ⟨existing, read, equal⟩ := h.summary
  obtain ⟨found, -⟩ := readObject_ok read
  obtain ⟨blockers, left, eligible, -, -, -, isObj, -⟩ := buildAdjudicatedSummary_ok h.built
  obtain ⟨flag, there, same⟩ :=
    Json.get?_left_of_pyEq equal (readJson_distinct found) isObj eligible
  rw [Json.matchesEntry_iff (Or.inr rfl)] at same
  refine ⟨existing, found, ?_⟩
  rw [Json.get, there, Option.getD_some, pyEq_bool_true same, remainingBlockers_isEmpty left]

/-- What an accepted suite is called official on is verified exactly where its summary names a
blocker, or there is nothing to name. -/
theorem adjudicateSuite_eligible {paths : Path × Path}
    (accepted : (adjudicateSuite decode suiteDir decisionsPath).Returns t paths t') :
    ∃ suite summary, readSuite suiteDir t = .ok suite ∧
      readJson (adjudicatedPath suiteDir) t' = .ok summary ∧
      (((summary.get (lit "official_score_eligible")).pyEq (.bool true) = true → Unblocked suite) ↔
        NamesBlocker suite.rawSummary ∨ Unblocked suite) := by
  obtain ⟨-, review, sha256, built, done⟩ := adjudicateSuite_returns accepted
  obtain ⟨summary, found, eligible⟩ := adjudicated_eligible done
  refine ⟨review.suite, summary, reviewSuite_suite done.reviewed, found, ?_⟩
  rw [eligible]
  exact or_iff_not_imp_left.symm

theorem adjudicateSuite_eligible_small : ∃ t' suite summary,
    readSuite smallDir (smallTree (unusableRow false) (smallDecisions [])) = .ok suite ∧
      readJson (adjudicatedPath smallDir) t' = .ok summary ∧
      (((summary.get (lit "official_score_eligible")).pyEq (.bool true) = true → Unblocked suite) ↔
        NamesBlocker suite.rawSummary ∨ Unblocked suite) := by
  obtain ⟨paths, t', returned, -⟩ := smallTree_adjudicated
  obtain ⟨suite, summary, read⟩ := adjudicateSuite_eligible returned
  exact ⟨t', suite, summary, read⟩

/-- One case is enough for an official score, where the summary has no blockers at all. -/
theorem adjudicateSuite_subset_eligible : ∃ paths t' suite summary,
    (adjudicateSuite (readerOf (smallDecisions [])) smallDir smallDecisionsPath).Returns
      (smallTree (unusableRow false) (smallDecisions [])) paths t' ∧
    readSuite smallDir (smallTree (unusableRow false) (smallDecisions [])) = .ok suite ∧
    readJson (adjudicatedPath smallDir) t' = .ok summary ∧
    (summary.get (lit "official_score_eligible")).pyEq (.bool true) = true ∧ ¬ Unblocked suite := by
  obtain ⟨paths, t', returned, suite, read, noBlockers, one⟩ := smallTree_adjudicated
  obtain ⟨-, review, sha256, built, done⟩ := adjudicateSuite_returns returned
  obtain ⟨summary, found, eligible⟩ := adjudicated_eligible done
  have same : review.suite = suite :=
    Except.ok.inj ((reviewSuite_suite done.reviewed).symm.trans read)
  refine ⟨paths, t', suite, summary, returned, read, found, eligible.mpr ?_, ?_⟩
  · rw [same]
    rintro ⟨items, through, blocker, hb, -⟩
    rw [noBlockers] at through
    cases through
    cases hb
  · intro unblocked
    rw [unblocked.everyCase] at one
    cases one

end Eligible

end EdgecaseForge

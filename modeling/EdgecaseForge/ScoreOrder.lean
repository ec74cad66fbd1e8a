import EdgecaseForge.ScoredLedgers

namespace EdgecaseForge

open Text Binary64 Statistics

section Candidates

variable {α : Type} {repetitions : Nat} {selectedCases : List Str}
  (L : ScoredLedger repetitions selectedCases) (k : DigitTable)

namespace ScoredLedger

end ScoredLedger

end Candidates

section Decisions

variable {decisions : List AdjudicationDecision} {indexed : List (CaseKey × AdjudicationDecision)}
  {candidate : CaseKey × Json} {d : CaseDecision}

def CaseDecision.key (d : CaseDecision) : CaseKey :=
  ⟨d.repetition, d.caseId⟩

theorem indexDecisions_eq {acc : List (CaseKey × AdjudicationDecision)}
    (h : indexDecisions acc decisions = .ok indexed) :
    indexed = acc ++ decisions.map fun d => (d.key, d) := by
  induction decisions generalizing acc with
  | nil =>
    cases h
    simp
  | cons d decisions ih =>
    unfold indexDecisions at h
    split at h
    · cases h
    · rw [ih h]
      simp

variable {repetitions : Nat} {selectedCases : List Str}
  (L : ScoredLedger repetitions selectedCases) {ds : List CaseDecision}

def ScoredLedger.killed : List ScoredRow :=
  L.rows.filter (·.kill)

/-- Decisions on exactly the killed pairs, none of which is about the clean control. -/
structure Decided (ds : List CaseDecision) : Prop where
  keys : (ds.map CaseDecision.key).Perm (L.killed.map (·.key))
  mutants : ∀ d ∈ ds, d.caseId ≠ cleanControl

end Decisions

section Counts

variable {repetitions : Nat} {selectedCases : List Str}
  (L : ScoredLedger repetitions selectedCases) {decisions : List AdjudicationDecision}
  {ds : List CaseDecision}

namespace Decided

variable {L}

theorem mutant (h : Decided L ds) {e : ScoredRow} (he : e ∈ L.killed) : e.isMutant = true := by
  have listed : e.key ∈ ds.map CaseDecision.key :=
    h.keys.mem_iff.mpr (List.mem_map_of_mem he)
  obtain ⟨d, hd, same⟩ := List.mem_map.mp listed
  have other := h.mutants d hd
  have caseId : d.caseId = e.key.caseId := congrArg CaseKey.caseId same
  rw [caseId] at other
  exact decide_eq_true other

/-- The kills are those of the mutants. -/
theorem killed_mutants (h : Decided L ds) : L.mutants.filter (·.kill) = L.killed := by
  rw [ScoredLedger.mutants, List.filter_filter, ScoredLedger.killed]
  refine List.filter_congr fun e he => ?_
  cases hk : e.kill with
  | false => simp
  | true => simp [h.mutant (List.mem_filter.mpr ⟨he, hk⟩)]

theorem length_eq (h : Decided L ds) : ds.length = (L.mutants.filter (·.kill)).length := by
  have := h.keys.length_eq
  rwa [List.length_map, List.length_map, ← h.killed_mutants] at this

end Decided

end Counts

section Rationals

variable {repetitions : Nat} {selectedCases : List Str}
  (L : ScoredLedger repetitions selectedCases) {ds : List CaseDecision} (k : DigitTable)

/-- The score of so many kills. -/
def exactScore (selectedCases : List Str) (kills : Nat) : ℚ :=
  kills / (selectedMutants selectedCases).length

/-- The candidate score of a repetition of a complete ledger. -/
def ScoredLedger.score (repetition : Nat) : RepetitionScore ℚ where
  repetition := repetition
  complete := true
  evaluatedMutants := (L.mutantsIn repetition).length
  expectedMutants := (selectedMutants selectedCases).length
  candidateKills := L.kills repetition
  score := if selectedMutants selectedCases = [] then none
    else some (exactScore selectedCases (L.kills repetition))

variable {L}

variable (L)

end Rationals

end EdgecaseForge

import EdgecaseForge.Adjudications
import EdgecaseForge.LedgerText
import EdgecaseForge.ProgressAccepted

namespace EdgecaseForge

open Text Binary64 Statistics

section Values

variable {value : Json} {row : Json} {name : String}

theorem subscript_of_get? (h : row.get? (lit name) = some value) : subscript row name = .ok value := by
  cases row with
  | obj fields =>
    have found : fields.lookup (lit name) = some value := h
    simp only [subscript, found]
  | _ => cases h

theorem pyEq_int_iff {n : Int} : value.pyEq (.int n) = true ↔ value.rat? = some (n : ℚ) := by
  have rat : (Json.int n).rat? = some (n : ℚ) := rfl
  cases value with
  | null => simp [Json.pyEq, Json.rat?]
  | bool b => simp [Json.pyEq, Json.rat?]
  | int m => simp [Json.pyEq, Json.rat?]
  | float x => cases x <;> simp [Json.pyEq, Json.rat?]
  | str s => simp [Json.pyEq, Json.rat?]
  | list items => simp [Json.pyEq, Json.rat?]
  | obj fields => simp [Json.pyEq, Json.rat?]

end Values

/-- A row with the scheduled pair that it is about, and whether it is a kill. -/
structure ScoredRow where
  key : CaseKey
  row : Json
  kill : Bool
  repetition : ∃ value, row.get? (lit "repetition") = some value ∧
    value.pyEq (.int key.repetition) = true
  caseId : row.get? (lit "case_id") = some (.str key.caseId)
  isKill : row.get? (lit "candidate_kill") = some (.bool kill)

/-- Rows of distinct scheduled pairs. -/
structure ScoredLedger (repetitions : Nat) (selectedCases : List Str) where
  rows : List ScoredRow
  once : (rows.map (·.key)).Nodup
  scheduled : ∀ e ∈ rows, e.key ∈ schedule repetitions selectedCases
  selected : selectedCases.Nodup
  positive : 1 ≤ repetitions

namespace ScoredRow

variable (e : ScoredRow)

def isMutant : Bool :=
  e.key.caseId ≠ cleanControl

end ScoredRow

section Rows

variable {es : List ScoredRow} {check : Json → Except PyError Bool} {p : ScoredRow → Bool}

end Rows

section Spreads

/-- What a spread of rational numbers is. -/
structure IsSpread (values : List ℚ) (spread : Spread ℚ) : Prop where
  median : medianBy (· ≤ ·) (fun x y => (x + y) / 2) values = some spread.median
  least_mem : spread.least ∈ values
  least_le : ∀ x ∈ values, spread.least ≤ x
  greatest_mem : spread.greatest ∈ values
  le_greatest : ∀ x ∈ values, x ≤ spread.greatest

theorem IsSpread.bounds {values : List ℚ} {spread : Spread ℚ} (h : IsSpread values spread) :
    spread.least ≤ spread.median ∧ spread.median ≤ spread.greatest :=
  ⟨le_medianBy isMean_half h.median h.least_le, medianBy_le isMean_half h.median h.le_greatest⟩

end Spreads

namespace ScoredLedger

variable {repetitions : Nat} {selectedCases : List Str} (L : ScoredLedger repetitions selectedCases)

def observed : List (Option CaseKey) :=
  L.rows.map fun e => some e.key

def mutants : List ScoredRow :=
  L.rows.filter (·.isMutant)

def mutantsIn (repetition : Nat) : List ScoredRow :=
  L.mutants.filter fun e => e.key.repetition == repetition

/-- The kills of a repetition. -/
def kills (repetition : Nat) : Nat :=
  ((L.mutantsIn repetition).filter (·.kill)).length

end ScoredLedger

end EdgecaseForge

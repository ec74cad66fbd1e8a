import Mathlib.Algebra.Order.Field.Basic
import Mathlib.Data.List.Forall2
import Mathlib.Data.List.MinMax
import Mathlib.Data.List.Sort
import Mathlib.Tactic.Linarith

namespace Statistics

variable {α : Type*}

/-- The middle one of the sorted values, or the mean of the two in the middle. -/
def medianBy (le : α → α → Prop) [DecidableRel le] (mean : α → α → α) (xs : List α) : Option α :=
  let sorted := xs.insertionSort le
  if sorted.length % 2 = 1 then sorted[sorted.length / 2]?
  else do
    let a ← sorted[sorted.length / 2 - 1]?
    let b ← sorted[sorted.length / 2]?
    return mean a b

section Sorted

variable [LinearOrder α] {xs ys : List α}

end Sorted

section Median

variable [LinearOrder α] {mean : α → α → α} {xs ys : List α} {m n : α}

/-- A mean lies between its two terms, and grows with them. -/
structure IsMean (mean : α → α → α) : Prop where
  left : ∀ a b, a ≤ b → a ≤ mean a b
  right : ∀ a b, a ≤ b → mean a b ≤ b
  mono : ∀ a b c d, a ≤ c → b ≤ d → mean a b ≤ mean c d

/-- The two places in the middle, in order. -/
theorem medianBy_eq_some (h : medianBy (· ≤ ·) mean xs = some m) :
    let sorted := xs.insertionSort (· ≤ ·)
    (sorted.length % 2 = 1 ∧ sorted[sorted.length / 2]? = some m) ∨
      sorted.length % 2 = 0 ∧ ∃ a b, sorted[sorted.length / 2 - 1]? = some a ∧
        sorted[sorted.length / 2]? = some b ∧ m = mean a b := by
  unfold medianBy at h
  dsimp only at h ⊢
  split at h
  next odd => exact Or.inl ⟨odd, h⟩
  next odd =>
    obtain ⟨a, ha, h⟩ := Option.bind_eq_some_iff.mp h
    obtain ⟨b, hb, h⟩ := Option.bind_eq_some_iff.mp h
    cases h
    exact Or.inr ⟨by omega, a, b, ha, hb, rfl⟩

theorem mem_of_sorted {i : Nat} {a : α} (h : (xs.insertionSort (· ≤ ·))[i]? = some a) : a ∈ xs :=
  (List.mem_insertionSort _).mp (List.mem_of_getElem? h)

theorem sorted_le {i j : Nat} {a b : α} (hij : i ≤ j) (ha : (xs.insertionSort (· ≤ ·))[i]? = some a)
    (hb : (xs.insertionSort (· ≤ ·))[j]? = some b) : a ≤ b := by
  obtain ⟨hi, rfl⟩ := List.getElem?_eq_some_iff.mp ha
  obtain ⟨hj, rfl⟩ := List.getElem?_eq_some_iff.mp hb
  rcases hij.eq_or_lt with rfl | lt
  · exact le_refl _
  · exact List.pairwise_iff_getElem.mp (List.pairwise_insertionSort (· ≤ ·) xs) i j hi hj lt

/-- The median is no less than what all values are no less than. -/
theorem le_medianBy (hm : IsMean mean) (h : medianBy (· ≤ ·) mean xs = some m) {low : α}
    (all : ∀ x ∈ xs, low ≤ x) : low ≤ m := by
  rcases medianBy_eq_some h with ⟨-, hx⟩ | ⟨-, a, b, ha, hb, rfl⟩
  · exact all m (mem_of_sorted hx)
  · have hab := sorted_le (Nat.sub_le _ 1) ha hb
    exact (all a (mem_of_sorted ha)).trans (hm.left a b hab)

theorem medianBy_le (hm : IsMean mean) (h : medianBy (· ≤ ·) mean xs = some m) {high : α}
    (all : ∀ x ∈ xs, x ≤ high) : m ≤ high := by
  rcases medianBy_eq_some h with ⟨-, hx⟩ | ⟨-, a, b, ha, hb, rfl⟩
  · exact all m (mem_of_sorted hx)
  · have hab := sorted_le (Nat.sub_le _ 1) ha hb
    exact (hm.right a b hab).trans (all b (mem_of_sorted hb))

end Median

theorem isMean_half {K : Type*} [Field K] [LinearOrder K] [IsStrictOrderedRing K] :
    IsMean fun a b : K => (a + b) / 2 where
  left a b h := by linarith
  right a b h := by linarith
  mono a b c d hac hbd := by linarith

end Statistics

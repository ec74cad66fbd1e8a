import Mathlib.Algebra.BigOperators.Group.List.Basic
import Mathlib.Algebra.Ring.Nat
import Mathlib.Data.List.Infix

namespace Greedy

variable {α : Type*} (weight : α → Nat) (budget : Nat)

/-- The items before the first that exceeds the budget. -/
def takeWithin (total : Nat) : List α → List α
  | [] => []
  | x :: xs => if budget < total + weight x then [] else x :: takeWithin (total + weight x) xs

def load (xs : List α) : Nat :=
  (xs.map weight).sum

variable {weight budget} {total limit : Nat} {xs ys : List α}

@[simp] theorem load_nil : load weight ([] : List α) = 0 := rfl

@[simp] theorem load_cons (x : α) (xs : List α) :
    load weight (x :: xs) = weight x + load weight xs := by
  rw [load, load, List.map_cons, List.sum_cons]

theorem takeWithin_isPrefix (total : Nat) (xs : List α) : takeWithin weight budget total xs <+: xs := by
  induction xs generalizing total with
  | nil => exact List.prefix_refl _
  | cons x xs ih =>
    unfold takeWithin
    split
    · exact List.nil_prefix
    · exact (List.prefix_cons_inj x).mpr (ih _)

theorem load_takeWithin_le (h : total ≤ budget) (xs : List α) :
    total + load weight (takeWithin weight budget total xs) ≤ budget := by
  induction xs generalizing total with
  | nil => exact h
  | cons x xs ih =>
    unfold takeWithin
    split
    next => exact h
    next fits =>
      have := ih (Nat.le_of_not_lt fits)
      rw [load_cons]
      omega

/-- All leading runs within the budget are taken. -/
theorem isPrefix_takeWithin (hp : ys <+: xs) (fits : total + load weight ys ≤ budget) :
    ys <+: takeWithin weight budget total xs := by
  induction xs generalizing total ys with
  | nil => exact List.prefix_nil.mp hp ▸ List.nil_prefix
  | cons x xs ih =>
    cases ys with
    | nil => exact List.nil_prefix
    | cons y ys =>
      obtain ⟨rfl, tail⟩ := List.cons_prefix_cons.mp hp
      rw [load_cons] at fits
      unfold takeWithin
      rw [if_neg (by omega)]
      exact (List.prefix_cons_inj y).mpr (ih tail (by omega))

theorem load_append (xs ys : List α) : load weight (xs ++ ys) = load weight xs + load weight ys := by
  rw [load, load, load, List.map_append, List.sum_append]

/-- What is taken stays within a limit if and only if all runs within the budget do. -/
theorem load_takeWithin_le_iff (h : total ≤ budget) :
    total + load weight (takeWithin weight budget total xs) ≤ limit ↔
      ∀ ys, ys <+: xs → total + load weight ys ≤ budget → total + load weight ys ≤ limit := by
  constructor
  · intro within ys hp fits
    obtain ⟨rest, taken⟩ := isPrefix_takeWithin hp fits
    rw [← taken, load_append] at within
    omega
  · intro all
    exact all _ (takeWithin_isPrefix total xs) (load_takeWithin_le h xs)

theorem takeWithin_eq_nil (h : ∀ x ∈ xs, budget < total + weight x) :
    takeWithin weight budget total xs = [] := by
  cases xs with
  | nil => rfl
  | cons x xs => exact if_pos (h x List.mem_cons_self)

/-- In a sorted list, what must stand before a taken item is taken. -/
theorem mem_takeWithin_of_pairwise {le : α → α → Prop} (sorted : xs.Pairwise le) {x y : α}
    (hx : x ∈ takeWithin weight budget total xs) (hy : y ∈ xs) (before : ¬ le x y) :
    y ∈ takeWithin weight budget total xs := by
  have split := (takeWithin_isPrefix total xs : takeWithin weight budget total xs <+: xs)
  obtain ⟨rest, split⟩ := split
  rw [← split] at hy sorted
  rcases List.mem_append.mp hy with taken | left
  · exact taken
  · exact absurd ((List.pairwise_append.mp sorted).2.2 x hx y left) before

end Greedy

import Mathlib.Data.List.Infix

namespace Occurrences

variable {α : Type*} [DecidableEq α]

/-- What stands before and after the first occurrence of a part. -/
def cut (part : List α) : List α → Option (List α × List α)
  | [] => if part = [] then some ([], []) else none
  | c :: s =>
    if part <+: c :: s then some ([], (c :: s).drop part.length)
    else (cut part s).map fun sides => (c :: sides.1, sides.2)

/-- The occurrences from left to right that do not overlap. The first `skip` entries belong to
the occurrence before. -/
def countFrom (part : List α) : Nat → List α → Nat
  | _, [] => if part = [] then 1 else 0
  | 0, c :: s => if part <+: c :: s then 1 + countFrom part (part.length - 1) s else countFrom part 0 s
  | skip + 1, _ :: s => countFrom part skip s

def count (part s : List α) : Nat :=
  countFrom part 0 s

def replaceFirst (old new s : List α) : List α :=
  match cut old s with
  | some (before, after) => before ++ (new ++ after)
  | none => s

variable {part s before after : List α}

theorem cut_append (h : cut part s = some (before, after)) : s = before ++ (part ++ after) := by
  induction s generalizing before with
  | nil =>
    unfold cut at h
    split at h
    next empty =>
      cases h
      rw [empty]
      rfl
    next => cases h
  | cons c s ih =>
    unfold cut at h
    split at h
    next here =>
      cases h
      exact List.prefix_append_drop here
    next =>
      obtain ⟨⟨rest, _⟩, found, same⟩ := Option.map_eq_some_iff.mp h
      cases same
      rw [List.cons_append, ← ih found]

/-- A part is found exactly in the lists that have it. -/
theorem cut_eq_none : cut part s = none ↔ ¬ part <:+: s := by
  induction s with
  | nil => simp [cut]
  | cons c s ih =>
    rw [cut, List.infix_cons_iff]
    split
    next here => simp [here]
    next absent => simp [absent, ih]

/-- No occurrence starts before the one that is found. -/
theorem cut_first {left right : List α} (h : cut part s = some (before, after))
    (other : s = left ++ (part ++ right)) : before.length ≤ left.length := by
  induction s generalizing before left with
  | nil =>
    unfold cut at h
    split at h
    next => cases h; exact Nat.zero_le _
    next => cases h
  | cons c s ih =>
    unfold cut at h
    split at h
    next => cases h; exact Nat.zero_le _
    next absent =>
      obtain ⟨⟨rest, _⟩, found, same⟩ := Option.map_eq_some_iff.mp h
      cases same
      cases left with
      | nil =>
        rw [List.nil_append] at other
        exact absurd ⟨right, other.symm⟩ absent
      | cons d left =>
        rw [List.cons_append, List.cons.injEq] at other
        exact Nat.succ_le_succ (ih found other.2)

/-- A part is found where no occurrence starts before it. -/
theorem cut_unique {left right : List α} (h : cut part s = some (left, right))
    (whole : s = before ++ (part ++ after))
    (first : ∀ left right, s = left ++ (part ++ right) → before.length ≤ left.length) :
    left = before ∧ right = after := by
  have same : left.length = before.length :=
    Nat.le_antisymm (cut_first h whole) (first left right (cut_append h))
  have split := List.append_inj ((cut_append h).symm.trans whole) same
  exact ⟨split.1, List.append_cancel_left split.2⟩

/-- Nothing is found in what stands before the first occurrence. -/
theorem not_infix_before (filled : part ≠ []) (h : cut part s = some (before, after)) :
    ¬ part <:+: before := by
  rintro ⟨left, right, rfl⟩
  have whole := cut_append h
  have early := cut_first h (whole.trans (List.append_assoc _ _ _ |>.trans (List.append_assoc _ _ _)))
  have long := List.length_pos_iff.mpr filled
  simp only [List.length_append] at early
  omega

theorem countFrom_drop (skip : Nat) :
    countFrom part skip s = countFrom part 0 (s.drop skip) := by
  induction s generalizing skip with
  | nil => cases skip <;> rfl
  | cons c s ih =>
    cases skip with
    | zero => rfl
    | succ skip => exact ih skip

theorem count_of_none (filled : part ≠ []) (h : cut part s = none) : count part s = 0 := by
  induction s with
  | nil => rw [count, countFrom, if_neg filled]
  | cons c s ih =>
    rw [cut_eq_none, List.infix_cons_iff, not_or] at h
    rw [count, countFrom, if_neg h.1]
    exact ih (cut_eq_none.mpr h.2)

/-- The occurrences are the first one and those after it. -/
theorem count_of_some (filled : part ≠ []) (h : cut part s = some (before, after)) :
    count part s = 1 + count part after := by
  induction s generalizing before with
  | nil => simp [cut, filled] at h
  | cons c s ih =>
    unfold cut at h
    split at h
    next here =>
      cases h
      have drop : (c :: s).drop part.length = s.drop (part.length - 1) := by
        obtain ⟨k, hk⟩ := Nat.exists_eq_succ_of_ne_zero (List.length_pos_iff.mpr filled).ne'
        rw [hk]
        rfl
      rw [count, countFrom, if_pos here, countFrom_drop, count, drop]
    next absent =>
      obtain ⟨⟨rest, _⟩, found, same⟩ := Option.map_eq_some_iff.mp h
      cases same
      rw [count, countFrom, if_neg absent]
      exact ih found

theorem count_nil (s : List α) : count [] s = s.length + 1 := by
  induction s with
  | nil => rfl
  | cons c s ih =>
    rw [count, countFrom, if_pos List.nil_prefix, List.length_cons]
    exact (congrArg (1 + ·) ih).trans (Nat.add_comm _ _)

theorem count_eq_zero (filled : part ≠ []) : count part s = 0 ↔ ¬ part <:+: s := by
  constructor
  · intro none
    rw [← cut_eq_none]
    cases found : cut part s with
    | none => rfl
    | some sides =>
      rw [count_of_some filled found] at none
      omega
  · intro absent
    exact count_of_none filled (cut_eq_none.mpr absent)

/-- A part that is counted once is found, and not again after where it is found. -/
theorem count_eq_one (filled : part ≠ []) : count part s = 1 ↔
    ∃ before after, cut part s = some (before, after) ∧ ¬ part <:+: after := by
  constructor
  · intro once
    cases found : cut part s with
    | none =>
      rw [count_of_none filled found] at once
      cases once
    | some sides =>
      rw [count_of_some filled found] at once
      exact ⟨sides.1, sides.2, rfl, (count_eq_zero filled).mp (by omega)⟩
  · rintro ⟨before, after, found, absent⟩
    rw [count_of_some filled found, (count_eq_zero filled).mpr absent]

theorem replaceFirst_of_cut {new : List α} (h : cut part s = some (before, after)) :
    replaceFirst part new s = before ++ (new ++ after) := by
  rw [replaceFirst, h]

end Occurrences

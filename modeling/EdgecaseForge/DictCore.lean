import Mathlib.Algebra.BigOperators.Group.List.Basic
import Mathlib.Data.List.Nodup
import Mathlib.Tactic.Abel

/-- An insertion-ordered dictionary: assignment replaces in place or appends. -/
structure Dict (κ : Type*) (ν : Type*) where
  entries : List (κ × ν)
  nodup : (entries.map Prod.fst).Nodup

namespace Dict

variable {κ ν : Type*}

def empty : Dict κ ν :=
  ⟨[], List.nodup_nil⟩

def keys (d : Dict κ ν) : List κ :=
  d.entries.map Prod.fst

def values (d : Dict κ ν) : List ν :=
  d.entries.map Prod.snd

def size (d : Dict κ ν) : Nat :=
  d.entries.length

section Lookup

variable [DecidableEq κ]

theorem lookup_cons_if (e : κ × ν) (rest : List (κ × ν)) (j : κ) :
    (e :: rest).lookup j = if j = e.1 then some e.2 else rest.lookup j := by
  obtain ⟨k, v⟩ := e
  by_cases h : j = k
  · simp [h]
  · simp [List.lookup_cons, h, beq_eq_false_iff_ne.mpr h]

theorem lookup_isSome_iff_mem_keys {xs : List (κ × ν)} {k : κ} :
    (xs.lookup k).isSome ↔ k ∈ xs.map Prod.fst := by
  induction xs with
  | nil => simp
  | cons e rest ih =>
    rw [lookup_cons_if, List.map_cons, List.mem_cons, ← ih]
    by_cases he : k = e.1 <;> simp [he]

theorem lookup_append_new {xs : List (κ × ν)} {k j : κ} {v : ν} (hk : k ∉ xs.map Prod.fst) :
    (xs ++ [(k, v)]).lookup j = if j = k then some v else xs.lookup j := by
  induction xs with
  | nil => simp [lookup_cons_if]
  | cons e rest ih =>
    simp only [List.map_cons, List.mem_cons, not_or] at hk
    rw [List.cons_append, lookup_cons_if, lookup_cons_if, ih hk.2]
    by_cases hj : j = e.1
    · simp [hj, Ne.symm hk.1]
    · simp [hj]

theorem replace_absent {xs : List (κ × ν)} {k : κ} {v : ν} (hk : k ∉ xs.map Prod.fst) :
    (xs.map fun e => if e.1 = k then (k, v) else e) = xs := by
  refine (List.map_congr_left ?_).trans (List.map_id xs)
  intro x hx
  have hne : x.1 ≠ k := fun h => hk (h ▸ List.mem_map_of_mem hx)
  simp [hne]

theorem lookup_replace {xs : List (κ × ν)} {k j : κ} {v : ν} (hk : k ∈ xs.map Prod.fst) :
    (xs.map fun e => if e.1 = k then (k, v) else e).lookup j =
      if j = k then some v else xs.lookup j := by
  induction xs with
  | nil => simp at hk
  | cons e rest ih =>
    rw [List.map_cons, lookup_cons_if, lookup_cons_if]
    by_cases hr : k ∈ rest.map Prod.fst
    · rw [ih hr]
      by_cases he : e.1 = k
      · by_cases hj : j = k <;> simp [he, hj]
      · by_cases hj : j = k
        · simp [he, hj, Ne.symm he]
        · simp [he, hj]
    · have he : e.1 = k := by
        simpa [hr, eq_comm] using hk
      rw [replace_absent hr]
      by_cases hj : j = k <;> simp [he, hj]

theorem keys_replace {xs : List (κ × ν)} {k : κ} {v : ν} :
    (xs.map fun e => if e.1 = k then (k, v) else e).map Prod.fst = xs.map Prod.fst := by
  rw [List.map_map]
  apply List.map_congr_left
  intro e _
  by_cases he : e.1 = k <;> simp [he]

def get? (d : Dict κ ν) (k : κ) : Option ν :=
  d.entries.lookup k

def set (d : Dict κ ν) (k : κ) (v : ν) : Dict κ ν :=
  if h : k ∈ d.keys then
    ⟨d.entries.map fun e => if e.1 = k then (k, v) else e, by rw [keys_replace]; exact d.nodup⟩
  else
    ⟨d.entries ++ [(k, v)], by
      rw [List.map_append]
      refine List.nodup_append.mpr ⟨d.nodup, List.nodup_singleton _, ?_⟩
      rintro a ha b hb rfl
      have hk : a = k := by simpa using hb
      exact h (hk ▸ ha)⟩

theorem get?_isSome_iff {d : Dict κ ν} {k : κ} : (d.get? k).isSome ↔ k ∈ d.keys :=
  lookup_isSome_iff_mem_keys

theorem get?_eq_none_iff {d : Dict κ ν} {k : κ} : d.get? k = none ↔ k ∉ d.keys := by
  rw [← get?_isSome_iff]
  cases d.get? k <;> simp

theorem mem_keys_of_get? {d : Dict κ ν} {k : κ} {v : ν} (h : d.get? k = some v) : k ∈ d.keys :=
  get?_isSome_iff.mp (by simp [h])

@[simp] theorem get?_empty (k : κ) : (empty : Dict κ ν).get? k = none := rfl

theorem get?_set (d : Dict κ ν) (k j : κ) (v : ν) :
    (d.set k v).get? j = if j = k then some v else d.get? j := by
  unfold set
  split
  next h => exact lookup_replace h
  next h => exact lookup_append_new h

@[simp] theorem get?_set_self (d : Dict κ ν) (k : κ) (v : ν) : (d.set k v).get? k = some v := by
  simp [get?_set]

theorem get?_set_ne {d : Dict κ ν} {k j : κ} {v : ν} (h : j ≠ k) :
    (d.set k v).get? j = d.get? j := by
  simp [get?_set, h]

theorem entries_set_new {d : Dict κ ν} {k : κ} {v : ν} (h : d.get? k = none) :
    (d.set k v).entries = d.entries ++ [(k, v)] := by
  simp [set, get?_eq_none_iff.mp h]

theorem size_set_new {d : Dict κ ν} {k : κ} {v : ν} (h : d.get? k = none) :
    (d.set k v).size = d.size + 1 := by
  simp [size, entries_set_new h]

theorem keys_set_old {d : Dict κ ν} {k : κ} {v w : ν} (h : d.get? k = some w) :
    (d.set k v).keys = d.keys := by
  have hk : k ∈ d.keys := mem_keys_of_get? h
  unfold set
  rw [dif_pos hk]
  exact keys_replace

theorem get?_of_mem {d : Dict κ ν} {k : κ} {v : ν} (h : (k, v) ∈ d.entries) :
    d.get? k = some v := by
  obtain ⟨entries, nodup⟩ := d
  change entries.lookup k = some v
  induction entries with
  | nil => simp at h
  | cons e rest ih =>
    have hn := List.nodup_cons.mp nodup
    rw [lookup_cons_if]
    rcases List.mem_cons.mp h with he | he
    · simp [← he]
    · have hne : k ≠ e.1 := fun hk => hn.1 (hk ▸ List.mem_map_of_mem he)
      rw [if_neg hne]
      exact ih hn.2 he

theorem mem_of_get? {d : Dict κ ν} {k : κ} {v : ν} (h : d.get? k = some v) :
    (k, v) ∈ d.entries := by
  obtain ⟨⟨j, w⟩, he, hk⟩ := List.mem_map.mp (mem_keys_of_get? h)
  cases hk
  cases Option.some.inj (h.symm.trans (get?_of_mem he))
  exact he

def erase (d : Dict κ ν) (k : κ) : Dict κ ν :=
  ⟨d.entries.filter fun e => e.1 ≠ k, d.nodup.sublist (List.filter_sublist.map _)⟩

theorem lookup_filter_ne {xs : List (κ × ν)} {k j : κ} :
    (xs.filter fun e => decide (e.1 ≠ k)).lookup j = if j = k then none else xs.lookup j := by
  induction xs with
  | nil => simp
  | cons e rest ih =>
    by_cases he : e.1 = k
    · rw [List.filter_cons_of_neg (by simpa using he), ih, lookup_cons_if]
      by_cases hj : j = k <;> simp [he, hj]
    · rw [List.filter_cons_of_pos (by simpa using he), lookup_cons_if, lookup_cons_if, ih]
      by_cases hj : j = k
      · simp [hj, Ne.symm he]
      · simp [hj]

theorem get?_erase (d : Dict κ ν) (k j : κ) :
    (d.erase k).get? j = if j = k then none else d.get? j :=
  lookup_filter_ne

end Lookup

section Total

variable {γ : Type*} [AddCommGroup γ]

/-- The sum of a measure of the values. -/
def total (d : Dict κ ν) (f : ν → γ) : γ :=
  (d.values.map f).sum

@[simp] theorem total_empty (f : ν → γ) : (empty : Dict κ ν).total f = 0 := rfl

variable [DecidableEq κ]

theorem total_set_new {d : Dict κ ν} {k : κ} {v : ν} (f : ν → γ) (h : d.get? k = none) :
    (d.set k v).total f = d.total f + f v := by
  simp [total, values, entries_set_new h]

theorem sum_replace {xs : List (κ × ν)} {k : κ} {v w : ν} (f : ν → γ)
    (hn : (xs.map Prod.fst).Nodup) (h : xs.lookup k = some w) :
    ((xs.map fun e => if e.1 = k then (k, v) else e).map fun e => f e.2).sum =
      (xs.map fun e => f e.2).sum - f w + f v := by
  induction xs with
  | nil => simp at h
  | cons e rest ih =>
    have hn' := List.nodup_cons.mp hn
    rw [lookup_cons_if] at h
    by_cases he : e.1 = k
    · have hw : e.2 = w := by simpa [he] using h
      simp only [List.map_cons, he, if_true, replace_absent (he ▸ hn'.1), List.sum_cons, hw]
      abel
    · have hr : rest.lookup k = some w := by simpa [Ne.symm he] using h
      simp only [List.map_cons, he, if_false, List.sum_cons, ih hn'.2 hr]
      abel

/-- Overwriting an entry changes a sum by the difference of the two values. -/
theorem total_set_old {d : Dict κ ν} {k : κ} {v w : ν} (f : ν → γ) (h : d.get? k = some w) :
    (d.set k v).total f = d.total f - f w + f v := by
  have hk : k ∈ d.keys := mem_keys_of_get? h
  simp only [total, values, set, hk, dif_pos, List.map_map]
  rw [← Function.comp_assoc, ← List.map_map]
  exact sum_replace f d.nodup h

end Total

end Dict

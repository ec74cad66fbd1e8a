import EdgecaseForge.JsonDecoded
import Mathlib.Data.List.Perm.Subperm

namespace Json

open Text

/-- An entry of a container is taken for another one. -/
def matchesEntry (x y : Json) : Bool :=
  x.isNaN && y.isNaN || x.pyEq y

section Entries

variable {xs ys : List Json} {x y : Json}

theorem pyEqItems_eq_true :
    pyEqItems xs ys = true ↔ List.Forall₂ (fun x y => x.matchesEntry y = true) xs ys := by
  induction xs generalizing ys with
  | nil => cases ys <;> simp [pyEqItems]
  | cons x xs ih =>
    cases ys with
    | nil => simp [pyEqItems]
    | cons y ys => simp [pyEqItems, ih, matchesEntry]

theorem pyEqFields_eq_true {xs ys : List (Str × Json)} : pyEqFields xs ys = true ↔
    ∀ field ∈ xs, ∃ y, ys.lookup field.1 = some y ∧ field.2.matchesEntry y = true := by
  induction xs with
  | nil => simp [pyEqFields]
  | cons field xs ih =>
    obtain ⟨key, x⟩ := field
    rw [pyEqFields, Bool.and_eq_true, ih, List.forall_mem_cons]
    refine and_congr ?_ Iff.rfl
    cases ys.lookup key <;> simp [matchesEntry]

theorem matchesEntry_iff (h : x.isNaN = false ∨ y.isNaN = false) :
    x.matchesEntry y = x.pyEq y := by
  rcases h with h | h <;> simp [matchesEntry, h]

theorem isNaN_of_rat? {q : ℚ} (h : x.rat? = some q) : x.isNaN = false := by
  cases x with
  | float f => cases f <;> simp_all [rat?, isNaN]
  | _ => rfl

end Entries

section Reflexive

theorem lookup_of_mem {fields : List (Str × Json)} (h : (fields.map Prod.fst).Nodup)
    {field : Str × Json} (hm : field ∈ fields) : fields.lookup field.1 = some field.2 := by
  induction fields with
  | nil => cases hm
  | cons first fields ih =>
    obtain ⟨fresh, rest⟩ := List.nodup_cons.mp h
    rcases List.mem_cons.mp hm with rfl | hm
    · rw [List.lookup_cons, beq_self_eq_true]
    · have other : field.1 ≠ first.1 := fun same => fresh (same ▸ List.mem_map_of_mem hm)
      rw [List.lookup_cons, beq_eq_false_iff_ne.mpr other]
      exact ih rest hm

mutual

theorem matchesEntry_self : ∀ {j : Json}, j.distinct = true → j.matchesEntry j = true
  | .null, _ => by simp [matchesEntry, pyEq]
  | .bool b, _ => by simp [matchesEntry, pyEq, rat?]
  | .int n, _ => by simp [matchesEntry, pyEq, rat?]
  | .float f, _ => by cases f <;> simp [matchesEntry, pyEq, rat?, isNaN]
  | .str s, _ => by simp [matchesEntry, pyEq]
  | .list items, h => by
    have each := matchesItems_self (distinctItems_eq_true.mp h)
    simp only [matchesEntry, pyEq, each, Bool.or_true]
  | .obj fields, h => by
    obtain ⟨keys, values⟩ := Bool.and_eq_true_iff.mp h
    have each := matchesFields_self (distinctFields_eq_true.mp values)
    have all : pyEqFields fields fields = true := pyEqFields_eq_true.mpr fun field hf =>
      ⟨field.2, lookup_of_mem (of_decide_eq_true keys) hf, each field hf⟩
    simp only [matchesEntry, pyEq, all, beq_self_eq_true, Bool.and_true, Bool.or_true]

theorem matchesItems_self : ∀ {items : List Json}, (∀ x ∈ items, x.distinct = true) →
    pyEqItems items items = true
  | [], _ => rfl
  | x :: xs, h => by
    obtain ⟨first, rest⟩ := List.forall_mem_cons.mp h
    have head := matchesEntry_self first
    rw [matchesEntry] at head
    rw [pyEqItems, head, matchesItems_self rest, Bool.and_self]

theorem matchesFields_self : ∀ {fields : List (Str × Json)},
    (∀ field ∈ fields, field.2.distinct = true) →
    ∀ field ∈ fields, field.2.matchesEntry field.2 = true
  | [], _ => by simp
  | (key, x) :: xs, h => by
    obtain ⟨first, rest⟩ := List.forall_mem_cons.mp h
    exact List.forall_mem_cons.mpr ⟨matchesEntry_self first, matchesFields_self rest⟩

end

/-- A decoded value that is no NaN itself is equal to itself. -/
theorem pyEq_self {j : Json} (hd : j.distinct = true) (hn : j.isNaN = false) :
    j.pyEq j = true := by
  rw [← matchesEntry_iff (Or.inl hn)]
  exact matchesEntry_self hd

end Reflexive

section Objects

variable {a b : Json} {key : Str} {x y : Json}

theorem isObj_iff {j : Json} : j.isObj = true ↔ ∃ fields, j = .obj fields := by
  cases j <;> simp [isObj]

theorem get?_right_of_pyEq (h : a.pyEq b = true) (ha : a.isObj = true) (hx : a.get? key = some x) :
    ∃ y, b.get? key = some y ∧ x.matchesEntry y = true := by
  obtain ⟨xs, rfl⟩ := isObj_iff.mp ha
  cases b with
  | obj ys =>
    rw [pyEq, Bool.and_eq_true, pyEqFields_eq_true] at h
    obtain ⟨l, r, split, -⟩ := List.lookup_eq_some_iff.mp hx
    exact h.2 (key, x) (split ▸ by simp)
  | float f => cases f <;> simp [pyEq, rat?] at h
  | _ => simp [pyEq, rat?] at h

/-- The fields of an object are found in any object that is equal to it. -/
theorem get?_left_of_pyEq (h : a.pyEq b = true) (ha : a.distinct = true) (hb : b.isObj = true)
    (hy : b.get? key = some y) : ∃ x, a.get? key = some x ∧ x.matchesEntry y = true := by
  obtain ⟨ys, rfl⟩ := isObj_iff.mp hb
  cases a with
  | obj xs =>
    rw [pyEq, Bool.and_eq_true, pyEqFields_eq_true, beq_iff_eq] at h
    obtain ⟨keys, -⟩ := Bool.and_eq_true_iff.mp ha
    have once := of_decide_eq_true keys
    have found : ∀ k ∈ xs.map Prod.fst, k ∈ ys.map Prod.fst := by
      intro k hk
      obtain ⟨field, hf, rfl⟩ := List.mem_map.mp hk
      obtain ⟨value, hv, -⟩ := h.2 field hf
      obtain ⟨l, r, split, -⟩ := List.lookup_eq_some_iff.mp hv
      exact List.mem_map.mpr ⟨(field.1, value), split ▸ by simp, rfl⟩
    have perm : (xs.map Prod.fst).Perm (ys.map Prod.fst) :=
      (List.subperm_of_subset once found).perm_of_length_le (by simp [h.1])
    obtain ⟨l, r, split, -⟩ := List.lookup_eq_some_iff.mp hy
    have listed : key ∈ xs.map Prod.fst :=
      perm.mem_iff.mpr (List.mem_map.mpr ⟨(key, y), split ▸ by simp, rfl⟩)
    obtain ⟨field, hf, rfl⟩ := List.mem_map.mp listed
    obtain ⟨value, hv, same⟩ := h.2 field hf
    have there : ys.lookup field.1 = some y := hy
    rw [there] at hv
    cases hv
    exact ⟨field.2, lookup_of_mem once hf, same⟩
  | float f => cases f <;> simp [pyEq, rat?] at h
  | _ => simp [pyEq, rat?] at h

end Objects

section Displays

variable {fields fields' : List (String × Json)}

theorem lookup_getElem (h : (fields.map Prod.fst).Nodup) {i : Nat} (hi : i < fields.length) :
    fields.lookup (fields[i].1) = some fields[i].2 := by
  induction fields generalizing i with
  | nil => simp at hi
  | cons first fields ih =>
    obtain ⟨fresh, rest⟩ := List.nodup_cons.mp h
    cases i with
    | zero => rw [List.getElem_cons_zero, List.lookup_cons, beq_self_eq_true]
    | succ i =>
      have inside : i < fields.length := by simpa using hi
      have other : fields[i].1 ≠ first.1 := fun same =>
        fresh (same ▸ List.mem_map_of_mem (List.getElem_mem inside))
      rw [List.getElem_cons_succ, List.lookup_cons, beq_eq_false_iff_ne.mpr other]
      exact ih rest inside

/-- Equal displays with the same keys have equal values. -/
theorem values_of_pyEq (h : (object fields).pyEq (object fields') = true)
    (names : fields.map Prod.fst = fields'.map Prod.fst) (once : (fields.map Prod.fst).Nodup) :
    List.Forall₂ (fun a b => a.2.matchesEntry b.2 = true) fields fields' := by
  have length : fields.length = fields'.length := by simpa using congrArg List.length names
  refine List.forall₂_iff_get.mpr ⟨length, fun i hi hi' => ?_⟩
  have name : fields[i].1 = fields'[i].1 := by
    have both : (fields.map Prod.fst)[i]? = (fields'.map Prod.fst)[i]? := by rw [names]
    simpa [hi, hi'] using both
  have left : (object fields).get? (lit fields[i].1) = some fields[i].2 := by
    rw [get?_object, lookup_getElem once hi]
  have right : (object fields').get? (lit fields[i].1) = some fields'[i].2 := by
    rw [get?_object, name, lookup_getElem (names ▸ once) hi']
  obtain ⟨y, hy, same⟩ := get?_right_of_pyEq h (isObj_object fields) left
  rw [right] at hy
  cases hy
  exact same

end Displays

section Scalars

variable {value : Json}

theorem matchesEntry_str {s : Str} (h : value.matchesEntry (.str s) = true) : value = .str s := by
  cases value with
  | str s' => simpa [matchesEntry, isNaN, pyEq] using h
  | float f => cases f <;> simp [matchesEntry, isNaN, pyEq, rat?] at h
  | _ => simp [matchesEntry, isNaN, pyEq, rat?] at h

theorem str_matchesEntry {s : Str} (h : (str s).matchesEntry value = true) : value = .str s := by
  cases value <;> simp_all [matchesEntry, isNaN, pyEq, rat?]

theorem matchesEntry_list {xs ys : List Json} (h : (list xs).matchesEntry (list ys) = true) :
    List.Forall₂ (fun x y => x.matchesEntry y = true) xs ys := by
  rw [matchesEntry_iff (Or.inl rfl), pyEq] at h
  exact pyEqItems_eq_true.mp h

theorem matchesEntry_int {m n : Int} (h : (int m).matchesEntry (.int n) = true) : m = n := by
  simpa [matchesEntry, isNaN, pyEq, rat?] using h

end Scalars

end Json

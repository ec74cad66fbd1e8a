import Mathlib.Data.Finset.Card
import Mathlib.Data.List.Dedup

namespace Recent

variable {κ ν : Type*} {size : Nat} {k j : κ} {v w : ν} {history before after : List (κ × ν)}

/-- The values of the calls made last, at most `size` of them and the newest first, no key twice. -/
structure Cache (κ : Type*) (ν : Type*) (size : Nat) where
  entries : List (κ × ν)
  once : (entries.map Prod.fst).Nodup
  bounded : entries.length ≤ size

/-- The last call with a key that was called before. -/
theorem exists_last (called : k ∈ history.map Prod.fst) : ∃ before v after,
    history = before ++ (k, v) :: after ∧ k ∉ before.map Prod.fst := by
  obtain ⟨front, back, split, absent⟩ := List.eq_append_cons_of_mem called
  obtain ⟨before, others, rfl, rfl, second⟩ := List.map_eq_append_iff.mp split
  obtain ⟨⟨k', v⟩, after, rfl, same, -⟩ := List.map_eq_cons_iff.mp second
  cases same
  exact ⟨before, v, after, rfl, absent⟩

variable [DecidableEq κ]

/-- The newest entry of each key. -/
def recent : List (κ × ν) → List (κ × ν)
  | [] => []
  | call :: calls => call :: (recent calls).filter fun other => other.1 ≠ call.1

theorem mem_keys_filter {entries : List (κ × ν)} :
    j ∈ (entries.filter fun other => other.1 ≠ k).map Prod.fst ↔ j ∈ entries.map Prod.fst ∧ j ≠ k := by
  simp only [List.mem_map, List.mem_filter, decide_eq_true_eq]
  constructor
  · rintro ⟨entry, ⟨hm, other⟩, rfl⟩
    exact ⟨⟨entry, hm, rfl⟩, other⟩
  · rintro ⟨⟨entry, hm, rfl⟩, other⟩
    exact ⟨entry, ⟨hm, other⟩, rfl⟩

theorem nodup_keys_cons {entries : List (κ × ν)} (once : (entries.map Prod.fst).Nodup) (call : κ × ν) :
    ((call :: entries.filter fun other => other.1 ≠ call.1).map Prod.fst).Nodup := by
  rw [List.map_cons, List.nodup_cons]
  refine ⟨fun hm => (mem_keys_filter.mp hm).2 rfl, ?_⟩
  exact once.sublist (List.Sublist.map Prod.fst List.filter_sublist)

namespace Cache

def empty : Cache κ ν size where
  entries := []
  once := List.nodup_nil
  bounded := Nat.zero_le size

def get? (cache : Cache κ ν size) (k : κ) : Option ν :=
  cache.entries.lookup k

/-- An entry becomes the newest one, and the oldest gives way to it. -/
def touch (cache : Cache κ ν size) (k : κ) (v : ν) : Cache κ ν size where
  entries := ((k, v) :: cache.entries.filter fun other => other.1 ≠ k).take size
  once := (nodup_keys_cons cache.once (k, v)).sublist (List.Sublist.map Prod.fst (List.take_sublist size _))
  bounded := List.length_take_le size _

end Cache

section Recent

theorem nodup_recent (history : List (κ × ν)) : ((recent history).map Prod.fst).Nodup := by
  induction history with
  | nil => exact List.nodup_nil
  | cons call history ih => exact nodup_keys_cons ih call

theorem mem_keys_recent : j ∈ (recent history).map Prod.fst ↔ j ∈ history.map Prod.fst := by
  induction history with
  | nil => exact Iff.rfl
  | cons call history ih =>
    rw [recent, List.map_cons, List.mem_cons, mem_keys_filter, ih, List.map_cons, List.mem_cons]
    by_cases same : j = call.1
    · simp [same]
    · simp [same]

/-- As many entries as keys. -/
theorem length_recent (history : List (κ × ν)) :
    (recent history).length = (history.map Prod.fst).toFinset.card := by
  have same : ((recent history).map Prod.fst).toFinset = (history.map Prod.fst).toFinset := by
    ext j
    rw [List.mem_toFinset, List.mem_toFinset, mem_keys_recent]
  rw [← same, List.toFinset_card_of_nodup (nodup_recent history), List.length_map]

theorem filter_eq_self {entries : List (κ × ν)} (h : k ∉ entries.map Prod.fst) :
    (entries.filter fun other => other.1 ≠ k) = entries := by
  refine List.filter_eq_self.mpr fun entry hm => decide_eq_true ?_
  rintro rfl
  exact h (List.mem_map_of_mem hm)

/-- Where the last call with a key stands among the entries: after those of the calls since. -/
theorem recent_append (absent : k ∉ before.map Prod.fst) : ∃ rest,
    recent (before ++ (k, v) :: after) = recent before ++ (k, v) :: rest := by
  induction before with
  | nil => exact ⟨_, rfl⟩
  | cons call before ih =>
    rw [List.map_cons, List.mem_cons, not_or] at absent
    obtain ⟨rest, found⟩ := ih absent.2
    refine ⟨rest.filter fun other => other.1 ≠ call.1, ?_⟩
    rw [List.cons_append, recent, found, List.filter_append, List.filter_cons]
    simp [recent, absent.1]

/-- What is left of a list when a key is taken out of its start. -/
theorem take_filter {entries : List (κ × ν)} (once : (entries.map Prod.fst).Nodup) (n : Nat) :
    ((entries.take (n + 1)).filter fun other => other.1 ≠ k).take n =
      (entries.filter fun other => other.1 ≠ k).take n := by
  induction entries generalizing n with
  | nil => rw [List.take_nil]
  | cons entry entries ih =>
    rw [List.map_cons, List.nodup_cons] at once
    rw [List.take_succ_cons, List.filter_cons, List.filter_cons]
    by_cases same : entry.1 = k
    · subst same
      have absent : entry.1 ∉ (entries.take n).map Prod.fst := fun hm =>
        once.1 ((List.take_sublist n entries).map Prod.fst |>.subset hm)
      simp only [ne_eq, not_true_eq_false, decide_false, Bool.false_eq_true, if_false]
      rw [filter_eq_self absent, filter_eq_self once.1, List.take_take, Nat.min_self]
    · cases n with
      | zero => rw [List.take_zero, List.take_zero]
      | succ n => simp only [ne_eq, same, not_false_eq_true, decide_true, if_true, List.take_succ_cons, ih once.2]

end Recent

section Holds

variable {cache : Cache κ ν size}

/-- A cache holds what a history of calls, the newest first, has left in it. -/
def Holds (history : List (κ × ν)) (cache : Cache κ ν size) : Prop :=
  cache.entries = (recent history).take size

theorem Holds.empty : Holds [] (Cache.empty : Cache κ ν size) :=
  List.take_nil.symm

theorem Holds.touch (h : Holds history cache) (k : κ) (v : ν) : Holds ((k, v) :: history) (cache.touch k v) := by
  have left : (cache.touch k v).entries = ((k, v) :: cache.entries.filter fun other => other.1 ≠ k).take size := rfl
  rw [Holds, left, h, recent]
  cases size with
  | zero => rw [List.take_zero, List.take_zero]
  | succ n => rw [List.take_succ_cons, List.take_succ_cons, take_filter (nodup_recent history)]

theorem lookup_eq_some {entries : List (κ × ν)} (once : (entries.map Prod.fst).Nodup) :
    entries.lookup k = some v ↔ (k, v) ∈ entries := by
  induction entries with
  | nil => simp
  | cons entry entries ih =>
    rw [List.map_cons, List.nodup_cons] at once
    rw [List.lookup_cons, List.mem_cons]
    by_cases same : k = entry.1
    · subst same
      have absent : (entry.1, v) ∉ entries := fun hm => once.1 (List.mem_map.mpr ⟨_, hm, rfl⟩)
      simp [absent, Prod.ext_iff, eq_comm]
    · simp [beq_eq_false_iff_ne.mpr same, ih once.2, Prod.ext_iff, same]

/-- The last call with a key is held exactly if fewer than `size` keys were called since. -/
theorem Holds.get?_last (h : Holds (before ++ (k, v) :: after) cache) (absent : k ∉ before.map Prod.fst) :
    cache.get? k = some w ↔ w = v ∧ (before.map Prod.fst).toFinset.card < size := by
  have split : ∃ rest, recent (before ++ (k, v) :: after) = recent before ++ (k, v) :: rest := recent_append absent
  obtain ⟨rest, found⟩ := split
  have once := nodup_recent (before ++ (k, v) :: after)
  rw [Cache.get?, lookup_eq_some cache.once, h, ← length_recent]
  rw [found] at once ⊢
  have missing : k ∉ (recent before).map Prod.fst := fun hm => absent (mem_keys_recent.mp hm)
  rw [List.take_append, List.mem_append]
  have early : (k, w) ∉ (recent before).take size := fun hm =>
    missing (List.mem_map.mpr ⟨_, List.mem_of_mem_take hm, rfl⟩)
  rw [or_iff_right early]
  rw [List.map_append, List.map_cons, List.nodup_append, List.nodup_cons] at once
  cases hn : size - (recent before).length with
  | zero =>
    rw [List.take_zero]
    have full : ¬ (recent before).length < size := by omega
    simp [full]
  | succ n =>
    rw [List.take_succ_cons, List.mem_cons]
    have room : (recent before).length < size := by omega
    have later : (k, w) ∉ rest.take n := fun hm =>
      once.2.1.1 (List.mem_map.mpr ⟨_, List.mem_of_mem_take hm, rfl⟩)
    simp [later, room]

/-- A call is answered from the cache exactly if its key was called before, and fewer than `size` keys since. -/
theorem Holds.get?_iff (h : Holds history cache) : cache.get? k = some v ↔
    ∃ before after, history = before ++ (k, v) :: after ∧ k ∉ before.map Prod.fst ∧
      (before.map Prod.fst).toFinset.card < size := by
  constructor
  · intro found
    have hm : (k, v) ∈ (recent history).take size := by
      rwa [Cache.get?, lookup_eq_some cache.once, h] at found
    have called : k ∈ history.map Prod.fst :=
      mem_keys_recent.mp (List.mem_map.mpr ⟨_, List.mem_of_mem_take hm, rfl⟩)
    obtain ⟨before, w, after, rfl, absent⟩ := exists_last called
    obtain ⟨rfl, few⟩ := (h.get?_last absent).mp found
    exact ⟨before, after, rfl, absent, few⟩
  · rintro ⟨before, after, rfl, absent, few⟩
    exact (h.get?_last absent).mpr ⟨rfl, few⟩

end Holds

end Recent

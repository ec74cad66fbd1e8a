import Mathlib.Data.List.Infix
import Mathlib.Data.List.Nodup
import Mathlib.Logic.Relation

namespace BreadthFirst

variable {α κ : Type*} [BEq κ]

/-- The runs of a loop that takes its nodes from the front of a queue, passes over a node whose key
it has seen, and puts the neighbours of every other node at the end of the queue. -/
inductive Loop (key : α → κ) (next : α → List α) : List κ → List α → List α → Prop
  | done {seen : List κ} : Loop key next seen [] []
  | skip {seen : List κ} {a : α} {queue result : List α} : key a ∈ seen →
      Loop key next seen queue result → Loop key next seen (a :: queue) result
  | visit {seen : List κ} {a : α} {queue result : List α} : key a ∉ seen →
      Loop key next (key a :: seen)
        (queue ++ (next a).filter fun b => !(key a :: seen).contains (key b)) result →
      Loop key next seen (a :: queue) (a :: result)

/-- The paths with so many steps. -/
inductive ReachedIn (next : α → List α) (root : α) : Nat → α → Prop
  | refl : ReachedIn next root 0 root
  | step {n : Nat} {a b : α} : ReachedIn next root n a → b ∈ next a → ReachedIn next root (n + 1) b

def Reached (next : α → List α) (root a : α) : Prop :=
  ∃ n, ReachedIn next root n a

section Runs

variable {key : α → κ} {next : α → List α} {seen : List κ} {queue result : List α} {root : α}

theorem Loop.unique {other : List α} (h : Loop key next seen queue result)
    (h' : Loop key next seen queue other) : result = other := by
  induction h generalizing other with
  | done =>
    cases h'
    rfl
  | skip old _ ih =>
    cases h' with
    | skip _ h' => exact ih h'
    | visit new _ => exact absurd old new
  | visit new _ ih =>
    cases h' with
    | skip old _ => exact absurd old new
    | visit _ h' => rw [ih h']

theorem Loop.sound (h : Loop key next seen queue result)
    (reached : ∀ b ∈ queue, Reached next root b) : ∀ b ∈ result, Reached next root b := by
  induction h with
  | done => exact reached
  | skip _ _ ih => exact ih fun b hb => reached b (List.mem_cons_of_mem _ hb)
  | @visit seen a queue result _ _ ih =>
    have current := reached a List.mem_cons_self
    refine List.forall_mem_cons.mpr ⟨current, ih fun b hb => ?_⟩
    rcases List.mem_append.mp hb with hb | hb
    · exact reached b (List.mem_cons_of_mem _ hb)
    · obtain ⟨n, path⟩ := current
      exact ⟨n + 1, path.step (List.mem_filter.mp hb).1⟩

theorem Loop.head (h : Loop key next [] [root] result) : ∃ rest, result = root :: rest := by
  cases h with
  | skip old _ => cases old
  | visit _ _ => exact ⟨_, rfl⟩

end Runs

section Order

variable [LawfulBEq κ]

section EraseDups

variable {xs ys : List κ} {x : κ}

theorem nodup_eraseDups (xs : List κ) : xs.eraseDups.Nodup := by
  induction hn : xs.length using Nat.strongRecOn generalizing xs with
  | ind n ih =>
    cases xs with
    | nil => exact List.nodup_nil
    | cons x xs =>
      have shorter := List.length_filter_le (fun y => !y == x) xs
      rw [List.length_cons] at hn
      rw [List.eraseDups_cons]
      refine List.nodup_cons.mpr ⟨fun h => ?_, ih _ (by omega) _ rfl⟩
      have other := (List.mem_filter.mp (List.mem_eraseDups.mp h)).2
      simp at other

theorem eraseDups_isPrefix (h : xs <+: ys) : xs.eraseDups <+: ys.eraseDups := by
  obtain ⟨zs, rfl⟩ := h
  rw [List.eraseDups_append]
  exact List.prefix_append _ _

end EraseDups

section Loop

variable {key : α → κ} {next : α → List α} {seen : List κ} {queue result : List α} {root a : α}

/-- The nodes come in the order in which they enter the queue, each at its first place. -/
theorem Loop.keys (h : Loop key next seen queue result) :
    result.map key =
      (((queue ++ result.flatMap next).map key).filter fun k => !seen.contains k).eraseDups := by
  induction h with
  | done => rfl
  | @skip seen a queue result old _ ih =>
    rw [ih, List.cons_append, List.map_cons, List.filter_cons_of_neg (by simpa using old)]
  | @visit seen a queue result new _ ih =>
    have others : ∀ ks : List κ, (ks.filter fun k => !seen.contains k).filter (fun k => !k == key a) =
        ks.filter fun k => !(key a :: seen).contains k := by
      intro ks
      rw [List.filter_filter]
      refine List.filter_congr fun k _ => ?_
      rw [List.contains_cons, Bool.not_or]
    have again : (((next a).filter fun b => !(key a :: seen).contains (key b)).map key).filter
        (fun k => !(key a :: seen).contains k) =
          ((next a).map key).filter fun k => !(key a :: seen).contains k := by
      rw [List.filter_map, List.filter_map, List.filter_filter]
      congr 1
      exact List.filter_congr fun b _ => Bool.and_self _
    rw [List.map_cons, ih, List.cons_append, List.map_cons,
      List.filter_cons_of_pos (by simpa using new), List.eraseDups_cons, others]
    simp only [List.flatMap_cons, List.map_append, List.filter_append, again, List.append_assoc]

theorem Loop.nodup (h : Loop key next seen queue result) : (result.map key).Nodup := by
  rw [h.keys]
  exact nodup_eraseDups _

theorem Loop.root_keys (h : Loop key next [] [root] result) :
    result.map key = (key root :: (result.flatMap next).map key).eraseDups := by
  have keys := h.keys
  have all : ∀ ks : List κ, (ks.filter fun k => !([] : List κ).contains k) = ks := fun ks =>
    List.filter_eq_self.mpr fun _ _ => by simp
  rwa [all, List.singleton_append, List.map_cons] at keys

/-- What is reached by so many steps comes before everything else. -/
theorem Loop.levels (h : Loop key next [] [root] result)
    (inj : ∀ a b, Reached next root a → Reached next root b → key a = key b → a = b) (d : Nat) :
    ∃ level, level <+: result ∧ ∀ a, a ∈ level ↔ ∃ n ≤ d, ReachedIn next root n a := by
  induction d with
  | zero =>
    obtain ⟨rest, rfl⟩ := h.head
    refine ⟨[root], ⟨rest, rfl⟩, fun a => ?_⟩
    rw [List.mem_singleton]
    constructor
    · rintro rfl
      exact ⟨0, le_rfl, .refl⟩
    · rintro ⟨n, hn, path⟩
      cases Nat.le_zero.mp hn
      cases path
      rfl
  | succ d ih =>
    obtain ⟨level, hp, hl⟩ := ih
    have known : ∀ b ∈ result, Reached next root b := h.sound fun b hb => by
      rw [List.mem_singleton.mp hb]
      exact ⟨0, .refl⟩
    have front : (key root :: (level.flatMap next).map key).eraseDups <+: result.map key := by
      rw [h.root_keys]
      obtain ⟨rest, rfl⟩ := hp
      refine eraseDups_isPrefix ⟨(rest.flatMap next).map key, ?_⟩
      simp
    obtain ⟨wider, hw, keys⟩ : ∃ wider, wider <+: result ∧
        wider.map key = (key root :: (level.flatMap next).map key).eraseDups :=
      ⟨_, List.take_prefix _ _, by rw [List.map_take, ← List.prefix_iff_eq_take.mp front]⟩
    refine ⟨wider, hw, fun a => ?_⟩
    have keyed : ∀ {b}, Reached next root b →
        (b ∈ wider ↔ key b ∈ key root :: (level.flatMap next).map key) := by
      intro b hb
      have there : key b ∈ wider.map key ↔ key b ∈ key root :: (level.flatMap next).map key := by
        rw [keys, List.mem_eraseDups]
      rw [← there]
      constructor
      · exact fun hm => List.mem_map_of_mem hm
      · intro hm
        obtain ⟨c, hc, same⟩ := List.mem_map.mp hm
        rw [← inj c b (known c (hw.subset hc)) hb same]
        exact hc
    constructor
    · intro hm
      have ha := known a (hw.subset hm)
      rcases List.mem_cons.mp ((keyed ha).mp hm) with same | hm
      · rw [inj a root ha ⟨0, .refl⟩ same]
        exact ⟨0, Nat.zero_le _, .refl⟩
      · obtain ⟨b, hb, same⟩ := List.mem_map.mp hm
        obtain ⟨c, hc, hb⟩ := List.mem_flatMap.mp hb
        obtain ⟨n, hn, path⟩ := (hl c).mp hc
        rw [inj a b ha ⟨n + 1, path.step hb⟩ same.symm]
        exact ⟨n + 1, Nat.succ_le_succ hn, path.step hb⟩
    · rintro ⟨n, hn, path⟩
      refine (keyed ⟨n, path⟩).mpr ?_
      cases path with
      | refl => exact List.mem_cons_self
      | step path hb =>
        have before := (hl _).mpr ⟨_, Nat.le_of_succ_le_succ hn, path⟩
        exact List.mem_cons_of_mem _ (List.mem_map_of_mem (List.mem_flatMap.mpr ⟨_, before, hb⟩))

theorem Loop.mem_iff (h : Loop key next [] [root] result)
    (inj : ∀ a b, Reached next root a → Reached next root b → key a = key b → a = b) :
    a ∈ result ↔ Reached next root a := by
  constructor
  · refine h.sound (fun b hb => ?_) a
    rw [List.mem_singleton.mp hb]
    exact ⟨0, .refl⟩
  · rintro ⟨n, path⟩
    obtain ⟨level, hp, hl⟩ := h.levels inj n
    exact hp.subset ((hl a).mpr ⟨n, le_rfl, path⟩)

end Loop

end Order

end BreadthFirst

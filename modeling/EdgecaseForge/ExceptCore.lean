import Mathlib.Data.List.Forall2

namespace List.Forall₂

variable {α β : Type} {R : α → β → Prop} {xs : List α} {ys : List β}

theorem exists_of_mem_left {x : α} (h : Forall₂ R xs ys) (mem : x ∈ xs) : ∃ y ∈ ys, R x y := by
  induction h with
  | nil => cases mem
  | @cons first y xs ys here _ ih =>
    rcases mem_cons.mp mem with rfl | later
    · exact ⟨y, mem_cons_self, here⟩
    · obtain ⟨y', listed, there⟩ := ih later
      exact ⟨y', mem_cons_of_mem y listed, there⟩

theorem exists_of_mem_right {y : β} (h : Forall₂ R xs ys) (mem : y ∈ ys) : ∃ x ∈ xs, R x y :=
  h.flip.exists_of_mem_left mem

theorem imp_of_mem {S : α → β → Prop} (h : Forall₂ R xs ys) (step : ∀ x ∈ xs, ∀ y, R x y → S x y) :
    Forall₂ S xs ys := by
  rw [forall₂_iff_zip] at h ⊢
  exact ⟨h.1, fun {x y} mem => step x (of_mem_zip mem).1 y (h.2 mem)⟩

end List.Forall₂

namespace Except

variable {ε α β : Type}

/-- A sequence succeeds exactly if both of its parts do. -/
theorem bind_eq_ok {x : Except ε α} {f : α → Except ε β} {b : β} :
    (x >>= f) = .ok b ↔ ∃ a, x = .ok a ∧ f a = .ok b := by
  cases x with
  | error e => simp [bind, Except.bind]
  | ok a => simp [bind, Except.bind]

theorem map_eq_ok {x : Except ε α} {f : α → β} {b : β} :
    x.map f = .ok b ↔ ∃ a, x = .ok a ∧ f a = b := by
  cases x with
  | error e => simp [Except.map]
  | ok a => simp [Except.map]

theorem bind_eq_error {x : Except ε α} {f : α → Except ε β} {e : ε} :
    (x >>= f) = .error e ↔ x = .error e ∨ ∃ a, x = .ok a ∧ f a = .error e := by
  cases x with
  | error e => simp [bind, Except.bind]
  | ok a => simp [bind, Except.bind]

theorem mapError_map {ε' : Type} (x : Except ε α) (f : α → β) (g : ε → ε') :
    (x.map f).mapError g = (x.mapError g).map f := by
  cases x <;> rfl

@[simp] theorem ok_bind (a : α) (f : α → Except ε β) : (Except.ok a >>= f) = f a := rfl

@[simp] theorem error_bind (e : ε) (f : α → Except ε β) :
    ((Except.error e : Except ε α) >>= f) = .error e := rfl

theorem bind_congr_ok {x : Except ε α} {f g : α → Except ε β} (h : ∀ a, x = .ok a → f a = g a) :
    (x >>= f) = (x >>= g) := by
  cases x with
  | error e => rfl
  | ok a => exact h a rfl

/-- A list is mapped exactly if each of its items is. -/
theorem mapM_eq_ok {f : α → Except ε β} {xs : List α} {ys : List β} :
    xs.mapM f = .ok ys ↔ List.Forall₂ (fun x y => f x = .ok y) xs ys := by
  induction xs generalizing ys with
  | nil =>
    rw [List.mapM_nil, List.forall₂_nil_left_iff]
    constructor
    · intro h
      cases h
      rfl
    · rintro rfl
      rfl
  | cons x xs ih =>
    rw [List.mapM_cons, bind_eq_ok, List.forall₂_cons_left_iff]
    constructor
    · rintro ⟨y, hy, h⟩
      obtain ⟨rest, hrest, h⟩ := bind_eq_ok.mp h
      exact ⟨y, rest, hy, ih.mp hrest, (Except.ok.inj h).symm⟩
    · rintro ⟨y, rest, hy, hrest, rfl⟩
      exact ⟨y, hy, bind_eq_ok.mpr ⟨rest, ih.mpr hrest, rfl⟩⟩

theorem ok_of_mem_mapM {f : α → Except ε β} {xs : List α} {ys : List β} {x : α}
    (h : xs.mapM f = .ok ys) (hx : x ∈ xs) : ∃ y, f x = .ok y := by
  obtain ⟨y, -, hy⟩ := (mapM_eq_ok.mp h).exists_of_mem_left hx
  exact ⟨y, hy⟩

theorem mapM_congr {f g : α → Except ε β} {xs : List α} (h : ∀ x ∈ xs, f x = g x) :
    xs.mapM f = xs.mapM g := by
  induction xs with
  | nil => rfl
  | cons x xs ih =>
    obtain ⟨first, rest⟩ := List.forall_mem_cons.mp h
    rw [List.mapM_cons, List.mapM_cons, first, ih rest]

theorem error_of_mapM {f : α → Except ε β} {xs : List α} {e : ε} (h : xs.mapM f = .error e) :
    ∃ x ∈ xs, f x = .error e := by
  induction xs with
  | nil => cases h
  | cons x xs ih =>
    rw [List.mapM_cons] at h
    cases hx : f x with
    | error first =>
      rw [hx] at h
      cases h
      exact ⟨x, List.mem_cons_self, hx⟩
    | ok y =>
      rw [hx, ok_bind] at h
      cases hr : xs.mapM f with
      | error later =>
        rw [hr] at h
        cases h
        obtain ⟨x', mem, hx'⟩ := ih hr
        exact ⟨x', List.mem_cons_of_mem x mem, hx'⟩
      | ok rest =>
        rw [hr] at h
        cases h

section Entries

variable {κ : Type} {f : κ × α → Except ε β} {xs : List (κ × α)}

/-- The values of a dictionary are mapped, under the same keys. -/
theorem mapM_entry_eq_ok {ys : List (κ × β)} :
    (xs.mapM fun entry => (f entry).map fun y => (entry.1, y)) = .ok ys ↔
      List.Forall₂ (fun entry new => entry.1 = new.1 ∧ f entry = .ok new.2) xs ys := by
  have each (entry : κ × α) (new : κ × β) : ((f entry).map fun y => (entry.1, y)) = .ok new ↔
      entry.1 = new.1 ∧ f entry = .ok new.2 := by
    rw [map_eq_ok]
    constructor
    · rintro ⟨y, h, rfl⟩
      exact ⟨rfl, h⟩
    · rintro ⟨same, h⟩
      exact ⟨new.2, h, by rw [same]⟩
  simp only [mapM_eq_ok, each]

end Entries

/-- A check raises its error unless the condition holds. -/
def check (condition : Bool) (e : ε) : Except ε Unit :=
  if condition then .ok () else .error e

@[simp] theorem check_eq_ok {condition : Bool} {e : ε} {u : Unit} :
    check condition e = .ok u ↔ condition = true := by
  cases condition <;> simp [check]

end Except

import EdgecaseForge.TextCore

namespace Regex

open Text

/-- What a pattern takes from the front of a text: the ways to match in the order of preference,
each with its value and what is left of the text. -/
def Pattern (α : Type) : Type :=
  Str → List (α × Str)

variable {α β : Type}

instance : Monad Pattern where
  pure a := fun s => [(a, s)]
  bind m f := fun s => (m s).flatMap fun way => f way.1 way.2

/-- One code point of a class. -/
def char (p : CodePoint → Bool) : Pattern CodePoint
  | [] => []
  | c :: rest => if p c then [(c, rest)] else []

/-- `p*`, the longest run first. -/
def many (p : CodePoint → Bool) : Pattern Str
  | [] => [([], [])]
  | c :: rest =>
    if p c then (many p rest).map (fun way => (c :: way.1, way.2)) ++ [([], c :: rest)]
    else [([], c :: rest)]

/-- `p+`. -/
def many1 (p : CodePoint → Bool) : Pattern Str := do
  let c ← char p
  let run ← many p
  pure (c :: run)

def text (t : Str) : Pattern Unit :=
  fun s => if t <+: s then [((), s.drop t.length)] else []

def either (m n : Pattern α) : Pattern α :=
  fun s => m s ++ n s

/-- `(?:m)?`. -/
def optional (m : Pattern Unit) : Pattern Unit :=
  either m (pure ())

/-- `$` of a multi-line pattern. -/
def lineEnd : Pattern Unit :=
  fun s => if s = [] ∨ s.head? = some lineFeed then [((), s)] else []

def first (m : Pattern α) (s : Str) : Option (α × Str) :=
  (m s).head?

/-- Whether what was matched ends a line. -/
def endsLine (s rest : Str) : Bool :=
  (s.take (s.length - rest.length)).getLast? == some lineFeed

/-- `re.findall` of a pattern that begins with a multi-line `^` and matches no empty text. The flag
says whether the text begins a line; the fuel covers one step for each code point. -/
def findAllFrom (m : Pattern α) : Nat → Bool → Str → List α
  | 0, _, _ => []
  | _, _, [] => []
  | fuel + 1, true, c :: s =>
    match first m (c :: s) with
    | some (a, rest) => a :: findAllFrom m fuel (endsLine (c :: s) rest) rest
    | none => findAllFrom m fuel (c == lineFeed) s
  | fuel + 1, false, c :: s => findAllFrom m fuel (c == lineFeed) s

def findAll (m : Pattern α) (s : Str) : List α :=
  findAllFrom m s.length true s

/-- `re.search` of a pattern that begins with a multi-line `^`. -/
def searchFrom (m : Pattern α) : Bool → Str → Bool
  | atStart, [] => atStart && (first m []).isSome
  | atStart, c :: s => atStart && (first m (c :: s)).isSome || searchFrom m (c == lineFeed) s

def search (m : Pattern α) (s : Str) : Bool :=
  searchFrom m true s

section Ways

variable {p : CodePoint → Bool} {s rest : Str} {c : CodePoint}

theorem mem_bind {m : Pattern α} {f : α → Pattern β} {b : β} :
    (b, rest) ∈ (m >>= f) s ↔ ∃ a between, (a, between) ∈ m s ∧ (b, rest) ∈ f a between := by
  change (b, rest) ∈ (m s).flatMap _ ↔ _
  simp [List.mem_flatMap, Prod.exists]

theorem mem_pure {a b : α} : (b, rest) ∈ (pure a : Pattern α) s ↔ b = a ∧ rest = s := by
  change (b, rest) ∈ [(a, s)] ↔ _
  simp

theorem mem_char : (c, rest) ∈ char p s ↔ s = c :: rest ∧ p c = true := by
  cases s with
  | nil => simp [char]
  | cons d s =>
    rw [char]
    split
    next h =>
      rw [List.mem_singleton, Prod.mk.injEq, List.cons.injEq]
      constructor
      · rintro ⟨rfl, rfl⟩
        exact ⟨⟨rfl, rfl⟩, h⟩
      · rintro ⟨⟨rfl, rfl⟩, -⟩
        exact ⟨rfl, rfl⟩
    next h =>
      constructor
      · intro hm
        cases hm
      · rintro ⟨he, hp⟩
        cases he
        exact absurd hp h

theorem mem_many {run : Str} :
    (run, rest) ∈ many p s ↔ s = run ++ rest ∧ ∀ d ∈ run, p d = true := by
  induction s generalizing run with
  | nil =>
    rw [many, List.mem_singleton, Prod.mk.injEq]
    constructor
    · rintro ⟨rfl, rfl⟩
      exact ⟨rfl, by simp⟩
    · rintro ⟨he, -⟩
      exact List.append_eq_nil_iff.mp he.symm
  | cons c s ih =>
    have none : (run, rest) ∈ [(([] : Str), c :: s)] ↔ run = [] ∧ c :: s = run ++ rest := by
      rw [List.mem_singleton, Prod.mk.injEq]
      constructor
      · rintro ⟨rfl, rfl⟩
        exact ⟨rfl, rfl⟩
      · rintro ⟨rfl, he⟩
        exact ⟨rfl, he.symm⟩
    unfold many
    split
    next h =>
      rw [List.mem_append, none, List.mem_map]
      constructor
      · rintro (⟨⟨run', rest'⟩, hm, he⟩ | ⟨rfl, he⟩)
        · cases he
          obtain ⟨rfl, all⟩ := ih.mp hm
          exact ⟨rfl, List.forall_mem_cons.mpr ⟨h, all⟩⟩
        · exact ⟨he, by simp⟩
      · rintro ⟨he, all⟩
        cases run with
        | nil => exact Or.inr ⟨rfl, he⟩
        | cons d run =>
          rw [List.cons_append, List.cons.injEq] at he
          obtain ⟨rfl, he⟩ := he
          exact Or.inl ⟨(run, rest), ih.mpr ⟨he, (List.forall_mem_cons.mp all).2⟩, rfl⟩
    next h =>
      rw [none]
      constructor
      · rintro ⟨rfl, he⟩
        exact ⟨he, by simp⟩
      · rintro ⟨he, all⟩
        cases run with
        | nil => exact ⟨rfl, he⟩
        | cons d run =>
          rw [List.cons_append, List.cons.injEq] at he
          obtain ⟨rfl, -⟩ := he
          exact absurd (all c List.mem_cons_self) h

theorem mem_many1 {run : Str} :
    (run, rest) ∈ many1 p s ↔ s = run ++ rest ∧ run ≠ [] ∧ ∀ d ∈ run, p d = true := by
  unfold many1
  simp only [mem_bind, mem_char, mem_many, mem_pure]
  constructor
  · rintro ⟨c, _, ⟨rfl, hc⟩, tail, _, ⟨rfl, all⟩, rfl, rfl⟩
    exact ⟨rfl, List.cons_ne_nil c tail, List.forall_mem_cons.mpr ⟨hc, all⟩⟩
  · rintro ⟨rfl, hne, all⟩
    obtain ⟨c, tail, rfl⟩ := List.exists_cons_of_ne_nil hne
    obtain ⟨hc, others⟩ := List.forall_mem_cons.mp all
    exact ⟨c, tail ++ rest, ⟨rfl, hc⟩, tail, rest, ⟨rfl, others⟩, rfl, rfl⟩

theorem mem_text {t : Str} {u : Unit} : (u, rest) ∈ text t s ↔ s = t ++ rest := by
  unfold text
  split
  next h =>
    obtain ⟨after, rfl⟩ := h
    rw [List.drop_left, List.mem_singleton, Prod.mk.injEq, List.append_cancel_left_eq]
    exact ⟨fun ⟨_, he⟩ => he.symm, fun he => ⟨rfl, he.symm⟩⟩
  next h =>
    constructor
    · intro hm
      cases hm
    · rintro rfl
      exact absurd (List.prefix_append t rest) h

theorem mem_either {m n : Pattern α} {a : α} :
    (a, rest) ∈ either m n s ↔ (a, rest) ∈ m s ∨ (a, rest) ∈ n s :=
  List.mem_append

end Ways

section First

variable {p : CodePoint → Bool} {s rest : Str} {a : α} {b : β}

theorem first_eq_none {m : Pattern α} : first m s = none ↔ ∀ a rest, (a, rest) ∉ m s := by
  rw [first, List.head?_eq_none_iff, List.eq_nil_iff_forall_not_mem, Prod.forall]

theorem mem_of_first {m : Pattern α} (h : first m s = some (a, rest)) : (a, rest) ∈ m s :=
  List.mem_of_mem_head? h

/-- A sequence matches first where its first part does, if the second part does from there. -/
theorem first_bind {m : Pattern α} {f : α → Pattern β} {between : Str} {way : β × Str}
    (hm : first m s = some (a, between)) (hf : first (f a) between = some way) :
    first (m >>= f) s = some way := by
  obtain ⟨ways, hw⟩ := List.head?_eq_some_iff.mp hm
  obtain ⟨others, ho⟩ := List.head?_eq_some_iff.mp hf
  change ((m s).flatMap fun way => f way.1 way.2).head? = _
  rw [hw, List.flatMap_cons, ho]
  rfl

theorem first_either_left {m n : Pattern α} {way : α × Str} (h : first m s = some way) :
    first (either m n) s = some way := by
  obtain ⟨ways, hw⟩ := List.head?_eq_some_iff.mp h
  rw [first, either, hw]
  rfl

theorem first_either_right {m n : Pattern α} (h : first m s = none) : first (either m n) s = first n s := by
  rw [first, List.head?_eq_none_iff] at h
  rw [first, either, h]
  rfl

/-- A pattern tries its second part only where the first goes on to match. -/
theorem first_either_bind {m n : Pattern α} {f : α → Pattern β}
    (h : ∀ a between, (a, between) ∈ m s → ∀ b rest, (b, rest) ∉ f a between) :
    first (either m n >>= f) s = first (n >>= f) s := by
  have none : ((m s).flatMap fun way => f way.1 way.2) = [] := by
    rw [List.flatMap_eq_nil_iff]
    rintro ⟨a, between⟩ hm
    exact List.eq_nil_iff_forall_not_mem.mpr fun ⟨b, rest⟩ => h a between hm b rest
  change ((m s ++ n s).flatMap fun way => f way.1 way.2).head? = _
  rw [List.flatMap_append, none]
  rfl

/-- A run of a class ends where the class does. -/
theorem first_many {run : Str} (all : ∀ d ∈ run, p d = true)
    (stop : ∀ d, rest.head? = some d → p d = false) :
    first (many p) (run ++ rest) = some (run, rest) := by
  induction run with
  | nil =>
    cases rest with
    | nil => rfl
    | cons d rest =>
      have hd := stop d rfl
      rw [first, List.nil_append, many, hd]
      rfl
  | cons c run ih =>
    obtain ⟨hc, others⟩ := List.forall_mem_cons.mp all
    obtain ⟨ways, hw⟩ := List.head?_eq_some_iff.mp (ih others)
    rw [first, List.cons_append, many, if_pos hc, hw]
    rfl

theorem first_many1 {run : Str} (hne : run ≠ []) (all : ∀ d ∈ run, p d = true)
    (stop : ∀ d, rest.head? = some d → p d = false) :
    first (many1 p) (run ++ rest) = some (run, rest) := by
  obtain ⟨c, tail, rfl⟩ := List.exists_cons_of_ne_nil hne
  obtain ⟨hc, others⟩ := List.forall_mem_cons.mp all
  have head : first (char p) (c :: tail ++ rest) = some (c, tail ++ rest) := by
    rw [first, List.cons_append, char, if_pos hc]
    rfl
  exact first_bind head (first_bind (first_many others stop) rfl)

theorem first_text (t rest : Str) : first (text t) (t ++ rest) = some ((), rest) := by
  rw [first, text, if_pos (List.prefix_append t rest), List.drop_left]
  rfl

/-- A run that is skipped gives the place furthest on from which the rest still matches. -/
theorem first_many_skip {f : Pattern β} {run u : Str} {way : β × Str}
    (all : ∀ d ∈ run, p d = true) (here : first f u = some way)
    (beyond : ∀ skipped v, u = skipped ++ v → skipped ≠ [] → (∀ d ∈ skipped, p d = true) →
      ∀ b rest, (b, rest) ∉ f v) :
    first (many p >>= fun _ => f) (run ++ u) = some way := by
  have step : ∀ c s, p c = true → (many p >>= fun _ => f) (c :: s) =
      (many p >>= fun _ => f) s ++ f (c :: s) := by
    intro c s hc
    change (many p (c :: s)).flatMap _ = (many p s).flatMap _ ++ _
    rw [many, if_pos hc, List.flatMap_append, List.flatMap_map, List.flatMap_singleton]
  have stay : (many p >>= fun _ => f) u = f u := by
    cases u with
    | nil =>
      change (many p []).flatMap _ = _
      rw [many, List.flatMap_singleton]
    | cons c s =>
      by_cases hc : p c = true
      · have none : (many p >>= fun _ => f) s = [] := by
          refine List.eq_nil_iff_forall_not_mem.mpr fun ⟨b, rest⟩ hb => ?_
          obtain ⟨skipped, v, hm, hv⟩ := mem_bind.mp hb
          obtain ⟨rfl, hall⟩ := mem_many.mp hm
          exact beyond (c :: skipped) v rfl (List.cons_ne_nil c skipped)
            (List.forall_mem_cons.mpr ⟨hc, hall⟩) b rest hv
        rw [step c s hc, none, List.nil_append]
      · change (many p (c :: s)).flatMap _ = _
        rw [many, if_neg hc, List.flatMap_singleton]
  induction run with
  | nil =>
    rw [first, List.nil_append, stay]
    exact here
  | cons c run ih =>
    obtain ⟨hc, others⟩ := List.forall_mem_cons.mp all
    obtain ⟨ways, hw⟩ := List.head?_eq_some_iff.mp (ih others)
    rw [first, List.cons_append, step c _ hc, hw]
    rfl

end First

section FindAll

variable {m : Pattern α} {fuel : Nat} {s rest : Str} {a : α}

theorem endsLine_append (taken rest : Str) :
    endsLine (taken ++ rest) rest = (taken.getLast? == some lineFeed) := by
  have length : (taken ++ rest).length - rest.length = taken.length := by
    rw [List.length_append]
    omega
  rw [endsLine, length, List.take_left]

@[simp] theorem findAllFrom_nil (m : Pattern α) (fuel : Nat) (start : Bool) :
    findAllFrom m fuel start [] = [] := by
  cases fuel <;> rfl

/-- The rest of a line that is not at its start is passed over. -/
theorem findAllFrom_skip (hs : ∀ c ∈ s, c ≠ lineFeed)
    (enough : (s ++ lineFeed :: rest).length ≤ fuel) :
    ∃ fuel', rest.length ≤ fuel' ∧
      findAllFrom m fuel false (s ++ lineFeed :: rest) = findAllFrom m fuel' true rest := by
  induction s generalizing fuel with
  | nil =>
    obtain ⟨fuel, rfl⟩ : ∃ n, fuel = n + 1 := Nat.exists_eq_succ_of_ne_zero (by
      rintro rfl
      simp at enough)
    exact ⟨fuel, by simpa using enough, rfl⟩
  | cons c s ih =>
    obtain ⟨hc, others⟩ := List.forall_mem_cons.mp hs
    obtain ⟨fuel, rfl⟩ : ∃ n, fuel = n + 1 := Nat.exists_eq_succ_of_ne_zero (by
      rintro rfl
      simp at enough)
    have other : (c == lineFeed) = false := beq_eq_false_iff_ne.mpr hc
    obtain ⟨fuel', left, same⟩ := ih others (by simpa using enough)
    refine ⟨fuel', left, ?_⟩
    rw [List.cons_append, findAllFrom, other]
    exact same

/-- A line without a match is passed over. -/
theorem findAllFrom_none (hs : ∀ c ∈ s, c ≠ lineFeed)
    (none : first m (s ++ lineFeed :: rest) = none)
    (enough : (s ++ lineFeed :: rest).length ≤ fuel) :
    ∃ fuel', rest.length ≤ fuel' ∧
      findAllFrom m fuel true (s ++ lineFeed :: rest) = findAllFrom m fuel' true rest := by
  obtain ⟨fuel, rfl⟩ : ∃ n, fuel = n + 1 := Nat.exists_eq_succ_of_ne_zero (by
    rintro rfl
    simp at enough)
  cases s with
  | nil =>
    refine ⟨fuel, by simpa using enough, ?_⟩
    rw [List.nil_append] at none ⊢
    rw [findAllFrom, none]
    rfl
  | cons c s =>
    obtain ⟨hc, others⟩ := List.forall_mem_cons.mp hs
    have other : (c == lineFeed) = false := beq_eq_false_iff_ne.mpr hc
    obtain ⟨fuel', left, same⟩ := findAllFrom_skip (m := m) others (by simpa using enough)
    refine ⟨fuel', left, ?_⟩
    rw [List.cons_append] at none ⊢
    rw [findAllFrom, none]
    dsimp only
    rw [other]
    exact same

/-- After a match that does not end a line the scan goes on in the middle of one. -/
theorem findAllFrom_match (hne : s ≠ []) (found : first m s = some (a, rest))
    (inside : endsLine s rest = false) (shorter : rest.length < s.length)
    (enough : s.length ≤ fuel) :
    ∃ fuel', rest.length ≤ fuel' ∧
      findAllFrom m fuel true s = a :: findAllFrom m fuel' false rest := by
  obtain ⟨c, tail, rfl⟩ := List.exists_cons_of_ne_nil hne
  obtain ⟨fuel, rfl⟩ : ∃ n, fuel = n + 1 := Nat.exists_eq_succ_of_ne_zero (by
    rintro rfl
    simp at enough)
  refine ⟨fuel, by omega, ?_⟩
  rw [findAllFrom, found]
  dsimp only
  rw [inside]

end FindAll

end Regex

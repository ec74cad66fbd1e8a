import EdgecaseForge.DecimalLiteral
import EdgecaseForge.FloatCore

namespace Binary64

open Text Decimal

def scaled (d : Nat) (e : ℤ) : ℚ :=
  d * 10 ^ e

theorem scaled_nonneg (d : Nat) (e : ℤ) : 0 ≤ scaled d e := by
  unfold scaled
  positivity

/-- Dropping a trailing zero. -/
def trimZero (d : Nat) (e : ℤ) : Nat × ℤ :=
  if d % 10 = 0 then (d / 10, e + 1) else (d, e)

theorem scaled_trimZero (d : Nat) (e : ℤ) :
    scaled (trimZero d e).1 (trimZero d e).2 = scaled d e := by
  unfold trimZero
  split
  next h =>
    have whole : (d : ℚ) = (d / 10 : Nat) * 10 := by exact_mod_cast (Nat.div_mul_cancel
      (Nat.dvd_of_mod_eq_zero h)).symm
    calc ((d / 10 : Nat) : ℚ) * 10 ^ (e + 1) = (d / 10 : Nat) * 10 * 10 ^ e := by
          rw [zpow_add₀ (by norm_num), zpow_one]
          ring
      _ = d * 10 ^ e := by rw [← whole]
  next => rfl

/-- A decimal of `n` digits next to `mag` that rounds to it, the nearer one first. -/
def candidate (mag : ℚ) (n : Nat) : Option (Nat × ℤ) :=
  let e := Int.log 10 mag + 1 - n
  let below := ⌊mag / 10 ^ e⌋₊
  let order := if mag / 10 ^ e - below ≤ 1 / 2 then [below, below + 1] else [below + 1, below]
  (order.find? fun d => roundMag (scaled d e) == mag).map fun d => trimZero d e

/-- The shortest decimal that rounds to `mag`; 17 digits are enough for every double. -/
def shortest (mag : ℚ) : Nat × ℤ :=
  ((List.range 17).findSome? fun n => candidate mag (n + 1)).getD
    (⌊mag * 10 ^ (1074 : ℕ)⌋₊, -((1074 : ℕ) : ℤ))

theorem candidate_rounds {mag : ℚ} {n : Nat} {de : Nat × ℤ} (h : candidate mag n = some de) :
    roundMag (scaled de.1 de.2) = mag := by
  obtain ⟨d, hd, rfl⟩ := Option.map_eq_some_iff.mp h
  rw [scaled_trimZero]
  simpa using List.find?_some hd

theorem shortest_rounds (f : Finite) :
    roundMag (scaled (shortest f.mag).1 (shortest f.mag).2) = f.mag := by
  unfold shortest
  cases hc : (List.range 17).findSome? fun n => candidate f.mag (n + 1) with
  | none =>
    rw [Option.getD_none]
    unfold scaled
    rw [f.exact]
    exact f.fixed
  | some de =>
    obtain ⟨n, _, hn⟩ := List.exists_of_findSome?_eq_some hc
    exact candidate_rounds hn

end Binary64

namespace Decimal

open Text Binary64

def Literal.exponent (l : Literal) : ℤ :=
  match l.exp with
  | none => 0
  | some (neg, digits) => if neg then -natValue digits else natValue digits

/-- The magnitude that a literal writes. -/
def Literal.mag (l : Literal) : ℚ :=
  scaled (natValue (l.whole ++ l.frac)) (l.exponent - l.frac.length)

def exponentText (point : ℤ) : Bool × Str :=
  (point < 0, if point.natAbs < 10 then pad 2 point.natAbs else natText point.natAbs)

/-- How `d * 10 ^ e` is laid out: in full between `1e-4` and `1e16`, else with an exponent. -/
def layout (neg : Bool) (d : Nat) (e : ℤ) : Literal :=
  let point := Nat.log 10 d + e
  if -4 ≤ point ∧ point < 16 then
    if 0 ≤ e then ⟨neg, natText (d * 10 ^ e.toNat), [0x30], none⟩
    else
      let k := (-e).toNat
      ⟨neg, natText (d / 10 ^ k), pad k (d % 10 ^ k), none⟩
  else
    ⟨neg, [digit (d / 10 ^ Nat.log 10 d)], pad (Nat.log 10 d) d, some (exponentText point)⟩

theorem natValue_exponentText (point : ℤ) :
    natValue (exponentText point).2 = point.natAbs := by
  unfold exponentText
  dsimp only
  split
  next h => exact natValue_pad (by omega)
  next => exact natValue_natText _

theorem natText_wf (n : Nat) : natText n = [0x30] ∨ ∃ c rest, natText n = c :: rest ∧ c ≠ 0x30 ∧
    isDigit c = true ∧ ∀ d ∈ rest, isDigit d = true := by
  by_cases hn : n = 0
  · subst hn
    exact .inl natText_zero
  · obtain ⟨rest, htext, hne, hrest⟩ := natText_head hn
    exact .inr ⟨_, rest, htext, hne, isDigit_digit _, hrest⟩

theorem exponentText_wf (point : ℤ) :
    (exponentText point).2 ≠ [] ∧ ∀ c ∈ (exponentText point).2, isDigit c = true := by
  unfold exponentText
  dsimp only
  split
  next => exact ⟨by simp [pad], pad_digits _ _⟩
  next => exact ⟨by simp [natText, pad], natText_digits _⟩

theorem layout_wf (neg : Bool) {d : Nat} (hd : d ≠ 0) (e : ℤ) : (layout neg d e).Wf := by
  unfold layout
  dsimp only
  split
  next =>
    split
    next =>
      refine ⟨natText_wf _, ?_, by simp⟩
      intro c hc
      cases List.mem_singleton.mp hc
      decide
    next => exact ⟨natText_wf _, pad_digits _ _, by simp⟩
  next =>
    obtain ⟨rest, _, hne, _⟩ := natText_head hd
    refine ⟨.inr ⟨_, [], rfl, hne, isDigit_digit _, by simp⟩, pad_digits _ _, ?_⟩
    intro neg' digits he
    cases Option.some.inj he
    exact exponentText_wf _

theorem natValue_append_pad (s : Str) (k n : Nat) :
    natValue (s ++ pad k n) = natValue s * 10 ^ k + n % 10 ^ k := by
  rw [natValue, natValueFrom_append, natValueFrom_pad]
  rfl

theorem exponent_exponentText (l : Literal) (point : ℤ) (h : l.exp = some (exponentText point)) :
    l.exponent = point := by
  have value := natValue_exponentText point
  unfold Literal.exponent
  rw [h]
  unfold exponentText at value ⊢
  dsimp only at value ⊢
  rw [value]
  by_cases hp : point < 0
  · simp only [hp, decide_true, if_true]
    omega
  · simp only [hp, decide_false, Bool.false_eq_true, if_false]
    omega

/-- A number laid out keeps its magnitude. -/
theorem layout_mag (neg : Bool) (d : Nat) (e : ℤ) :
    (layout neg d e).mag = scaled d e := by
  unfold layout
  dsimp only
  split
  next =>
    split
    next he =>
      have tail : natValue (natText (d * 10 ^ e.toNat) ++ [0x30]) = d * 10 ^ e.toNat * 10 := by
        have := natValue_append_pad (natText (d * 10 ^ e.toNat)) 1 0
        rw [natValue_natText] at this
        simpa [pad, digit] using this
      simp only [Literal.mag, Literal.exponent, tail, List.length_singleton, scaled]
      obtain ⟨k, rfl⟩ := Int.eq_ofNat_of_zero_le he
      push_cast
      rw [Int.toNat_natCast, zpow_natCast, zpow_neg_one, mul_assoc, mul_inv_cancel₀ (by norm_num),
        mul_one]
    next he =>
      obtain ⟨k, hk⟩ : ∃ k : ℕ, e = -k := ⟨(-e).toNat, by omega⟩
      subst hk
      have value : natValue (natText (d / 10 ^ k) ++ pad k (d % 10 ^ k)) = d := by
        rw [natValue_append_pad, natValue_natText, Nat.mod_mod, Nat.div_add_mod']
      simp [Literal.mag, Literal.exponent, value]
  next =>
    have value : natValue ([digit (d / 10 ^ Nat.log 10 d)] ++ pad (Nat.log 10 d) d) = d := by
      rw [List.singleton_append, ← natText_cons, natValue_natText]
    have exps := exponent_exponentText ⟨neg, [digit (d / 10 ^ Nat.log 10 d)],
      pad (Nat.log 10 d) d, some (exponentText (Nat.log 10 d + e))⟩ _ rfl
    simp only [Literal.mag, value, exps, length_pad]
    congr 1
    ring

theorem layout_neg (neg : Bool) (d : Nat) (e : ℤ) : (layout neg d e).neg = neg := by
  unfold layout
  dsimp only
  split
  · split <;> rfl
  · rfl

theorem layout_isInt (neg : Bool) (d : Nat) (e : ℤ) : (layout neg d e).isInt = false := by
  unfold layout
  dsimp only
  split
  next =>
    split
    next => rfl
    next he =>
      obtain ⟨k, hk⟩ : ∃ k, (-e).toNat = k + 1 := ⟨(-e).toNat - 1, by omega⟩
      rw [hk]
      simp [Literal.isInt, pad]
  next => simp [Literal.isInt]

/-- The double that a literal reads as. -/
def Literal.double (l : Literal) : Double :=
  ofMag l.neg l.mag (scaled_nonneg _ _)

end Decimal

namespace Binary64

open Text Decimal

/-- The literal that `repr` writes for a finite double. -/
def Finite.literal (f : Finite) : Literal :=
  if f.mag = 0 then ⟨f.neg, [0x30], [0x30], none⟩
  else layout f.neg (shortest f.mag).1 (shortest f.mag).2

theorem shortest_ne_zero {f : Finite} (h : f.mag ≠ 0) : (shortest f.mag).1 ≠ 0 := by
  intro hd
  have rounds := shortest_rounds f
  rw [hd] at rounds
  simp only [scaled, Nat.cast_zero, zero_mul, roundMag_zero] at rounds
  exact h rounds.symm

theorem Finite.literal_wf (f : Finite) : f.literal.Wf := by
  unfold Finite.literal
  split
  next => exact ⟨.inl rfl, by simp; decide, by simp⟩
  next h => exact layout_wf _ (shortest_ne_zero h) _

theorem Finite.literal_isInt (f : Finite) : f.literal.isInt = false := by
  unfold Finite.literal
  split
  next => rfl
  next => exact layout_isInt _ _ _

/-- What is written for a double reads as that double. -/
theorem Finite.literal_double (f : Finite) : f.literal.double = .finite f := by
  have parts : f.literal.neg = f.neg ∧ roundMag f.literal.mag = f.mag := by
    unfold Finite.literal
    split
    next h =>
      refine ⟨rfl, ?_⟩
      have zero : natValue ([0x30] ++ [0x30]) = 0 := rfl
      simp only [Literal.mag, zero, scaled, Nat.cast_zero, zero_mul, roundMag_zero, h]
    next h =>
      refine ⟨layout_neg _ _ _, ?_⟩
      rw [layout_mag]
      exact shortest_rounds f
  unfold Literal.double
  rw [parts.1]
  exact ofMag_of_roundMag _ parts.2

end Binary64

import Mathlib.Algebra.Order.Field.Power
import Mathlib.Algebra.Order.Floor.Ring
import Mathlib.Data.Int.Log
import Mathlib.Data.Rat.Floor
import Mathlib.Tactic.Linarith
import Mathlib.Tactic.NormNum
import Mathlib.Tactic.Positivity

namespace Binary64

/-- The nearest integer, and the even one of two that are equally near. -/
def roundHalfEven (q : ℚ) : ℤ :=
  let below := ⌊q⌋
  let part := q - below
  if part < 1 / 2 then below
  else if 1 / 2 < part then below + 1
  else if below % 2 = 0 then below
  else below + 1

theorem roundHalfEven_intCast (n : ℤ) : roundHalfEven n = n := by
  simp [roundHalfEven]

theorem roundHalfEven_nonneg {q : ℚ} (h : 0 ≤ q) : 0 ≤ roundHalfEven q := by
  have hb : 0 ≤ ⌊q⌋ := Int.floor_nonneg.mpr h
  unfold roundHalfEven
  dsimp only
  split_ifs <;> omega

theorem roundHalfEven_le {q : ℚ} {n : ℤ} (h : q < n) : roundHalfEven q ≤ n := by
  have hb : ⌊q⌋ < n := Int.floor_lt.mpr h
  unfold roundHalfEven
  dsimp only
  split_ifs <;> omega

/-- The exponent of the last place of a significand of 53 bits. -/
def exponent (q : ℚ) : ℤ :=
  max (-1074) (Int.log 2 q - 52)

/-- A magnitude rounded to the nearest multiple of its last place. -/
def roundMag (q : ℚ) : ℚ :=
  roundHalfEven (q / 2 ^ exponent q) * 2 ^ exponent q

theorem lastPlace_pos (q : ℚ) : (0 : ℚ) < 2 ^ exponent q :=
  zpow_pos (by norm_num) _

theorem roundMag_nonneg {q : ℚ} (h : 0 ≤ q) : 0 ≤ roundMag q := by
  have hp := lastPlace_pos q
  have hr := roundHalfEven_nonneg (div_nonneg h hp.le)
  unfold roundMag
  positivity

theorem significand_le (q : ℚ) : roundHalfEven (q / 2 ^ exponent q) ≤ 2 ^ 53 := by
  apply roundHalfEven_le
  rw [div_lt_iff₀ (lastPlace_pos q)]
  have top : q < 2 ^ (Int.log 2 q + 1) := Int.lt_zpow_succ_log_self (by norm_num) q
  have exps : Int.log 2 q + 1 ≤ 53 + exponent q := by
    have := le_max_right (-1074) (Int.log 2 q - 52)
    unfold exponent
    omega
  calc q < 2 ^ (Int.log 2 q + 1) := top
    _ ≤ 2 ^ (53 + exponent q) := zpow_le_zpow_right₀ (by norm_num) exps
    _ = ((2 ^ 53 : ℤ) : ℚ) * 2 ^ exponent q := by
      rw [zpow_add₀ (by norm_num)]
      norm_num

/-- A multiple of its own last place is left alone. -/
theorem roundMag_multiple {q : ℚ} {n : ℤ} (h : q = n * 2 ^ exponent q) : roundMag q = q := by
  have hp := lastPlace_pos q
  have hq : q / 2 ^ exponent q = n := by
    rw [div_eq_iff hp.ne']
    exact h
  unfold roundMag
  rw [hq, roundHalfEven_intCast]
  exact h.symm

theorem roundMag_zero : roundMag 0 = 0 := by
  simp [roundMag, roundHalfEven]

theorem roundMag_roundMag {q : ℚ} (h : 0 ≤ q) : roundMag (roundMag q) = roundMag q := by
  rcases h.eq_or_lt with rfl | _
  · simp [roundMag_zero]
  · obtain ⟨m, hm⟩ : ∃ m, m = roundHalfEven (q / 2 ^ exponent q) := ⟨_, rfl⟩
    obtain ⟨e, he⟩ : ∃ e, e = exponent q := ⟨_, rfl⟩
    have top : m ≤ 2 ^ 53 := hm ▸ significand_le q
    have low : -1074 ≤ e := he ▸ le_max_left _ _
    have value : roundMag q = m * 2 ^ e := by rw [hm, he]; rfl
    rw [value]
    have nonneg : 0 ≤ m := hm ▸ roundHalfEven_nonneg (div_nonneg h (lastPlace_pos q).le)
    rcases nonneg.eq_or_lt with rfl | pos
    · simp [roundMag_zero]
    · have mpos : (0 : ℚ) < m := by exact_mod_cast pos
      have rpos : (0 : ℚ) < m * 2 ^ e := by positivity
      have bound : (m : ℚ) * 2 ^ e ≤ 2 ^ (53 + e) := by
        rw [zpow_add₀ (by norm_num)]
        have : (m : ℚ) ≤ 2 ^ (53 : ℤ) := by exact_mod_cast top
        gcongr
      have logle : Int.log 2 ((m : ℚ) * 2 ^ e) ≤ 53 + e := by
        have mono := Int.log_mono_right (b := 2) rpos bound
        have power := Int.log_zpow (R := ℚ) (b := 2) (by norm_num) (53 + e)
        exact mono.trans_eq (by exact_mod_cast power)
      obtain ⟨e', he'⟩ : ∃ e', e' = exponent ((m : ℚ) * 2 ^ e) := ⟨_, rfl⟩
      have he'' : e' = max (-1074) (Int.log 2 ((m : ℚ) * 2 ^ e) - 52) := he'
      rcases lt_or_ge e e' with above | below
      · have elog : Int.log 2 ((m : ℚ) * 2 ^ e) = 53 + e := by omega
        have same : e' = e + 1 := by omega
        have self := Int.zpow_log_le_self (b := 2) (by norm_num) rpos
        rw [elog] at self
        have exact2 : (m : ℚ) * 2 ^ e = 2 ^ (53 + e) := le_antisymm bound (by exact_mod_cast self)
        apply roundMag_multiple (n := 2 ^ 52)
        rw [← he', same, exact2, zpow_add₀ (by norm_num), zpow_add₀ (by norm_num)]
        norm_num
        ring
      · apply roundMag_multiple (n := m * 2 ^ (e - e').toNat)
        rw [← he']
        have split : (2 : ℚ) ^ e = 2 ^ (e - e').toNat * 2 ^ e' := by
          rw [← zpow_natCast, ← zpow_add₀ (by norm_num)]
          congr 1
          omega
        push_cast
        rw [split]
        ring

/-- The first power of two past every finite value. -/
def overflow : ℚ :=
  2 ^ 1024

/-- A sign and a magnitude that needs no rounding. -/
structure Finite where
  neg : Bool
  mag : ℚ
  nonneg : 0 ≤ mag
  fixed : roundMag mag = mag
  bounded : mag < overflow
  deriving DecidableEq

def Finite.value (f : Finite) : ℚ :=
  if f.neg then -f.mag else f.mag

inductive Double
  | finite (f : Finite)
  | infinite (neg : Bool)
  | nan
  deriving DecidableEq

def ofMag (neg : Bool) (q : ℚ) (h : 0 ≤ q) : Double :=
  if hb : roundMag q < overflow then
    .finite ⟨neg, roundMag q, roundMag_nonneg h, roundMag_roundMag h, hb⟩
  else .infinite neg

def ofRat (q : ℚ) : Double :=
  ofMag (q < 0) |q| (abs_nonneg q)

/-- Rounding a number that reads like `f` gives `f`. -/
theorem ofMag_of_roundMag {f : Finite} {q : ℚ} (h : 0 ≤ q) (hr : roundMag q = f.mag) :
    ofMag f.neg q h = .finite f := by
  have bounded : roundMag q < overflow := hr ▸ f.bounded
  unfold ofMag
  rw [dif_pos bounded]
  obtain ⟨neg, mag, _, _, _⟩ := f
  dsimp only at hr
  subst hr
  rfl

/-- Every finite value is a multiple of the least positive one. -/
theorem Finite.multiple (f : Finite) : ∃ n : ℤ, f.mag = n * 2 ^ (-1074 : ℤ) := by
  have low : -1074 ≤ exponent f.mag := le_max_left _ _
  refine ⟨roundHalfEven (f.mag / 2 ^ exponent f.mag) * 2 ^ (exponent f.mag + 1074).toNat, ?_⟩
  have split : (2 : ℚ) ^ exponent f.mag = 2 ^ (exponent f.mag + 1074).toNat * 2 ^ (-1074 : ℤ) := by
    rw [← zpow_natCast, ← zpow_add₀ (by norm_num)]
    congr 1
    omega
  have fixed := f.fixed
  unfold roundMag at fixed
  rw [Int.cast_mul, Int.cast_pow, Int.cast_ofNat, mul_assoc, ← split, fixed]

/-- A multiple of a power of a half has as many decimal places as the power says. -/
theorem decimal_exact {x : ℚ} (hx : 0 ≤ x) {k : ℕ} {n : ℤ} (hn : x = n * 2 ^ (-(k : ℤ))) :
    (⌊x * 10 ^ k⌋₊ : ℚ) * 10 ^ (-(k : ℤ)) = x := by
  have whole : x * 10 ^ k = ((n * 5 ^ k : ℤ) : ℚ) := by
    have ten : (10 : ℚ) ^ k = 2 ^ k * 5 ^ k := by rw [← mul_pow]; norm_num
    have cancel : (2 : ℚ) ^ (-(k : ℤ)) * 2 ^ k = 1 := by
      rw [zpow_neg, zpow_natCast, inv_mul_cancel₀ (by positivity)]
    push_cast
    calc x * 10 ^ k = n * 5 ^ k * (2 ^ (-(k : ℤ)) * 2 ^ k) := by rw [hn, ten]; ring
      _ = n * 5 ^ k := by rw [cancel, mul_one]
  have nonneg : 0 ≤ n * 5 ^ k := by
    have : (0 : ℚ) ≤ x * 10 ^ k := mul_nonneg hx (by positivity)
    rw [whole] at this
    exact_mod_cast this
  have floor : (⌊x * 10 ^ k⌋₊ : ℚ) = x * 10 ^ k := by
    rw [whole, ← Int.toNat_of_nonneg nonneg]
    exact_mod_cast Nat.floor_natCast (R := ℚ) _
  rw [floor, zpow_neg, zpow_natCast, mul_assoc, mul_inv_cancel₀ (by positivity), mul_one]

theorem Finite.exact (f : Finite) :
    (⌊f.mag * 10 ^ (1074 : ℕ)⌋₊ : ℚ) * 10 ^ (-((1074 : ℕ) : ℤ)) = f.mag := by
  obtain ⟨n, hn⟩ := f.multiple
  exact decimal_exact f.nonneg (n := n) hn

end Binary64

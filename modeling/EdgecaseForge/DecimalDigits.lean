import EdgecaseForge.TextCore
import Mathlib.Data.Nat.Log
import Mathlib.Tactic.Ring

namespace Decimal

open Text

def digit (d : Nat) : CodePoint :=
  ⟨0x30 + d % 10, by omega⟩

def isDigit (c : CodePoint) : Bool :=
  0x30 ≤ c.val && c.val ≤ 0x39

def digitValue (c : CodePoint) : Nat :=
  c.val - 0x30

/-- The last `k` digits of a number, leading zeros included. -/
def pad : Nat → Nat → Str
  | 0, _ => []
  | k + 1, n => pad k (n / 10) ++ [digit (n % 10)]

def natText (n : Nat) : Str :=
  pad (Nat.log 10 n + 1) n

/-- The number that digits after `acc` make. -/
def natValueFrom (acc : Nat) (s : Str) : Nat :=
  s.foldl (fun value c => value * 10 + digitValue c) acc

def natValue (s : Str) : Nat :=
  natValueFrom 0 s

@[simp] theorem digitValue_digit (d : Nat) : digitValue (digit d) = d % 10 := by
  simp [digitValue, digit]

theorem isDigit_digit (d : Nat) : isDigit (digit d) = true := by
  have low : 0x30 ≤ (digit d).val := Nat.le_add_right _ _
  have high : (digit d).val ≤ 0x39 := by
    change 0x30 + d % 10 ≤ 0x39
    omega
  simp [isDigit, low, high]

@[simp] theorem length_pad (k n : Nat) : (pad k n).length = k := by
  induction k generalizing n with
  | zero => rfl
  | succ k ih => simp [pad, ih]

theorem pad_digits (k n : Nat) : ∀ c ∈ pad k n, isDigit c = true := by
  induction k generalizing n with
  | zero => simp [pad]
  | succ k ih =>
    intro c hc
    rcases List.mem_append.mp hc with hc | hc
    · exact ih _ c hc
    · cases List.mem_singleton.mp hc
      exact isDigit_digit _

theorem natValueFrom_append (acc : Nat) (s t : Str) :
    natValueFrom acc (s ++ t) = natValueFrom (natValueFrom acc s) t := by
  simp [natValueFrom]

theorem natValueFrom_pad (acc k n : Nat) :
    natValueFrom acc (pad k n) = acc * 10 ^ k + n % 10 ^ k := by
  induction k generalizing n with
  | zero => simp [pad, natValueFrom, Nat.mod_one]
  | succ k ih =>
    rw [pad, natValueFrom_append, ih]
    simp only [natValueFrom, List.foldl_cons, List.foldl_nil, digitValue_digit, Nat.mod_mod]
    have split : n % 10 ^ (k + 1) = n % 10 + 10 * (n / 10 % 10 ^ k) := by
      rw [pow_succ, Nat.mul_comm, Nat.mod_mul]
    rw [split]
    ring

theorem natValue_pad {k n : Nat} (h : n < 10 ^ k) : natValue (pad k n) = n := by
  simp [natValue, natValueFrom_pad, Nat.mod_eq_of_lt h]

theorem natValue_natText (n : Nat) : natValue (natText n) = n :=
  natValue_pad (Nat.lt_pow_succ_log_self (by decide) n)

/-- The leading digit can be taken off in front. -/
theorem pad_succ (k n : Nat) : pad (k + 1) n = digit (n / 10 ^ k) :: pad k n := by
  induction k generalizing n with
  | zero => simp [pad, digit]
  | succ k ih =>
    rw [pad, ih, pad, List.cons_append, Nat.div_div_eq_div_mul, pow_succ, Nat.mul_comm 10]

theorem natText_cons (n : Nat) :
    natText n = digit (n / 10 ^ Nat.log 10 n) :: pad (Nat.log 10 n) n :=
  pad_succ _ n

theorem leading_pos {n : Nat} (h : n ≠ 0) :
    0 < n / 10 ^ Nat.log 10 n ∧ n / 10 ^ Nat.log 10 n < 10 := by
  have low : 10 ^ Nat.log 10 n ≤ n := Nat.pow_log_le_self 10 h
  have high : n < 10 ^ (Nat.log 10 n + 1) := Nat.lt_pow_succ_log_self (by decide) n
  have pos : 0 < 10 ^ Nat.log 10 n := Nat.pow_pos (by decide)
  refine ⟨Nat.div_pos low pos, (Nat.div_lt_iff_lt_mul pos).mpr ?_⟩
  rwa [pow_succ, Nat.mul_comm] at high

theorem natText_zero : natText 0 = [0x30] := by
  rfl

/-- A printed number starts with a zero only if it is zero. -/
theorem natText_head {n : Nat} (h : n ≠ 0) : ∃ rest, natText n =
    digit (n / 10 ^ Nat.log 10 n) :: rest ∧ digit (n / 10 ^ Nat.log 10 n) ≠ 0x30 ∧
    ∀ c ∈ rest, isDigit c = true := by
  obtain ⟨low, high⟩ := leading_pos h
  refine ⟨_, natText_cons n, ?_, pad_digits _ n⟩
  intro he
  have hv := congrArg digitValue he
  rw [digitValue_digit, Nat.mod_eq_of_lt high] at hv
  simp only [digitValue] at hv
  omega

theorem natText_digits (n : Nat) : ∀ c ∈ natText n, isDigit c = true :=
  pad_digits _ n

end Decimal

import EdgecaseForge.FloatCore

namespace Binary64

def Finite.zero (neg : Bool) : Finite where
  neg := neg
  mag := 0
  nonneg := le_refl 0
  fixed := roundMag_zero
  bounded := by norm_num [overflow]

def zero : Double :=
  .finite (Finite.zero false)

/-- `x < 0`. -/
def Double.isNegative : Double → Bool
  | .finite f => f.neg && f.mag != 0
  | .infinite neg => neg
  | .nan => false

/-- Addition, correctly rounded; a zero sum is negative only where both terms are. -/
def Double.add : Double → Double → Double
  | .nan, _ => .nan
  | _, .nan => .nan
  | .infinite a, .infinite b => if a = b then .infinite a else .nan
  | .infinite a, .finite _ => .infinite a
  | .finite _, .infinite b => .infinite b
  | .finite f, .finite g =>
    if f.value + g.value = 0 then .finite (Finite.zero (f.neg && g.neg))
    else ofRat (f.value + g.value)

def Double.negate : Double → Double
  | .finite f => .finite { f with neg := !f.neg }
  | .infinite neg => .infinite (!neg)
  | .nan => .nan

def Double.sub (x y : Double) : Double :=
  x.add y.negate

def decimal (digits : Nat) (q : ℚ) : ℚ :=
  roundHalfEven (q * 10 ^ digits) / 10 ^ digits

theorem decimal_nonneg (digits : Nat) {q : ℚ} (h : 0 ≤ q) : 0 ≤ decimal digits q := by
  have whole : 0 ≤ roundHalfEven (q * 10 ^ digits) := roundHalfEven_nonneg (by positivity)
  have : (0 : ℚ) ≤ roundHalfEven (q * 10 ^ digits) := by exact_mod_cast whole
  unfold decimal
  positivity

/-- `round(x, digits)`: the nearest decimal, and the even one of two. -/
def Double.roundTo (digits : Nat) : Double → Double
  | .finite f => ofMag f.neg (decimal digits f.mag) (decimal_nonneg digits f.nonneg)
  | x => x

theorem Finite.value_nonneg {f : Finite} (h : (Double.finite f).isNegative = false) :
    0 ≤ f.value := by
  simp only [Double.isNegative, Bool.and_eq_false_iff, bne_eq_false_iff_eq] at h
  have := f.nonneg
  unfold Finite.value
  rcases h with h | h
  · simpa [h]
  · simp [h]

theorem ofMag_isNegative {q : ℚ} (h : 0 ≤ q) : (ofMag false q h).isNegative = false := by
  unfold ofMag
  split <;> rfl

theorem ofRat_isNegative {q : ℚ} (h : 0 ≤ q) : (ofRat q).isNegative = false := by
  have sign : decide (q < 0) = false := decide_eq_false (not_lt.mpr h)
  unfold ofRat
  rw [sign]
  exact ofMag_isNegative _

/-- A sum of two numbers none of which is negative is not negative. -/
theorem Double.add_isNegative {x y : Double} (hx : x.isNegative = false)
    (hy : y.isNegative = false) : (x.add y).isNegative = false := by
  cases x with
  | nan => rfl
  | infinite a =>
    cases hx
    cases y with
    | nan => rfl
    | infinite b =>
      cases hy
      rfl
    | finite g => rfl
  | finite f =>
    cases y with
    | nan => rfl
    | infinite b =>
      cases hy
      rfl
    | finite g =>
      have sum : 0 ≤ f.value + g.value :=
        add_nonneg (Finite.value_nonneg hx) (Finite.value_nonneg hy)
      dsimp only [Double.add]
      split
      · simp [Double.isNegative, Finite.zero]
      · exact ofRat_isNegative sum

theorem Double.roundTo_isNegative {x : Double} (digits : Nat) (hx : x.isNegative = false) :
    (x.roundTo digits).isNegative = false := by
  cases x with
  | nan => rfl
  | infinite a => exact hx
  | finite f =>
    simp only [Double.isNegative, Bool.and_eq_false_iff, bne_eq_false_iff_eq] at hx
    dsimp only [Double.roundTo]
    rcases hx with hn | hm
    · rw [hn]
      exact ofMag_isNegative _
    · have zero : decimal digits f.mag = 0 := by
        have := roundHalfEven_intCast 0
        rw [hm, decimal, zero_mul]
        simpa using this
      unfold ofMag
      simp [zero, roundMag_zero, Double.isNegative, overflow]

/-- A time that a clock which never goes back has measured. -/
structure Seconds where
  value : Double
  forward : value.isNegative = false

namespace Seconds

def zero : Seconds :=
  ⟨Binary64.zero, by simp [Binary64.zero, Double.isNegative, Finite.zero]⟩

def add (x y : Seconds) : Seconds :=
  ⟨x.value.add y.value, Double.add_isNegative x.forward y.forward⟩

def roundTo (digits : Nat) (x : Seconds) : Seconds :=
  ⟨x.value.roundTo digits, Double.roundTo_isNegative digits x.forward⟩

end Seconds

end Binary64

import EdgecaseForge.ShaCore
import Mathlib.Algebra.Ring.Nat

namespace Framing

open Text Sha256

/-- The number that bytes stand for, the greatest place first. -/
def value (b : Bytes) : Nat :=
  b.foldl (fun acc x => acc * 0x100 + x.toNat) 0

/-- A field of a stream: its length in so many bytes, then the field. -/
def field (width : Nat) (b : Bytes) : Bytes :=
  bigEndian width b.length ++ b

def stream (width : Nat) (fields : List Bytes) : Bytes :=
  fields.flatMap (field width)

section Length

variable {width : Nat}

@[simp] theorem length_bigEndian (width n : Nat) : (bigEndian width n).length = width := by
  induction width generalizing n with
  | zero => rfl
  | succ width ih => simp [bigEndian, ih]

theorem value_bigEndian {n : Nat} (h : n < 0x100 ^ width) : value (bigEndian width n) = n := by
  induction width generalizing n with
  | zero =>
    have none : n = 0 := by simpa using h
    rw [none]
    rfl
  | succ width ih =>
    have part : n / 0x100 < 0x100 ^ width := by
      rw [Nat.div_lt_iff_lt_mul (by decide), ← Nat.pow_succ]
      exact h
    have high := ih part
    have low : (UInt8.ofNat (n % 0x100)).toNat = n % 0x100 := toNat_ofNat (Nat.mod_lt n (by decide))
    unfold value at high ⊢
    rw [bigEndian, List.foldl_append, high, List.foldl_cons, List.foldl_nil, low]
    omega

theorem bigEndian_inj {m n : Nat} (hm : m < 0x100 ^ width) (hn : n < 0x100 ^ width)
    (h : bigEndian width m = bigEndian width n) : m = n := by
  rw [← value_bigEndian hm, h, value_bigEndian hn]

end Length

section Fields

variable {width : Nat} {a b rest more : Bytes} {xs ys : List Bytes}

/-- The length in front of a field tells where it ends. -/
theorem field_append_inj (ha : a.length < 0x100 ^ width) (hb : b.length < 0x100 ^ width)
    (h : field width a ++ rest = field width b ++ more) : a = b ∧ rest = more := by
  rw [field, field, List.append_assoc, List.append_assoc] at h
  obtain ⟨lengths, h⟩ := List.append_inj h (by simp)
  exact List.append_inj h (bigEndian_inj ha hb lengths)

theorem field_ne_nil (hw : 0 < width) (a : Bytes) : field width a ≠ [] := by
  intro h
  have none := congrArg List.length h
  simp only [field, List.length_append, length_bigEndian, List.length_nil] at none
  omega

/-- A stream of fields of bounded length can be taken apart in one way only. -/
theorem stream_inj (hw : 0 < width) (hx : ∀ x ∈ xs, x.length < 0x100 ^ width)
    (hy : ∀ y ∈ ys, y.length < 0x100 ^ width) (h : stream width xs = stream width ys) :
    xs = ys := by
  induction xs generalizing ys with
  | nil =>
    cases ys with
    | nil => rfl
    | cons y ys =>
      rw [stream, stream, List.flatMap_nil, List.flatMap_cons] at h
      exact absurd (List.append_eq_nil_iff.mp h.symm).1 (field_ne_nil hw y)
  | cons x xs ih =>
    cases ys with
    | nil =>
      rw [stream, stream, List.flatMap_nil, List.flatMap_cons] at h
      exact absurd (List.append_eq_nil_iff.mp h).1 (field_ne_nil hw x)
    | cons y ys =>
      rw [stream, stream, List.flatMap_cons, List.flatMap_cons] at h
      obtain ⟨rfl, others⟩ :=
        field_append_inj (hx x List.mem_cons_self) (hy y List.mem_cons_self) h
      rw [ih (fun z hz => hx z (List.mem_cons_of_mem x hz))
        (fun z hz => hy z (List.mem_cons_of_mem x hz)) others]

end Fields

end Framing

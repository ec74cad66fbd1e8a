import EdgecaseForge.TextUtf8

namespace Sha256

open Text

/-- A word of 32 bits. -/
def word : Nat := 0x100000000

def rotr (n x : Nat) : Nat :=
  x >>> n ||| x <<< (32 - n) % word

def bigSigma0 (x : Nat) : Nat := rotr 2 x ^^^ rotr 13 x ^^^ rotr 22 x

def bigSigma1 (x : Nat) : Nat := rotr 6 x ^^^ rotr 11 x ^^^ rotr 25 x

def smallSigma0 (x : Nat) : Nat := rotr 7 x ^^^ rotr 18 x ^^^ x >>> 3

def smallSigma1 (x : Nat) : Nat := rotr 17 x ^^^ rotr 19 x ^^^ x >>> 10

def choose (x y z : Nat) : Nat := (x &&& y) ^^^ ((word - 1 - x) &&& z)

def majority (x y z : Nat) : Nat := (x &&& y) ^^^ (x &&& z) ^^^ (y &&& z)

def constants : List Nat :=
  [0x428a2f98, 0x71374491, 0xb5c0fbcf, 0xe9b5dba5, 0x3956c25b, 0x59f111f1, 0x923f82a4, 0xab1c5ed5,
    0xd807aa98, 0x12835b01, 0x243185be, 0x550c7dc3, 0x72be5d74, 0x80deb1fe, 0x9bdc06a7, 0xc19bf174,
    0xe49b69c1, 0xefbe4786, 0x0fc19dc6, 0x240ca1cc, 0x2de92c6f, 0x4a7484aa, 0x5cb0a9dc, 0x76f988da,
    0x983e5152, 0xa831c66d, 0xb00327c8, 0xbf597fc7, 0xc6e00bf3, 0xd5a79147, 0x06ca6351, 0x14292967,
    0x27b70a85, 0x2e1b2138, 0x4d2c6dfc, 0x53380d13, 0x650a7354, 0x766a0abb, 0x81c2c92e, 0x92722c85,
    0xa2bfe8a1, 0xa81a664b, 0xc24b8b70, 0xc76c51a3, 0xd192e819, 0xd6990624, 0xf40e3585, 0x106aa070,
    0x19a4c116, 0x1e376c08, 0x2748774c, 0x34b0bcb5, 0x391c0cb3, 0x4ed8aa4a, 0x5b9cca4f, 0x682e6ff3,
    0x748f82ee, 0x78a5636f, 0x84c87814, 0x8cc70208, 0x90befffa, 0xa4506ceb, 0xbef9a3f7, 0xc67178f2]

structure State where
  a : Nat
  b : Nat
  c : Nat
  d : Nat
  e : Nat
  f : Nat
  g : Nat
  h : Nat

def start : State :=
  ⟨0x6a09e667, 0xbb67ae85, 0x3c6ef372, 0xa54ff53a, 0x510e527f, 0x9b05688c, 0x1f83d9ab, 0x5be0cd19⟩

def round (s : State) (k w : Nat) : State :=
  let t1 := s.h + bigSigma1 s.e + choose s.e s.f s.g + k + w
  let t2 := bigSigma0 s.a + majority s.a s.b s.c
  ⟨(t1 + t2) % word, s.a, s.b, s.c, (s.d + t1) % word, s.e, s.f, s.g⟩

/-- The rounds over the constants that are left, with the next sixteen words of the schedule. -/
def rounds (s : State) (ws : List Nat) : List Nat → State
  | [] => s
  | k :: ks =>
    let next := (smallSigma1 (ws.getD 14 0) + ws.getD 9 0 + smallSigma0 (ws.getD 1 0) +
      ws.getD 0 0) % word
    rounds (round s k (ws.getD 0 0)) (ws.tail ++ [next]) ks

def add (s t : State) : State :=
  ⟨(s.a + t.a) % word, (s.b + t.b) % word, (s.c + t.c) % word, (s.d + t.d) % word,
    (s.e + t.e) % word, (s.f + t.f) % word, (s.g + t.g) % word, (s.h + t.h) % word⟩

def words : Bytes → List Nat
  | a :: b :: c :: d :: rest =>
    (a.toNat * 0x1000000 + b.toNat * 0x10000 + c.toNat * 0x100 + d.toNat) :: words rest
  | _ => []

/-- The big-endian bytes of a number, `k` of them. -/
def bigEndian : Nat → Nat → Bytes
  | 0, _ => []
  | k + 1, n => bigEndian k (n / 0x100) ++ [UInt8.ofNat (n % 0x100)]

def padded (message : Bytes) : Bytes :=
  message ++ 0x80 :: (List.replicate ((119 - message.length % 64) % 64) 0 ++
    bigEndian 8 (8 * message.length))

/-- The blocks of sixteen words, one for each unit of fuel. -/
def absorb (s : State) : Nat → List Nat → State
  | 0, _ => s
  | n + 1, ws => absorb (add s (rounds s (ws.take 16) constants)) n (ws.drop 16)

def hexDigit (n : Nat) : CodePoint :=
  if n % 16 < 10 then ⟨0x30 + n % 16, digit_lt n⟩ else ⟨0x57 + n % 16, letter_lt n⟩

def hexText : Nat → Nat → Str
  | 0, _ => []
  | k + 1, n => hexText k (n / 16) ++ [hexDigit n]

/-- `hashlib.sha256(message).hexdigest()`. -/
def sha256 (message : Bytes) : Str :=
  let bytes := padded message
  let s := absorb start (bytes.length / 64) (words bytes)
  [s.a, s.b, s.c, s.d, s.e, s.f, s.g, s.h].flatMap (hexText 8)

def isHexDigit (c : CodePoint) : Bool :=
  decide (0x30 ≤ c.val ∧ c.val ≤ 0x39 ∨ 0x61 ≤ c.val ∧ c.val ≤ 0x66)

theorem hexDigit_isHexDigit (n : Nat) : isHexDigit (hexDigit n) = true := by
  have below : n % 16 < 16 := Nat.mod_lt n (by omega)
  unfold hexDigit isHexDigit
  rw [decide_eq_true_eq]
  split
  next => left; dsimp only; omega
  next => right; dsimp only; omega

theorem hexText_all (k n : Nat) : ∀ c ∈ hexText k n, isHexDigit c = true := by
  induction k generalizing n with
  | zero => simp [hexText]
  | succ k ih =>
    intro c hc
    rcases List.mem_append.mp hc with hc | hc
    · exact ih _ c hc
    · cases List.mem_singleton.mp hc
      exact hexDigit_isHexDigit n

theorem hexText_length (k n : Nat) : (hexText k n).length = k := by
  induction k generalizing n with
  | zero => rfl
  | succ k ih => rw [hexText, List.length_append, ih, List.length_singleton]

/-- Sixty-four hexadecimal digits. -/
@[ext] structure Digest where
  text : Str
  length : text.length = 64
  hex : ∀ c ∈ text, isHexDigit c = true

theorem sha256_hex (message : Bytes) : ∀ c ∈ sha256 message, isHexDigit c = true := by
  intro c hc
  obtain ⟨n, -, hn⟩ := List.mem_flatMap.mp hc
  exact hexText_all 8 n c hn

theorem sha256_length (message : Bytes) : (sha256 message).length = 64 := by
  simp [sha256, hexText_length]

def digest (message : Bytes) : Digest :=
  ⟨sha256 message, sha256_length message, sha256_hex message⟩

theorem isUnicode_of_hex {s : Str} (h : ∀ c ∈ s, isHexDigit c = true) : isUnicode s = true := by
  refine List.all_eq_true.mpr fun c hc => ?_
  have digit := h c hc
  rw [isHexDigit, decide_eq_true_eq] at digit
  simp only [isSurrogate, Bool.not_eq_true', Bool.and_eq_false_iff, decide_eq_false_iff_not]
  omega

theorem sha256_isUnicode (message : Bytes) : isUnicode (sha256 message) = true :=
  isUnicode_of_hex (sha256_hex message)

end Sha256

import EdgecaseForge.TextCore

namespace Text

abbrev Bytes := List UInt8

def isSurrogate (n : Nat) : Bool :=
  0xD800 ≤ n && n < 0xE000

/-- The bytes of a code point; a surrogate has none. -/
def encodeCodePoint (c : CodePoint) : Option Bytes :=
  let n := c.val
  if n < 0x80 then some [UInt8.ofNat n]
  else if n < 0x800 then some [UInt8.ofNat (0xC0 + n / 0x40), UInt8.ofNat (0x80 + n % 0x40)]
  else if isSurrogate n then none
  else if n < 0x10000 then
    some [UInt8.ofNat (0xE0 + n / 0x1000), UInt8.ofNat (0x80 + n / 0x40 % 0x40),
      UInt8.ofNat (0x80 + n % 0x40)]
  else
    some [UInt8.ofNat (0xF0 + n / 0x40000), UInt8.ofNat (0x80 + n / 0x1000 % 0x40),
      UInt8.ofNat (0x80 + n / 0x40 % 0x40), UInt8.ofNat (0x80 + n % 0x40)]

def utf8Encode : Str → Option Bytes
  | [] => some []
  | c :: rest => do
    let bytes ← encodeCodePoint c
    let more ← utf8Encode rest
    return bytes ++ more

def continuation (b : UInt8) : Option Nat :=
  if 0x80 ≤ b.toNat ∧ b.toNat < 0xC0 then some (b.toNat - 0x80) else none

/-- A code point in the range its length allows. -/
def decoded (least n : Nat) : Option CodePoint :=
  if h : n < 0x110000 then
    if least ≤ n ∧ isSurrogate n = false then some ⟨n, h⟩ else none
  else none

def utf8Decode : Bytes → Option Str
  | [] => some []
  | a :: rest =>
    if a.toNat < 0x80 then do
      let c ← decoded 0 a.toNat
      let more ← utf8Decode rest
      return c :: more
    else if a.toNat < 0xC0 then none
    else if a.toNat < 0xE0 then
      match rest with
      | b :: rest => do
        let y ← continuation b
        let c ← decoded 0x80 ((a.toNat - 0xC0) * 0x40 + y)
        let more ← utf8Decode rest
        return c :: more
      | _ => none
    else if a.toNat < 0xF0 then
      match rest with
      | b :: b' :: rest => do
        let y ← continuation b
        let z ← continuation b'
        let c ← decoded 0x800 ((a.toNat - 0xE0) * 0x1000 + y * 0x40 + z)
        let more ← utf8Decode rest
        return c :: more
      | _ => none
    else if a.toNat < 0xF8 then
      match rest with
      | b :: b' :: b'' :: rest => do
        let x ← continuation b
        let y ← continuation b'
        let z ← continuation b''
        let c ← decoded 0x10000 ((a.toNat - 0xF0) * 0x40000 + x * 0x1000 + y * 0x40 + z)
        let more ← utf8Decode rest
        return c :: more
      | _ => none
    else none

theorem toNat_ofNat {n : Nat} (h : n < 0x100) : (UInt8.ofNat n).toNat = n :=
  UInt8.toNat_ofNat_of_lt h

theorem continuation_ofNat {n : Nat} (h : n < 0x40) :
    continuation (UInt8.ofNat (0x80 + n)) = some n := by
  unfold continuation
  rw [toNat_ofNat (by omega), if_pos (by omega), Nat.add_sub_cancel_left]

theorem decoded_val {c : CodePoint} {least : Nat} (hl : least ≤ c.val)
    (hs : isSurrogate c.val = false) : decoded least c.val = some c := by
  unfold decoded
  rw [dif_pos c.isLt, if_pos ⟨hl, hs⟩]

section Decode

variable {c : CodePoint} (rest : Bytes)

theorem utf8Decode_one (h : c.val < 0x80) :
    utf8Decode (UInt8.ofNat c.val :: rest) = (utf8Decode rest).map (c :: ·) := by
  have hs : isSurrogate c.val = false := by simp [isSurrogate]; omega
  have hc : decoded 0 c.val = some c := decoded_val (Nat.zero_le _) hs
  have ha : (UInt8.ofNat c.val).toNat = c.val := toNat_ofNat (by omega)
  rw [utf8Decode.eq_def]
  simp only [ha, if_pos h, hc, Option.bind_eq_bind, Option.bind_some]
  cases utf8Decode rest <;> rfl

theorem utf8Decode_two (low : 0x80 ≤ c.val) (high : c.val < 0x800) :
    utf8Decode (UInt8.ofNat (0xC0 + c.val / 0x40) :: UInt8.ofNat (0x80 + c.val % 0x40) :: rest) =
      (utf8Decode rest).map (c :: ·) := by
  have hs : isSurrogate c.val = false := by simp [isSurrogate]; omega
  have hc : decoded 0x80 c.val = some c := decoded_val low hs
  have ha : (UInt8.ofNat (0xC0 + c.val / 0x40)).toNat = 0xC0 + c.val / 0x40 :=
    toNat_ofNat (by omega)
  have value : (0xC0 + c.val / 0x40 - 0xC0) * 0x40 + c.val % 0x40 = c.val := by omega
  rw [utf8Decode, ha, if_neg (by omega), if_neg (by omega), if_pos (by omega),
    continuation_ofNat (by omega)]
  simp only [Option.bind_eq_bind, Option.bind_some, value, hc]
  cases utf8Decode rest <;> rfl

theorem utf8Decode_three (low : 0x800 ≤ c.val) (high : c.val < 0x10000)
    (hs : isSurrogate c.val = false) :
    utf8Decode (UInt8.ofNat (0xE0 + c.val / 0x1000) :: UInt8.ofNat (0x80 + c.val / 0x40 % 0x40) ::
      UInt8.ofNat (0x80 + c.val % 0x40) :: rest) = (utf8Decode rest).map (c :: ·) := by
  have hc : decoded 0x800 c.val = some c := decoded_val low hs
  have ha : (UInt8.ofNat (0xE0 + c.val / 0x1000)).toNat = 0xE0 + c.val / 0x1000 :=
    toNat_ofNat (by omega)
  have value : (0xE0 + c.val / 0x1000 - 0xE0) * 0x1000 + c.val / 0x40 % 0x40 * 0x40 +
      c.val % 0x40 = c.val := by omega
  have hy : continuation (UInt8.ofNat (0x80 + c.val / 0x40 % 0x40)) = some (c.val / 0x40 % 0x40) :=
    continuation_ofNat (by omega)
  have hz : continuation (UInt8.ofNat (0x80 + c.val % 0x40)) = some (c.val % 0x40) :=
    continuation_ofNat (by omega)
  rw [utf8Decode, ha, if_neg (by omega), if_neg (by omega), if_neg (by omega), if_pos (by omega)]
  simp only [Option.bind_eq_bind, Option.bind_some, hy, hz, value, hc]
  cases utf8Decode rest <;> rfl

theorem utf8Decode_four (low : 0x10000 ≤ c.val) :
    utf8Decode (UInt8.ofNat (0xF0 + c.val / 0x40000) ::
      UInt8.ofNat (0x80 + c.val / 0x1000 % 0x40) :: UInt8.ofNat (0x80 + c.val / 0x40 % 0x40) ::
      UInt8.ofNat (0x80 + c.val % 0x40) :: rest) = (utf8Decode rest).map (c :: ·) := by
  have bound := c.isLt
  have hs : isSurrogate c.val = false := by simp [isSurrogate]; omega
  have hc : decoded 0x10000 c.val = some c := decoded_val low hs
  have ha : (UInt8.ofNat (0xF0 + c.val / 0x40000)).toNat = 0xF0 + c.val / 0x40000 :=
    toNat_ofNat (by omega)
  have value : (0xF0 + c.val / 0x40000 - 0xF0) * 0x40000 + c.val / 0x1000 % 0x40 * 0x1000 +
      c.val / 0x40 % 0x40 * 0x40 + c.val % 0x40 = c.val := by omega
  have hx : continuation (UInt8.ofNat (0x80 + c.val / 0x1000 % 0x40)) =
      some (c.val / 0x1000 % 0x40) := continuation_ofNat (by omega)
  have hy : continuation (UInt8.ofNat (0x80 + c.val / 0x40 % 0x40)) = some (c.val / 0x40 % 0x40) :=
    continuation_ofNat (by omega)
  have hz : continuation (UInt8.ofNat (0x80 + c.val % 0x40)) = some (c.val % 0x40) :=
    continuation_ofNat (by omega)
  rw [utf8Decode, ha, if_neg (by omega), if_neg (by omega), if_neg (by omega), if_neg (by omega),
    if_pos (by omega)]
  dsimp only [Option.bind_eq_bind]
  rw [hx, hy, hz, Option.bind_some, Option.bind_some, Option.bind_some, value, hc]
  cases utf8Decode rest <;> rfl

theorem utf8Decode_codePoint {bytes : Bytes} (h : encodeCodePoint c = some bytes) :
    utf8Decode (bytes ++ rest) = (utf8Decode rest).map (c :: ·) := by
  unfold encodeCodePoint at h
  dsimp only at h
  split at h
  next h1 =>
    cases h
    exact utf8Decode_one rest h1
  next h1 =>
    split at h
    next h2 =>
      cases h
      exact utf8Decode_two rest (by omega) h2
    next h2 =>
      split at h
      next => cases h
      next hs =>
        split at h
        next h3 =>
          cases h
          exact utf8Decode_three rest (by omega) h3 (by simpa using hs)
        next h3 =>
          cases h
          exact utf8Decode_four rest (by omega)

end Decode

/-- Decoding takes encoded text back. -/
theorem utf8Decode_encode {s : Str} {bytes : Bytes} (h : utf8Encode s = some bytes) :
    utf8Decode bytes = some s := by
  induction s generalizing bytes with
  | nil =>
    cases h
    rfl
  | cons c rest ih =>
    obtain ⟨first, hc, h⟩ := Option.bind_eq_some_iff.mp h
    obtain ⟨more, hm, h⟩ := Option.bind_eq_some_iff.mp h
    cases h
    rw [utf8Decode_codePoint more hc, ih hm]
    rfl

theorem utf8Encode_append {s t : Str} {bytes more : Bytes} (hs : utf8Encode s = some bytes)
    (ht : utf8Encode t = some more) : utf8Encode (s ++ t) = some (bytes ++ more) := by
  induction s generalizing bytes with
  | nil =>
    cases hs
    exact ht
  | cons c rest ih =>
    obtain ⟨first, hc, hs⟩ := Option.bind_eq_some_iff.mp hs
    obtain ⟨others, ho, hs⟩ := Option.bind_eq_some_iff.mp hs
    cases hs
    simp [utf8Encode, hc, ih ho]

/-- Encoding goes part by part. -/
theorem utf8Encode_append_eq_some {s t : Str} {bytes : Bytes} :
    utf8Encode (s ++ t) = some bytes ↔
      ∃ first more, utf8Encode s = some first ∧ utf8Encode t = some more ∧ bytes = first ++ more := by
  constructor
  · intro h
    induction s generalizing bytes with
    | nil => exact ⟨[], bytes, rfl, h, rfl⟩
    | cons c rest ih =>
      obtain ⟨head, hc, h⟩ := Option.bind_eq_some_iff.mp h
      obtain ⟨others, ho, h⟩ := Option.bind_eq_some_iff.mp h
      obtain ⟨first, more, hf, hm, rfl⟩ := ih ho
      cases h
      exact ⟨head ++ first, more, by simp [utf8Encode, hc, hf], hm, by simp⟩
  · rintro ⟨first, more, hs, ht, rfl⟩
    exact utf8Encode_append hs ht

section Unicode

/-- A text without surrogates. -/
def isUnicode (s : Str) : Bool :=
  s.all fun c => !isSurrogate c.val

theorem encodeCodePoint_isSome (c : CodePoint) :
    (encodeCodePoint c).isSome = !isSurrogate c.val := by
  unfold encodeCodePoint
  dsimp only
  split
  next h =>
    have hs : isSurrogate c.val = false := by simp [isSurrogate]; omega
    rw [hs]
    rfl
  next =>
    split
    next h =>
      have hs : isSurrogate c.val = false := by simp [isSurrogate]; omega
      rw [hs]
      rfl
    next =>
      cases isSurrogate c.val with
      | true => rfl
      | false =>
        rw [if_neg Bool.false_ne_true]
        split <;> rfl

/-- The texts without surrogates are those that have an encoding. -/
theorem utf8Encode_isSome (s : Str) : (utf8Encode s).isSome = isUnicode s := by
  induction s with
  | nil => rfl
  | cons c rest ih =>
    rw [isUnicode, List.all_cons, ← encodeCodePoint_isSome, ← isUnicode, ← ih, utf8Encode]
    cases encodeCodePoint c <;> cases utf8Encode rest <;> rfl

theorem decoded_scalar {least n : Nat} {c : CodePoint} (h : decoded least n = some c) :
    isSurrogate c.val = false := by
  unfold decoded at h
  split at h
  · split at h
    next hs =>
      cases h
      exact hs.2
    next => cases h
  · cases h

/-- Decoded text has no surrogates. -/
theorem utf8Decode_isUnicode {bytes : Bytes} {s : Str} (h : utf8Decode bytes = some s) :
    isUnicode s = true := by
  have cons : ∀ {least n : Nat} {more : Option Str} {s : Str},
      (∀ {t : Str}, more = some t → isUnicode t = true) →
      (do let c ← decoded least n; let more ← more; return c :: more) = some s →
      isUnicode s = true := by
    intro least n more s hm h
    obtain ⟨c, hc, h⟩ := Option.bind_eq_some_iff.mp h
    obtain ⟨t, ht, h⟩ := Option.bind_eq_some_iff.mp h
    cases h
    have ht := hm ht
    simpa [isUnicode, decoded_scalar hc] using ht
  fun_induction utf8Decode bytes generalizing s with
  | case1 =>
    cases h
    rfl
  | case2 a rest ha ih => exact cons ih h
  | case4 a ha ha' ha'' b rest ih =>
    obtain ⟨y, -, h⟩ := Option.bind_eq_some_iff.mp h
    exact cons ih h
  | case6 a ha ha' ha'' ha3 b b' rest ih =>
    obtain ⟨y, -, h⟩ := Option.bind_eq_some_iff.mp h
    obtain ⟨z, -, h⟩ := Option.bind_eq_some_iff.mp h
    exact cons ih h
  | case8 a ha ha' ha'' ha3 ha4 b b' b'' rest ih =>
    obtain ⟨x, -, h⟩ := Option.bind_eq_some_iff.mp h
    obtain ⟨y, -, h⟩ := Option.bind_eq_some_iff.mp h
    obtain ⟨z, -, h⟩ := Option.bind_eq_some_iff.mp h
    exact cons ih h
  | _ => cases h

theorem universalNewlines_isUnicode {s : Str} (h : isUnicode s = true) :
    isUnicode (universalNewlines s) = true := by
  have feed : isSurrogate lineFeed.val = false := by decide
  induction s with
  | nil => rfl
  | cons c rest ih =>
    rw [isUnicode, List.all_cons, Bool.and_eq_true] at h
    have hr := ih h.2
    unfold universalNewlines
    split
    · split
      · exact hr
      · rw [isUnicode, List.all_cons, feed]
        exact hr
    · rw [isUnicode, List.all_cons, h.1]
      exact hr

end Unicode
end Text

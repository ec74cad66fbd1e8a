import EdgecaseForge.JsonFiles

namespace EdgecaseForge

open Text

/-- The encodings that `json.detect_encoding` tells apart. -/
inductive JsonEncoding
  | utf8
  | utf8Sig
  | utf16 (little : Bool)
  | utf16Marked (little : Bool)
  | utf32 (little : Bool)
  | utf32Marked (little : Bool)
  deriving DecidableEq

section Detection

def nullByte : UInt8 := 0

/-- What the null bytes at the start tell of the encoding. -/
def unmarkedEncoding : Bytes → JsonEncoding
  | [a, b] =>
    if a = nullByte then .utf16 false
    else if b = nullByte then .utf16 true
    else .utf8
  | a :: b :: c :: d :: _ =>
    if a = nullByte then
      if b = nullByte then .utf32 false else .utf16 false
    else if b = nullByte then
      if c = nullByte ∧ d = nullByte then .utf32 true else .utf16 true
    else .utf8
  | _ => .utf8

/-- `json.detect_encoding`: the byte order marks, and then the null bytes at the start. -/
def detectEncoding (bytes : Bytes) : JsonEncoding :=
  if [0x00, 0x00, 0xFE, 0xFF].isPrefixOf bytes then .utf32Marked false
  else if [0xFF, 0xFE, 0x00, 0x00].isPrefixOf bytes then .utf32Marked true
  else if [0xFE, 0xFF].isPrefixOf bytes then .utf16Marked false
  else if [0xFF, 0xFE].isPrefixOf bytes then .utf16Marked true
  else if [0xEF, 0xBB, 0xBF].isPrefixOf bytes then .utf8Sig
  else unmarkedEncoding bytes

end Detection

section Decoders

/-- A code point, surrogates among them. -/
def codePoint (n : Nat) : Option CodePoint :=
  if h : n < 0x110000 then some ⟨n, h⟩ else none

/-- How many bytes the sequence has that a byte begins. -/
def sequenceLength (a : UInt8) : Nat :=
  if a.toNat < 0x80 then 1
  else if a.toNat < 0xE0 then 2
  else if a.toNat < 0xF0 then 3
  else 4

/-- The code point of a sequence. A surrogate has three bytes, as its neighbours do. -/
def pointPass (bytes : Bytes) : Option CodePoint :=
  match utf8Decode bytes with
  | some [c] => some c
  | _ =>
    match bytes with
    | [0xED, b, b'] => do
      let y ← continuation b
      let z ← continuation b'
      codePoint (0xD000 + y * 0x40 + z)
    | _ => none

/-- `decode("utf-8", "surrogatepass")`. -/
def utf8DecodePass : Bytes → Option Str
  | [] => some []
  | a :: rest => do
    let c ← pointPass ((a :: rest).take (sequenceLength a))
    let more ← utf8DecodePass ((a :: rest).drop (sequenceLength a))
    return c :: more
termination_by bytes => bytes.length
decreasing_by
  have some : 0 < sequenceLength a := by
    unfold sequenceLength
    split_ifs <;> omega
  rw [List.length_drop, List.length_cons]
  omega

/-- The units of two bytes of a text. -/
def unitsOf (little : Bool) : Bytes → Option (List Nat)
  | [] => some []
  | a :: b :: rest => do
    let units ← unitsOf little rest
    return (if little then b.toNat * 0x100 + a.toNat else a.toNat * 0x100 + b.toNat) :: units
  | _ => none

def isHighSurrogate (n : Nat) : Bool :=
  0xD800 ≤ n && n < 0xDC00

def isLowSurrogate (n : Nat) : Bool :=
  0xDC00 ≤ n && n < 0xE000

/-- The code points of units: a pair of surrogates is one, a surrogate on its own stays. -/
def pointsOfUnits : List Nat → Option Str
  | [] => some []
  | high :: low :: rest =>
    if isHighSurrogate high && isLowSurrogate low then do
      let c ← codePoint (0x10000 + (high - 0xD800) * 0x400 + (low - 0xDC00))
      let more ← pointsOfUnits rest
      return c :: more
    else do
      let c ← codePoint high
      let more ← pointsOfUnits (low :: rest)
      return c :: more
  | [unit] => (codePoint unit).map fun c => [c]

def utf16DecodePass (little : Bool) (bytes : Bytes) : Option Str := do
  let units ← unitsOf little bytes
  pointsOfUnits units

def utf32DecodePass (little : Bool) : Bytes → Option Str
  | [] => some []
  | a :: b :: c :: d :: rest => do
    let n := if little then [d, c, b, a] else [a, b, c, d]
    let point ← codePoint (n.foldl (fun value byte => value * 0x100 + byte.toNat) 0)
    let more ← utf32DecodePass little rest
    return point :: more
  | _ => none

/-- `bytes.decode(detect_encoding(bytes), "surrogatepass")`. -/
def decodeJsonBytes (bytes : Bytes) : Except PyError Str :=
  let text :=
    match detectEncoding bytes with
    | .utf8 => utf8DecodePass bytes
    | .utf8Sig => utf8DecodePass (bytes.drop 3)
    | .utf16 little => utf16DecodePass little bytes
    | .utf16Marked little => utf16DecodePass little (bytes.drop 2)
    | .utf32 little => utf32DecodePass little bytes
    | .utf32Marked little => utf32DecodePass little (bytes.drop 4)
  match text with
  | some s => .ok s
  | none => .error .unicodeDecodeError

/-- `json.loads` of bytes. -/
def jsonLoadsBytes (bytes : Bytes) : Except PyError Json := do
  let s ← decodeJsonBytes bytes
  jsonLoads s

end Decoders

section Encoded

variable {s : Str} {bytes rest : Bytes} {c : CodePoint}

theorem sequenceLength_codePoint (h : encodeCodePoint c = some bytes) :
    ∃ a tail, bytes = a :: tail ∧ sequenceLength a = bytes.length := by
  have bound := c.isLt
  unfold encodeCodePoint at h
  dsimp only at h
  split_ifs at h with one two surrogate three
  · cases h
    refine ⟨_, _, rfl, ?_⟩
    rw [sequenceLength, toNat_ofNat (by omega), if_pos one]
    rfl
  · cases h
    refine ⟨_, _, rfl, ?_⟩
    rw [sequenceLength, toNat_ofNat (by omega), if_neg (by omega), if_pos (by omega)]
    rfl
  · cases h
    refine ⟨_, _, rfl, ?_⟩
    rw [sequenceLength, toNat_ofNat (by omega), if_neg (by omega), if_neg (by omega), if_pos (by omega)]
    rfl
  · cases h
    refine ⟨_, _, rfl, ?_⟩
    rw [sequenceLength, toNat_ofNat (by omega), if_neg (by omega), if_neg (by omega), if_neg (by omega)]
    rfl

theorem utf8DecodePass_codePoint (h : encodeCodePoint c = some bytes) :
    utf8DecodePass (bytes ++ rest) = (utf8DecodePass rest).map (c :: ·) := by
  have alone : pointPass bytes = some c := by
    have whole := utf8Decode_codePoint [] h
    rw [List.append_nil, utf8Decode, Option.map_some] at whole
    unfold pointPass
    rw [whole]
  obtain ⟨a, tail, rfl, length⟩ := sequenceLength_codePoint h
  rw [List.cons_append, utf8DecodePass, length, ← List.cons_append, List.take_left, List.drop_left, alone]
  cases utf8DecodePass rest <;> rfl

/-- Text that can be encoded is read back, also where surrogates may pass. -/
theorem utf8DecodePass_encode (h : utf8Encode s = some bytes) : utf8DecodePass bytes = some s := by
  induction s generalizing bytes with
  | nil =>
    cases h
    rw [utf8DecodePass]
  | cons c s ih =>
    obtain ⟨first, hc, h⟩ := Option.bind_eq_some_iff.mp h
    obtain ⟨more, hm, h⟩ := Option.bind_eq_some_iff.mp h
    cases h
    rw [utf8DecodePass_codePoint hc, ih hm]
    rfl

theorem detectEncoding_ascii {a b : UInt8} (ha : a.toNat < 0x80) (hna : a ≠ nullByte) (hnb : b ≠ nullByte) :
    detectEncoding (a :: b :: rest) = .utf8 := by
  have unmarked : ∀ (m : UInt8) (mark : Bytes), m ≠ a → (m :: mark).isPrefixOf (a :: b :: rest) = false := by
    intro m mark differ
    rw [List.isPrefixOf, beq_eq_false_iff_ne.mpr differ, Bool.false_and]
  have high : ∀ m : UInt8, 0x80 ≤ m.toNat → m ≠ a := by
    rintro m hm rfl
    omega
  rw [detectEncoding, unmarked 0x00 _ hna.symm, unmarked 0xFF _ (high 0xFF (by decide)),
    unmarked 0xFE _ (high 0xFE (by decide)), unmarked 0xFF _ (high 0xFF (by decide)),
    unmarked 0xEF _ (high 0xEF (by decide))]
  simp only [Bool.false_eq_true, if_false]
  rcases rest with _ | ⟨c, _ | ⟨d, rest⟩⟩
  · rw [unmarkedEncoding, if_neg hna, if_neg hnb]
  · rfl
  · rw [unmarkedEncoding, if_neg hna, if_neg hnb]

/-- The bytes of a text that begins with two characters of ASCII. -/
theorem decodeJsonBytes_encoded {d : CodePoint} (hc : 0 < c.val ∧ c.val < 0x80) (hd : 0 < d.val ∧ d.val < 0x80)
    (h : utf8Encode (c :: d :: s) = some bytes) : decodeJsonBytes bytes = .ok (c :: d :: s) := by
  have passed := utf8DecodePass_encode h
  obtain ⟨first, hf, h⟩ := Option.bind_eq_some_iff.mp h
  obtain ⟨more, hm, h⟩ := Option.bind_eq_some_iff.mp h
  obtain ⟨second, hs, hm⟩ := Option.bind_eq_some_iff.mp hm
  obtain ⟨rest, hr, hm⟩ := Option.bind_eq_some_iff.mp hm
  cases hm
  cases h
  rw [encodeCodePoint, if_pos hc.2] at hf
  rw [encodeCodePoint, if_pos hd.2] at hs
  cases hf
  cases hs
  have plain : ∀ {e : CodePoint}, 0 < e.val ∧ e.val < 0x80 →
      (UInt8.ofNat e.val).toNat < 0x80 ∧ UInt8.ofNat e.val ≠ nullByte := by
    intro e he
    have value : (UInt8.ofNat e.val).toNat = e.val := toNat_ofNat (by omega)
    refine ⟨by omega, fun null => ?_⟩
    rw [null] at value
    simp only [nullByte, UInt8.toNat_zero] at value
    omega
  have detected : detectEncoding (UInt8.ofNat c.val :: UInt8.ofNat d.val :: rest) = .utf8 :=
    detectEncoding_ascii (plain hc).1 (plain hc).2 (plain hd).2
  rw [decodeJsonBytes]
  simp only [List.singleton_append] at passed ⊢
  rw [detected]
  simp only [passed]

end Encoded

end EdgecaseForge

import Mathlib.Data.List.Basic

namespace Text

/-- A Unicode code point, surrogates included. -/
abbrev CodePoint := Fin 0x110000

instance CodePoint.neZero : @NeZero Nat Zero.ofOfNat0 0x110000 :=
  ⟨Nat.succ_ne_zero _⟩

/-- Python text: any sequence of code points. -/
abbrev Str := List CodePoint

instance Str.lawfulBEq : @LawfulBEq Str List.instBEq :=
  List.instLawfulBEq

theorem char_lt (c : Char) : c.toNat < 0x110000 := by
  have hv : c.toNat.isValidChar := c.valid
  unfold Nat.isValidChar at hv
  omega

theorem digit_lt (n : Nat) : 0x30 + n % 16 < 0x110000 := by
  omega

theorem letter_lt (n : Nat) : 0x57 + n % 16 < 0x110000 := by
  omega

def ofChar (c : Char) : CodePoint :=
  ⟨c.toNat, char_lt c⟩

theorem byte_lt (b : UInt8) : b.toNat < 0x110000 := by
  have hb := b.toNat_lt
  omega

def ofByte (b : UInt8) : CodePoint :=
  ⟨b.toNat, byte_lt b⟩

/-- The text of a literal. In ASCII its bytes are its code points. -/
def lit (s : String) : Str :=
  let bytes := s.toByteArray.data.toList
  if bytes.all fun b => b.toNat < 0x80 then bytes.map ofByte else s.toList.map ofChar

theorem literal_bytes (s : String) : s.toByteArray.data.toList = s.toList.flatMap String.utf8EncodeChar := by
  have encoded : s.toList.utf8Encode = s.toByteArray := String.utf8Encode_toList
  rw [← encoded, List.utf8Encode, List.data_toByteArray]

theorem lead_high {n : Nat} {rest : List UInt8} (high : 0x80 ≤ n % 0x100) :
    ¬ ∀ b ∈ UInt8.ofNat n :: rest, b.toNat < 0x80 := by
  intro h
  have first := h _ List.mem_cons_self
  rw [UInt8.toNat_ofNat'] at first
  omega

/-- A character whose bytes are all in ASCII has one of them. -/
theorem ascii_char {c : Char} (h : ∀ b ∈ String.utf8EncodeChar c, b.toNat < 0x80) :
    (String.utf8EncodeChar c).map ofByte = [ofChar c] := by
  have value : c.val.toNat = c.toNat := rfl
  unfold String.utf8EncodeChar at h ⊢
  dsimp only at h ⊢
  rw [value] at h ⊢
  split at h
  next small =>
    have byte : (UInt8.ofNat c.toNat).toNat = c.toNat :=
      UInt8.toNat_ofNat_of_lt' (Nat.lt_of_le_of_lt small (by decide))
    rw [if_pos small]
    simp only [List.map_cons, List.map_nil, ofByte, ofChar, byte]
  next =>
    split at h
    · exact absurd h (lead_high (by omega))
    · split at h
      · exact absurd h (lead_high (by omega))
      · exact absurd h (lead_high (by omega))

theorem lit_eq (s : String) : lit s = s.toList.map ofChar := by
  unfold lit
  dsimp only
  split
  next ascii =>
    rw [literal_bytes] at ascii ⊢
    have below : ∀ c ∈ s.toList, ∀ b ∈ String.utf8EncodeChar c, b.toNat < 0x80 := by
      intro c hc b hb
      exact of_decide_eq_true (List.all_eq_true.mp ascii b (List.mem_flatMap.mpr ⟨c, hc, hb⟩))
    generalize s.toList = chars at below
    induction chars with
    | nil => rfl
    | cons c chars ih =>
      obtain ⟨first, others⟩ := List.forall_mem_cons.mp below
      rw [List.flatMap_cons, List.map_append, ascii_char first, ih others]
      rfl
  next => rfl

theorem ofChar_injective {a b : Char} (h : ofChar a = ofChar b) : a = b := by
  have hn : a.toNat = b.toNat := Fin.mk.inj h
  exact Char.toNat_inj.mp hn

@[simp] theorem lit_inj {a b : String} : lit a = lit b ↔ a = b := by
  refine ⟨fun h => ?_, fun h => h ▸ rfl⟩
  rw [lit_eq, lit_eq] at h
  have hl : a.toList = b.toList := List.map_injective_iff.mpr (fun _ _ => ofChar_injective) h
  exact String.toList_inj.mp hl

def lineFeed : CodePoint := 0x0A

def carriageReturn : CodePoint := 0x0D

/-- The code points that `str.splitlines` ends a line at. -/
def isLineBreak (c : CodePoint) : Bool :=
  (0x0A ≤ c && c ≤ 0x0D) || (0x1C ≤ c && c ≤ 0x1E) || c == 0x85 || c == 0x2028 || c == 0x2029

/-- The code points that `str.isspace` accepts. -/
def isSpace (c : CodePoint) : Bool :=
  (0x09 ≤ c && c ≤ 0x0D) || (0x1C ≤ c && c ≤ 0x20) || c == 0x85 || c == 0xA0 || c == 0x1680 ||
    (0x2000 ≤ c && c ≤ 0x200A) || c == 0x2028 || c == 0x2029 || c == 0x202F || c == 0x205F ||
    c == 0x3000

/-- A carriage return before a line feed ends no line of its own. -/
def splitLines : Str → List Str
  | [] => []
  | c :: rest =>
    if c = carriageReturn ∧ rest.head? = some lineFeed then splitLines rest
    else if isLineBreak c then [] :: splitLines rest
    else
      match splitLines rest with
      | [] => [[c]]
      | line :: lines => (c :: line) :: lines

def lstrip (s : Str) : Str :=
  s.dropWhile isSpace

def rstrip (s : Str) : Str :=
  (s.reverse.dropWhile isSpace).reverse

def strip (s : Str) : Str :=
  rstrip (lstrip s)

def startsWith (s pre : Str) : Bool :=
  pre.isPrefixOf s

def endsWith (s suffix : Str) : Bool :=
  suffix.isSuffixOf s

/-- The index of the first occurrence of a code point. -/
def find (s : Str) (c : CodePoint) : Option Nat :=
  s.findIdx? (· == c)

def contains (s part : Str) : Bool :=
  s.tails.any part.isPrefixOf

/-- `str.lower` as far as its result is ASCII. -/
def lower (s : Str) : Str :=
  s.map fun c =>
    if h : 0x41 ≤ c.val ∧ c.val ≤ 0x5A then ⟨c.val + 0x20, by have := c.isLt; omega⟩
    else if c = 0x212A then 0x6B
    else c

def replace (s : Str) (old new : CodePoint) : Str :=
  s.map fun c => if c = old then new else c

/-- `separator.join(parts)`. -/
def join (separator : CodePoint) : List Str → Str
  | [] => []
  | [part] => part
  | part :: parts => part ++ separator :: join separator parts

theorem mem_join {separator c : CodePoint} {parts : List Str} (h : c ∈ join separator parts) :
    c = separator ∨ ∃ part ∈ parts, c ∈ part := by
  induction parts with
  | nil => simp [join] at h
  | cons part parts ih =>
    cases parts with
    | nil => exact Or.inr ⟨part, by simp, h⟩
    | cons next parts =>
      rcases List.mem_append.mp h with h | h
      · exact Or.inr ⟨part, by simp, h⟩
      · rcases List.mem_cons.mp h with rfl | h
        · exact Or.inl rfl
        · rcases ih h with h | ⟨p, hp, hc⟩
          · exact Or.inl h
          · exact Or.inr ⟨p, List.mem_cons_of_mem part hp, hc⟩

/-- `s.split(separator)`: the part up to the first separator, and the parts after it. -/
def splitAt (separator : CodePoint) : Str → Str × List Str
  | [] => ([], [])
  | c :: rest =>
    let (first, others) := splitAt separator rest
    if c = separator then ([], first :: others) else (c :: first, others)

def split (separator : CodePoint) (s : Str) : List Str :=
  (splitAt separator s).1 :: (splitAt separator s).2

theorem splitAt_append {separator : CodePoint} {s : Str} (hs : separator ∉ s) (rest : Str) :
    splitAt separator (s ++ separator :: rest) =
      (s, (splitAt separator rest).1 :: (splitAt separator rest).2) := by
  induction s with
  | nil => simp [splitAt]
  | cons c s ih =>
    rw [List.mem_cons, not_or] at hs
    simp [splitAt, ih hs.2, Ne.symm hs.1]

theorem splitAt_plain {separator : CodePoint} {s : Str} (hs : separator ∉ s) :
    splitAt separator s = (s, []) := by
  induction s with
  | nil => rfl
  | cons c s ih =>
    rw [List.mem_cons, not_or] at hs
    simp [splitAt, ih hs.2, Ne.symm hs.1]

theorem split_join {separator : CodePoint} {part : Str} {parts : List Str}
    (h : ∀ p ∈ part :: parts, separator ∉ p) :
    split separator (join separator (part :: parts)) = part :: parts := by
  have first := h part List.mem_cons_self
  induction parts generalizing part with
  | nil => simp [join, split, splitAt_plain first]
  | cons next parts ih =>
    have others : ∀ p ∈ next :: parts, separator ∉ p := fun p hp => h p (List.mem_cons_of_mem _ hp)
    have rest := ih others (others next List.mem_cons_self)
    simp only [split] at rest
    simp only [join, split, splitAt_append first]
    rw [rest]

/-- What reading a file in text mode makes of its line ends. -/
def universalNewlines : Str → Str
  | [] => []
  | c :: rest =>
    if c = carriageReturn then
      if rest.head? = some lineFeed then universalNewlines rest
      else lineFeed :: universalNewlines rest
    else c :: universalNewlines rest

theorem universalNewlines_of_forall {s : Str} (h : ∀ c ∈ s, c ≠ carriageReturn) :
    universalNewlines s = s := by
  induction s with
  | nil => rfl
  | cons c rest ih =>
    have hc := h c List.mem_cons_self
    simp [universalNewlines, hc, ih fun d hd => h d (List.mem_cons_of_mem c hd)]

section Lines

theorem isLineBreak_lineFeed : isLineBreak lineFeed = true := by decide

theorem isLineBreak_carriageReturn : isLineBreak carriageReturn = true := by decide

theorem splitLines_lineFeed (rest : Str) :
    splitLines (lineFeed :: rest) = [] :: splitLines rest := by
  simp [splitLines, isLineBreak_lineFeed, show lineFeed ≠ carriageReturn by decide]

theorem splitLines_ne_nil {s : Str} (hs : s ≠ []) : splitLines s ≠ [] := by
  induction s with
  | nil => exact absurd rfl hs
  | cons c rest ih =>
    unfold splitLines
    split
    next h =>
      apply ih
      rintro rfl
      simp at h
    next =>
      split
      · simp
      · split <;> simp

/-- A line feed ends its line, whatever comes before it. -/
theorem splitLines_append_lineFeed (s rest : Str) :
    splitLines (s ++ lineFeed :: rest) = splitLines (s ++ [lineFeed]) ++ splitLines rest := by
  induction s with
  | nil => simp [splitLines_lineFeed, splitLines]
  | cons c s ih =>
    have head : (s ++ lineFeed :: rest).head? = (s ++ [lineFeed]).head? := by
      cases s <;> rfl
    simp only [List.cons_append, splitLines, head, ih]
    split
    next => rfl
    next =>
      split
      next => rfl
      next =>
        cases hs : splitLines (s ++ [lineFeed]) with
        | nil => exact absurd hs (splitLines_ne_nil (by simp))
        | cons line lines => rfl

/-- Text without line breaks is one line, up to the line feed after it. -/
theorem splitLines_line {s : Str} (h : ∀ c ∈ s, isLineBreak c = false) :
    splitLines (s ++ [lineFeed]) = [s] := by
  induction s with
  | nil => simp [splitLines_lineFeed, splitLines]
  | cons c s ih =>
    have hc : isLineBreak c = false := h c List.mem_cons_self
    have hne : c ≠ carriageReturn := by
      rintro rfl
      simp [isLineBreak_carriageReturn] at hc
    simp [splitLines, hne, hc, ih fun d hd => h d (List.mem_cons_of_mem c hd)]

/-- The first line break that is no carriage return ends the first line. -/
theorem splitLines_break {s : Str} {c : CodePoint} (h : ∀ d ∈ s, isLineBreak d = false)
    (hc : isLineBreak c = true) (hne : c ≠ carriageReturn) (rest : Str) :
    splitLines (s ++ c :: rest) = s :: splitLines rest := by
  induction s with
  | nil => simp [splitLines, hc, hne]
  | cons d s ih =>
    have hd : isLineBreak d = false := h d List.mem_cons_self
    have other : d ≠ carriageReturn := by
      rintro rfl
      simp [isLineBreak_carriageReturn] at hd
    simp [splitLines, other, hd, ih fun e he => h e (List.mem_cons_of_mem d he)]

theorem length_splitLines_cons (c : CodePoint) (rest : Str) :
    (splitLines rest).length ≤ (splitLines (c :: rest)).length := by
  rw [splitLines]
  split
  · exact Nat.le_refl _
  · split
    · simp
    · split <;> simp [*]

/-- A line break that is no carriage return adds a line. -/
theorem two_le_length_splitLines {s : Str} {c : CodePoint} (hm : c ∈ s)
    (hc : isLineBreak c = true) (hne : c ≠ carriageReturn) :
    2 ≤ (splitLines (s ++ [lineFeed])).length := by
  induction s with
  | nil => simp at hm
  | cons d s ih =>
    rcases List.mem_cons.mp hm with rfl | hm
    · have more : splitLines (s ++ [lineFeed]) ≠ [] := splitLines_ne_nil (by simp)
      have := List.length_pos_of_ne_nil more
      simp only [List.cons_append, splitLines, hne, hc, false_and, if_false, if_true,
        List.length_cons]
      omega
    · exact Nat.le_trans (ih hm) (length_splitLines_cons d _)

theorem splitLines_flatMap {lines : List Str}
    (h : ∀ line ∈ lines, ∀ c ∈ line, isLineBreak c = false) :
    splitLines (lines.flatMap fun line => line ++ [lineFeed]) = lines := by
  induction lines with
  | nil => rfl
  | cons line lines ih =>
    rw [List.flatMap_cons, List.append_assoc, List.singleton_append, splitLines_append_lineFeed,
      splitLines_line (h line List.mem_cons_self), ih fun l hl => h l (List.mem_cons_of_mem _ hl)]
    rfl

theorem length_le_splitLines_flatMap (lines : List Str) :
    lines.length ≤ (splitLines (lines.flatMap fun line => line ++ [lineFeed])).length := by
  induction lines with
  | nil => simp
  | cons line lines ih =>
    have some := List.length_pos_of_ne_nil (splitLines_ne_nil (s := line ++ [lineFeed]) (by simp))
    rw [List.flatMap_cons, List.append_assoc, List.singleton_append, splitLines_append_lineFeed,
      List.length_append, List.length_cons]
    omega

/-- One more break inside a line makes more lines than were written. -/
theorem length_lt_splitLines_flatMap {lines : List Str} {line : Str} {c : CodePoint}
    (hl : line ∈ lines) (hm : c ∈ line) (hc : isLineBreak c = true) (hne : c ≠ carriageReturn) :
    lines.length < (splitLines (lines.flatMap fun line => line ++ [lineFeed])).length := by
  induction lines with
  | nil => simp at hl
  | cons first lines ih =>
    rw [List.flatMap_cons, List.append_assoc, List.singleton_append, splitLines_append_lineFeed,
      List.length_append, List.length_cons]
    rcases List.mem_cons.mp hl with rfl | hl
    · have two := two_le_length_splitLines hm hc hne
      have rest := length_le_splitLines_flatMap lines
      omega
    · have some := List.length_pos_of_ne_nil
        (splitLines_ne_nil (s := first ++ [lineFeed]) (by simp))
      have := ih hl
      omega

end Lines

end Text

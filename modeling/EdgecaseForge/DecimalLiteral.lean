import EdgecaseForge.DecimalDigits

namespace Decimal

open Text

def minus : CodePoint := 0x2D

def plus : CodePoint := 0x2B

def point : CodePoint := 0x2E

/-- A number as it is written: sign, digits before and after the point, exponent. -/
structure Literal where
  neg : Bool
  whole : Str
  frac : Str
  exp : Option (Bool × Str)
  deriving DecidableEq

def Literal.isInt (l : Literal) : Bool :=
  l.frac.isEmpty && l.exp.isNone

def Literal.expText : Option (Bool × Str) → Str
  | none => []
  | some (neg, digits) => 0x65 :: (if neg then minus else plus) :: digits

def Literal.text (l : Literal) : Str :=
  (if l.neg then [minus] else []) ++ l.whole ++ (if l.frac = [] then [] else point :: l.frac) ++
    Literal.expText l.exp

/-- A written whole part has no leading zero, and a written exponent has digits. -/
structure Literal.Wf (l : Literal) : Prop where
  whole : l.whole = [0x30] ∨ ∃ c rest, l.whole = c :: rest ∧ c ≠ 0x30 ∧ isDigit c = true ∧
    ∀ d ∈ rest, isDigit d = true
  frac : ∀ c ∈ l.frac, isDigit c = true
  exp : ∀ neg digits, l.exp = some (neg, digits) → digits ≠ [] ∧ ∀ c ∈ digits, isDigit c = true

def scanSign (s : Str) : Bool × Str :=
  match s with
  | c :: rest => if c = minus then (true, rest) else (false, s)
  | [] => (false, [])

def scanWhole (s : Str) : Option (Str × Str) :=
  match s with
  | c :: rest =>
    if c = 0x30 then some ([c], rest)
    else if isDigit c then some (c :: rest.takeWhile isDigit, rest.dropWhile isDigit)
    else none
  | [] => none

def scanFrac (s : Str) : Str × Str :=
  match s with
  | c :: rest =>
    if c = point ∧ rest.takeWhile isDigit ≠ [] then
      (rest.takeWhile isDigit, rest.dropWhile isDigit)
    else ([], s)
  | [] => ([], [])

def scanExpSign (s : Str) : Bool × Str :=
  match s with
  | c :: rest => if c = minus then (true, rest) else if c = plus then (false, rest) else (false, s)
  | [] => (false, [])

def scanExp (s : Str) : Option (Bool × Str) × Str :=
  match s with
  | c :: rest =>
    let (neg, unsigned) := scanExpSign rest
    if (c = 0x65 ∨ c = 0x45) ∧ unsigned.takeWhile isDigit ≠ [] then
      (some (neg, unsigned.takeWhile isDigit), unsigned.dropWhile isDigit)
    else (none, s)
  | [] => (none, [])

def scanLiteral (s : Str) : Option (Literal × Str) := do
  let (neg, unsigned) := scanSign s
  let (whole, rest) ← scanWhole unsigned
  let (frac, rest) := scanFrac rest
  let (exp, rest) := scanExp rest
  return (⟨neg, whole, frac, exp⟩, rest)

theorem span_digits {s : Str} (hs : ∀ c ∈ s, isDigit c = true) {rest : Str}
    (hr : ∀ c, rest.head? = some c → isDigit c = false) :
    (s ++ rest).takeWhile isDigit = s ∧ (s ++ rest).dropWhile isDigit = rest := by
  induction s with
  | nil =>
    cases rest with
    | nil => exact ⟨rfl, rfl⟩
    | cons c rest => simp [hr c rfl]
  | cons c s ih =>
    obtain ⟨ht, hd⟩ := ih fun d hd => hs d (List.mem_cons_of_mem c hd)
    simp [hs c List.mem_cons_self, ht, hd]

/-- What may follow a number without becoming part of it. -/
def Ends (rest : Str) : Prop :=
  ∀ c, rest.head? = some c → isDigit c = false ∧ c ≠ point ∧ c ≠ 0x65 ∧ c ≠ 0x45

theorem ends_nil : Ends [] := by
  simp [Ends]

theorem isDigit_point : isDigit point = false := by decide

theorem isDigit_minus : isDigit minus = false := by decide

theorem scanExp_text {exp : Option (Bool × Str)} {rest : Str} (hr : Ends rest)
    (h : ∀ neg digits, exp = some (neg, digits) → digits ≠ [] ∧ ∀ c ∈ digits, isDigit c = true) :
    scanExp (Literal.expText exp ++ rest) = (exp, rest) := by
  cases exp with
  | none =>
    cases rest with
    | nil => rfl
    | cons c rest =>
      obtain ⟨_, _, he, hE⟩ := hr c rfl
      simp [Literal.expText, scanExp, he, hE]
  | some e =>
    obtain ⟨neg, digits⟩ := e
    obtain ⟨hne, hd⟩ := h neg digits rfl
    obtain ⟨ht, hw⟩ := span_digits hd fun c hc => (hr c hc).1
    cases neg <;>
      simp [Literal.expText, scanExp, scanExpSign, ht, hw, hne, show plus ≠ minus by decide]

theorem head?_expText (exp : Option (Bool × Str)) (rest : Str) :
    (Literal.expText exp ++ rest).head? = if exp = none then rest.head? else some 0x65 := by
  cases exp <;> rfl

theorem scanFrac_text {frac : Str} {exp : Option (Bool × Str)} {rest : Str} (hr : Ends rest)
    (hf : ∀ c ∈ frac, isDigit c = true) :
    scanFrac ((if frac = [] then [] else point :: frac) ++ (Literal.expText exp ++ rest)) =
      (frac, Literal.expText exp ++ rest) := by
  have next : ∀ c, (Literal.expText exp ++ rest).head? = some c →
      isDigit c = false ∧ c ≠ point := by
    intro c hc
    rw [head?_expText] at hc
    split at hc
    · exact ⟨(hr c hc).1, (hr c hc).2.1⟩
    · cases Option.some.inj hc
      decide
  by_cases hne : frac = []
  · subst hne
    cases ht : Literal.expText exp ++ rest with
    | nil => rfl
    | cons c tail =>
      have hp := (next c (by rw [ht]; rfl)).2
      simp [scanFrac, hp]
  · obtain ⟨ht, hw⟩ := span_digits hf fun c hc => (next c hc).1
    simp [scanFrac, hne, ht, hw]

theorem scanWhole_text {l : Literal} (wf : l.Wf) {rest : Str}
    (hr : ∀ c, rest.head? = some c → isDigit c = false) :
    scanWhole (l.whole ++ rest) = some (l.whole, rest) := by
  rcases wf.whole with zero | ⟨c, digits, he, hne, hc, hd⟩
  · simp [zero, scanWhole]
  · obtain ⟨ht, hw⟩ := span_digits hd hr
    simp [he, scanWhole, hne, hc, ht, hw]

theorem scanSign_text (neg : Bool) {s : Str} (hs : ∀ c, s.head? = some c → c ≠ minus) :
    scanSign ((if neg then [minus] else []) ++ s) = (neg, s) := by
  cases neg with
  | true => simp [scanSign]
  | false =>
    cases s with
    | nil => rfl
    | cons c rest => simp [scanSign, hs c rfl]

theorem head_ne_minus {l : Literal} (wf : l.Wf) (rest : Str) :
    ∀ c, (l.whole ++ rest).head? = some c → c ≠ minus := by
  intro c hc
  rcases wf.whole with zero | ⟨d, digits, he, _, hd, _⟩
  · rw [zero] at hc
    cases Option.some.inj hc
    decide
  · rw [he] at hc
    cases Option.some.inj hc
    rintro rfl
    simp [isDigit_minus] at hd

/-- A written number is read back whole. -/
theorem scanLiteral_text {l : Literal} (wf : l.Wf) {rest : Str} (hr : Ends rest) :
    scanLiteral (l.text ++ rest) = some (l, rest) := by
  have tail : ∀ c, ((if l.frac = [] then [] else point :: l.frac) ++
      (Literal.expText l.exp ++ rest)).head? = some c → isDigit c = false := by
    intro c hc
    split at hc
    · rw [List.nil_append, head?_expText] at hc
      split at hc
      · exact (hr c hc).1
      · cases Option.some.inj hc
        decide
    · cases Option.some.inj hc
      exact isDigit_point
  simp only [Literal.text, List.append_assoc, scanLiteral]
  rw [scanSign_text _ (head_ne_minus wf _)]
  simp [scanWhole_text wf tail, scanFrac_text hr wf.frac, scanExp_text hr wf.exp]

end Decimal

import EdgecaseForge.FloatText
import EdgecaseForge.JsonCore
import Mathlib.Data.List.Sort

namespace Json

open Text Decimal

def quoteMark : CodePoint := 0x22

def backslash : CodePoint := 0x5C

def openBracket : CodePoint := 0x5B

def closeBracket : CodePoint := 0x5D

def openBrace : CodePoint := 0x7B

def closeBrace : CodePoint := 0x7D

def comma : CodePoint := 0x2C

def colon : CodePoint := 0x3A

/-- How a value is laid out: what opens a line of a given depth, what follows the separators,
and how a code point of a string is written. -/
structure Layout where
  pad : Nat → Str
  afterComma : Str
  afterColon : Str
  escape : CodePoint → Str

def hexDigit (n : Nat) : CodePoint :=
  if n % 16 < 10 then ⟨0x30 + n % 16, digit_lt n⟩ else ⟨0x57 + n % 16, letter_lt n⟩

def hexEscape (n : Nat) : Str :=
  [backslash, 0x75, hexDigit (n / 0x1000), hexDigit (n / 0x100), hexDigit (n / 0x10), hexDigit n]

/-- The letter of a short escape. -/
def shortEscape (c : CodePoint) : Option CodePoint :=
  if c = quoteMark then some quoteMark
  else if c = backslash then some backslash
  else if c = 0x08 then some 0x62
  else if c = 0x0C then some 0x66
  else if c = 0x0A then some 0x6E
  else if c = 0x0D then some 0x72
  else if c = 0x09 then some 0x74
  else none

/-- A code point in a string, `ensure_ascii=False`. -/
def escape (c : CodePoint) : Str :=
  match shortEscape c with
  | some letter => [backslash, letter]
  | none => if c.val < 0x20 then hexEscape c.val else [c]

/-- A code point in a string, `ensure_ascii=True`. -/
def asciiEscape (c : CodePoint) : Str :=
  match shortEscape c with
  | some letter => [backslash, letter]
  | none =>
    if 0x20 ≤ c.val ∧ c.val ≤ 0x7E then [c]
    else if c.val < 0x10000 then hexEscape c.val
    else
      hexEscape (0xD800 + (c.val - 0x10000) / 0x400) ++
        hexEscape (0xDC00 + (c.val - 0x10000) % 0x400)

def compact : Layout where
  pad _ := []
  afterComma := [0x20]
  afterColon := [0x20]
  escape := escape

/-- `indent=2`. -/
def indented : Layout where
  pad depth := lineFeed :: List.replicate (2 * depth) 0x20
  afterComma := []
  afterColon := [0x20]
  escape := escape

/-- `separators=(",", ":")`. -/
def minimal : Layout where
  pad _ := []
  afterComma := []
  afterColon := []
  escape := asciiEscape

def Layout.quote (L : Layout) (s : Str) : Str :=
  quoteMark :: (s.flatMap L.escape ++ [quoteMark])

/-- Between two entries of a container. -/
def Layout.next (L : Layout) (depth : Nat) : Str :=
  comma :: (L.afterComma ++ L.pad depth)

def intText (n : Int) : Str :=
  if n < 0 then minus :: natText n.natAbs else natText n.natAbs

def floatText : Binary64.Double → Str
  | .finite f => f.literal.text
  | .infinite neg => lit (if neg then "-Infinity" else "Infinity")
  | .nan => lit "NaN"

mutual

def encode (L : Layout) (depth : Nat) : Json → Str
  | .null => lit "null"
  | .bool b => lit (if b then "true" else "false")
  | .int n => intText n
  | .float x => floatText x
  | .str s => L.quote s
  | .list [] => [openBracket, closeBracket]
  | .list (x :: xs) =>
    openBracket :: (L.pad (depth + 1) ++ (encode L (depth + 1) x ++
      (encodeItems L (depth + 1) xs ++ (L.pad depth ++ [closeBracket]))))
  | .obj [] => [openBrace, closeBrace]
  | .obj ((key, x) :: xs) =>
    openBrace :: (L.pad (depth + 1) ++ (L.quote key ++ (colon :: (L.afterColon ++
      (encode L (depth + 1) x ++
        (encodeFields L (depth + 1) xs ++ (L.pad depth ++ [closeBrace])))))))

def encodeItems (L : Layout) (depth : Nat) : List Json → Str
  | [] => []
  | x :: xs => L.next depth ++ (encode L depth x ++ encodeItems L depth xs)

def encodeFields (L : Layout) (depth : Nat) : List (Str × Json) → Str
  | [] => []
  | (key, x) :: xs =>
    L.next depth ++ (L.quote key ++ (colon :: (L.afterColon ++
      (encode L depth x ++ encodeFields L depth xs))))

end

/-- The interpreter converts integers of at most this many digits to and from text. -/
def maxIntDigits : Nat := 4300

mutual

/-- Every integer in a value can be written. -/
def printable : Json → Bool
  | .int n => decide ((natText n.natAbs).length ≤ maxIntDigits)
  | .list items => printableItems items
  | .obj fields => printableFields fields
  | _ => true

def printableItems : List Json → Bool
  | [] => true
  | x :: xs => printable x && printableItems xs

def printableFields : List (Str × Json) → Bool
  | [] => true
  | (_, x) :: xs => printable x && printableFields xs

end

theorem printableItems_eq_true {items : List Json} :
    printableItems items = true ↔ ∀ x ∈ items, x.printable = true := by
  induction items with
  | nil => simp [printableItems]
  | cons x xs ih => simp [printableItems, ih]

theorem printableFields_eq_true {fields : List (Str × Json)} :
    printableFields fields = true ↔ ∀ field ∈ fields, field.2.printable = true := by
  induction fields with
  | nil => simp [printableFields]
  | cons field fields ih => simp [printableFields, ih]

theorem printable_object {fields : List (String × Json)} :
    (object fields).printable = true ↔ ∀ field ∈ fields, field.2.printable = true := by
  simp only [object, printable, printableFields_eq_true, List.forall_mem_map]

/-- `json.dumps`, which fails where an integer has too many digits. -/
def dumps (L : Layout) (j : Json) : Option Str :=
  if j.printable then some (encode L 0 j) else none

mutual

/-- `sort_keys=True`. -/
def sortKeys : Json → Json
  | .list items => .list (sortKeysItems items)
  | .obj fields => .obj ((sortKeysFields fields).insertionSort fun a b => a.1 ≤ b.1)
  | j => j

def sortKeysItems : List Json → List Json
  | [] => []
  | x :: xs => sortKeys x :: sortKeysItems xs

def sortKeysFields : List (Str × Json) → List (Str × Json)
  | [] => []
  | (key, x) :: xs => (key, sortKeys x) :: sortKeysFields xs

end

end Json

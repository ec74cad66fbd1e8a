import EdgecaseForge.JsonFiles
import EdgecaseForge.JsonRepr

namespace Binary64

/-- `x <= y`. -/
def Double.le : Double → Double → Bool
  | .nan, _ => false
  | _, .nan => false
  | .infinite a, .infinite b => a || !b
  | .infinite a, .finite _ => a
  | .finite _, .infinite b => !b
  | .finite f, .finite g => f.value ≤ g.value

/-- `x < y`. -/
def Double.lt : Double → Double → Bool
  | .nan, _ => false
  | _, .nan => false
  | x, y => !y.le x

/-- `min(x, y)`. -/
def Double.min (x y : Double) : Double :=
  if y.lt x then y else x

/-- `max(x, y)`. -/
def Double.max (x y : Double) : Double :=
  if x.lt y then y else x

/-- The value of an integer as a number, if it has one. -/
def ofInt (n : Int) : Option Double :=
  match ofRat n with
  | .finite f => some (.finite f)
  | _ => none

/-- Multiplication, correctly rounded. -/
def Double.mul : Double → Double → Double
  | .nan, _ => .nan
  | _, .nan => .nan
  | .infinite a, .infinite b => .infinite (a != b)
  | .infinite a, .finite g => if g.mag = 0 then .nan else .infinite (a != g.neg)
  | .finite f, .infinite b => if f.mag = 0 then .nan else .infinite (f.neg != b)
  | .finite f, .finite g => ofMag (f.neg != g.neg) (f.mag * g.mag) (mul_nonneg f.nonneg g.nonneg)

/-- `int(x)`: the digits before the point. -/
def Finite.trunc (f : Finite) : Int :=
  if f.neg then -⌊f.mag⌋ else ⌊f.mag⌋

end Binary64

namespace EdgecaseForge

open Text

/-- The decimal digits of Unicode with their values. -/
structure DigitTable where
  value : CodePoint → Option Nat
  ascii : ∀ c, c.val < 0x80 → value c = if Decimal.isDigit c then some (Decimal.digitValue c) else none

/-- The digits without those past ASCII. -/
def DigitTable.plain : DigitTable where
  value := fun c => if Decimal.isDigit c then some (Decimal.digitValue c) else none
  ascii := fun _ _ => rfl

def DigitTable.natural (k : DigitTable) (digits : Str) : Option Nat :=
  digits.foldlM (fun value c => (k.value c).map fun d => value * 10 + d) 0

def digitSeparator : CodePoint := 0x5F

def invalidInt (s : Str) : PyError :=
  .valueError (lit "invalid literal for int() with base 10: " ++ Json.reprText s)

/-- `int(s)`: digits, each separator of them between two digits, after a sign or without one. -/
def pyIntText (k : DigitTable) (s : Str) : Except PyError Int :=
  let value := strip s
  let negative := value.head? = some Decimal.minus
  let body := if negative ∨ value.head? = some Decimal.plus then value.tail else value
  let parts := split digitSeparator body
  if parts.any (·.isEmpty) then .error (invalidInt s)
  else
    match k.natural parts.flatten with
    | none => .error (invalidInt s)
    | some n =>
      if Json.maxIntDigits < parts.flatten.length then .error (.valueError digitsMessage)
      else .ok (if negative then -n else n)

/-- `int(value)`. -/
def pyInt (k : DigitTable) : Json → Except PyError Int
  | .int n => .ok n
  | .bool b => .ok (if b then 1 else 0)
  | .float (.finite f) => .ok f.trunc
  | .float (.infinite _) => .error .overflowError
  | .float .nan => .error (.valueError (lit "cannot convert float NaN to integer"))
  | .str s => pyIntText k s
  | _ => .error .typeError

def PyError.isProvider : PyError → Bool
  | .provider _ => true
  | _ => false

/-- An exception of code that knows nothing of providers. -/
structure OtherError where
  error : PyError
  foreign : error.isProvider = false

theorem typeError_foreign : PyError.typeError.isProvider = false :=
  rfl

/-- `except ValueError`. -/
def PyError.isValueError : PyError → Bool
  | .valueError _ | .jsonDecodeError _ | .unicodeDecodeError | .unicodeEncodeError => true
  | _ => false

/-- `except (KeyError, IndexError, TypeError)`. -/
def PyError.isLookupError : PyError → Bool
  | .keyError _ | .indexError | .typeError => true
  | _ => false

/-- `value[key]` for a text key. -/
def subscript (value : Json) (key : String) : Except PyError Json :=
  match value with
  | .obj fields =>
    match fields.lookup (lit key) with
    | some entry => .ok entry
    | none => .error (.keyError (lit key))
  | _ => .error .typeError

/-- `value[0]`. -/
def firstItem : Json → Except PyError Json
  | .list (x :: _) => .ok x
  | .str (c :: _) => .ok (.str [c])
  | .list [] | .str [] => .error .indexError
  | .obj _ => .error (.keyError (lit "0"))
  | _ => .error .typeError

/-- `value.get(key, default)`. -/
def dictGet (value : Json) (key : String) (default : Json) : Except PyError Json :=
  match value with
  | .obj fields => .ok ((fields.lookup (lit key)).getD default)
  | _ => .error .attributeError

end EdgecaseForge

import EdgecaseForge.PyNumbers

namespace Binary64

def Double.abs : Double → Double
  | .finite f => .finite { f with neg := false }
  | .infinite _ => .infinite false
  | .nan => .nan

def Double.isZero : Double → Bool
  | .finite f => f.mag = 0
  | _ => false

def Double.isFinite : Double → Bool
  | .finite _ => true
  | _ => false

/-- `x / 2`. -/
def Double.half : Double → Double
  | .finite f => ofMag f.neg (f.mag / 2) (div_nonneg f.nonneg (by norm_num))
  | x => x

/-- The rounding error of one addition. -/
def additionError (sum x : Double) : Double :=
  let next := sum.add x
  if x.abs.le sum.abs then (sum.sub next).add x else (x.sub next).add sum

end Binary64

namespace EdgecaseForge

open Text Binary64

/-- A number of the interpreter. -/
inductive Number
  | int (n : Int)
  | float (x : Double)

def Number.json : Number → Json
  | .int n => .int n
  | .float x => .float x

/-- The number that a value is; a Boolean is an integer. -/
def numberOf : Json → Except PyError Number
  | .bool b => .ok (.int (if b then 1 else 0))
  | .int n => .ok (.int n)
  | .float x => .ok (.float x)
  | _ => .error .typeError

/-- `float(n)`. -/
def floatOf (n : Int) : Except PyError Double :=
  match ofInt n with
  | some x => .ok x
  | none => .error .overflowError

def Number.float? : Number → Except PyError Double
  | .int n => floatOf n
  | .float x => .ok x

/-- The integers that the machine adds to a float without a detour. -/
def isLong (n : Int) : Bool :=
  -2 ^ 63 ≤ n && n < 2 ^ 63

/-- Additions of floats one by one. -/
def addAll (sum : Double) : List Number → Except PyError Double
  | [] => .ok sum
  | x :: xs => do
    let x ← x.float?
    addAll (sum.add x) xs

/-- The compensated additions of `sum`, which end at an integer that is too long. -/
def addCompensated (sum error : Double) : List Number → Except PyError Double
  | [] => .ok (if !error.isZero && error.isFinite then sum.add error else sum)
  | .float x :: xs => addCompensated (sum.add x) (error.add (additionError sum x)) xs
  | .int n :: xs => do
    let x ← floatOf n
    if isLong n then addCompensated (sum.add x) error xs else addAll (sum.add x) xs

/-- `sum(numbers)`. -/
def sumNumbers (sum : Int) : List Number → Except PyError Number
  | [] => .ok (.int sum)
  | .int n :: xs => sumNumbers (sum + n) xs
  | .float x :: xs => do
    let start ← floatOf sum
    let total ← addCompensated (start.add x) Binary64.zero xs
    pure (.float total)

def sumValues (values : List Json) : Except PyError Number := do
  let numbers ← values.mapM numberOf
  sumNumbers 0 numbers

/-- `round(x, 4)`. -/
def Number.round4 : Number → Number
  | .int n => .int n
  | .float x => .float (x.roundTo 4)

/-- `x > 0`. -/
def Number.isPositive : Number → Bool
  | .int n => 0 < n
  | .float x => Binary64.zero.lt x

/-- `a / n` of integers, for a positive `n`. -/
def divideInts (a : Int) (n : Nat) : Except PyError Double :=
  match ofRat (a / n) with
  | .finite f => .ok (.finite f)
  | _ => .error .overflowError

def Number.divide (a : Number) (n : Nat) : Except PyError Double :=
  match a with
  | .int a => divideInts a n
  | .float x => (floatOf n).map fun y =>
    match x, y with
    | .finite f, .finite g => ofMag (f.neg != g.neg) (f.mag / g.mag) (div_nonneg f.nonneg g.nonneg)
    | x, _ => x

end EdgecaseForge

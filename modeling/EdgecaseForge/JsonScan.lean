import EdgecaseForge.JsonEncode

namespace Json

open Text Decimal

/-- How decoding fails; a malformed text keeps what is left from the error on. -/
inductive Failure
  | malformed (rest : Str)
  | digits
  | recursion
  deriving DecidableEq

def isJsonSpace (c : CodePoint) : Bool :=
  c == 0x20 || c == 0x09 || c == 0x0A || c == 0x0D

def skipSpace (s : Str) : Str :=
  s.dropWhile isJsonSpace

def hexValue (c : CodePoint) : Option Nat :=
  if 0x30 ≤ c.val ∧ c.val ≤ 0x39 then some (c.val - 0x30)
  else if 0x41 ≤ c.val ∧ c.val ≤ 0x46 then some (c.val - 0x37)
  else if 0x61 ≤ c.val ∧ c.val ≤ 0x66 then some (c.val - 0x57)
  else none

def hexUnit (a b c d : CodePoint) : Option CodePoint :=
  match hexValue a, hexValue b, hexValue c, hexValue d with
  | some x, some y, some z, some w =>
    let n := x * 0x1000 + y * 0x100 + z * 0x10 + w
    if h : n < 0x110000 then some ⟨n, h⟩ else none
  | _, _, _, _ => none

def unescape (c : CodePoint) : Option CodePoint :=
  if c = quoteMark ∨ c = backslash ∨ c = 0x2F then some c
  else if c = 0x62 then some 0x08
  else if c = 0x66 then some 0x0C
  else if c = 0x6E then some 0x0A
  else if c = 0x72 then some 0x0D
  else if c = 0x74 then some 0x09
  else none

/-- A code point of a string, and whether it was written as an escape. -/
abbrev Piece := CodePoint × Bool

def consPiece (u : Piece) (r : Except Failure (List Piece × Str)) :
    Except Failure (List Piece × Str) :=
  r.map fun (pieces, rest) => (u :: pieces, rest)

/-- The string whose opening quote `start` begins with, up to its closing quote. -/
def scanPieces (start : Str) : Str → Except Failure (List Piece × Str)
  | [] => .error (.malformed start)
  | c :: rest =>
    if c = quoteMark then .ok ([], rest)
    else if c = backslash then
      match rest with
      | [] => .error (.malformed start)
      | e :: body =>
        if e = 0x75 then
          match body with
          | x :: y :: z :: w :: more =>
            match hexUnit x y z w with
            | some u =>
              if more = [] then .error (.malformed rest) else consPiece (u, true) (scanPieces start more)
            | none => .error (.malformed rest)
          | _ => .error (.malformed rest)
        else
          match unescape e with
          | some u => consPiece (u, true) (scanPieces start body)
          | none => .error (.malformed (c :: rest))
    else if c.val < 0x20 then .error (.malformed (c :: rest))
    else consPiece (c, false) (scanPieces start rest)

/-- An escaped high surrogate and the escaped low one after it are one code point. -/
def joinPieces : List Piece → Str
  | [] => []
  | [(c, _)] => [c]
  | (c, escaped) :: (d, escaped') :: rest =>
    if h : escaped ∧ escaped' ∧ 0xD800 ≤ c.val ∧ c.val < 0xDC00 ∧ 0xDC00 ≤ d.val ∧
        d.val < 0xE000 then
      ⟨0x10000 + (c.val - 0xD800) * 0x400 + (d.val - 0xDC00), by omega⟩ :: joinPieces rest
    else c :: joinPieces ((d, escaped') :: rest)

def scanString (s : Str) : Except Failure (Str × Str) :=
  (scanPieces s s.tail).map fun (pieces, rest) => (joinPieces pieces, rest)

def scanKey (s : Str) : Except Failure (Str × Str) :=
  if s.head? = some quoteMark then scanString s else .error (.malformed s)

def scanNumber (s : Str) : Except Failure (Json × Str) :=
  match scanLiteral s with
  | none => .error (.malformed s)
  | some (l, rest) =>
    if l.isInt then
      if l.whole.length ≤ maxIntDigits then
        .ok (.int (if l.neg then -natValue l.whole else natValue l.whole), rest)
      else .error .digits
    else .ok (.float l.double, rest)

def constants : List (Str × Json) :=
  [(lit "null", .null), (lit "true", .bool true), (lit "false", .bool false),
    (lit "NaN", .float .nan), (lit "Infinity", .float (.infinite false)),
    (lit "-Infinity", .float (.infinite true))]

/-- A constant, or else a number. -/
def scanAtom (s : Str) : Except Failure (Json × Str) :=
  match constants.find? fun constant => startsWith s constant.1 with
  | some (name, value) => .ok (value, s.drop name.length)
  | none => scanNumber s

def expect (c : CodePoint) (s : Str) : Except Failure Str :=
  if s.head? = some c then .ok s.tail else .error (.malformed s)

/-- The later one of two fields with the same key wins, in the place of the earlier one. -/
def setField (fields : List (Str × Json)) (field : Str × Json) : List (Str × Json) :=
  if field.1 ∈ fields.map Prod.fst then
    fields.map fun old => if old.1 = field.1 then field else old
  else fields ++ [field]

def ofPairs (pairs : List (Str × Json)) : Json :=
  .obj (pairs.foldl setField [])

mutual

/-- `scan_once`: the value that a text begins with. The fuel bounds the calls and the depth
bounds the nesting. -/
def scanValue : Nat → Nat → Str → Except Failure (Json × Str)
  | 0, _, s => .error (.malformed s)
  | fuel + 1, depth, s =>
    if s.head? = some quoteMark then do
      let (text, rest) ← scanString s
      return (.str text, rest)
    else if s.head? = some openBrace then
      match depth with
      | 0 => .error .recursion
      | depth + 1 =>
        let body := skipSpace s.tail
        if body.head? = some closeBrace then .ok (.obj [], body.tail)
        else do
          let (pairs, rest) ← scanFields fuel depth body
          return (ofPairs pairs, rest)
    else if s.head? = some openBracket then
      match depth with
      | 0 => .error .recursion
      | depth + 1 =>
        let body := skipSpace s.tail
        if body.head? = some closeBracket then .ok (.list [], body.tail)
        else do
          let (items, rest) ← scanItems fuel depth body
          return (.list items, rest)
    else scanAtom s

def scanItems : Nat → Nat → Str → Except Failure (List Json × Str)
  | 0, _, s => .error (.malformed s)
  | fuel + 1, depth, s => do
    let (item, rest) ← scanValue fuel depth s
    let rest := skipSpace rest
    if rest.head? = some closeBracket then return ([item], rest.tail)
    else
      let rest ← expect comma rest
      let (items, rest) ← scanItems fuel depth (skipSpace rest)
      return (item :: items, rest)

def scanFields : Nat → Nat → Str → Except Failure (List (Str × Json) × Str)
  | 0, _, s => .error (.malformed s)
  | fuel + 1, depth, s => do
    let (key, rest) ← scanKey s
    let rest ← expect colon (skipSpace rest)
    let (value, rest) ← scanValue fuel depth (skipSpace rest)
    let rest := skipSpace rest
    if rest.head? = some closeBrace then return ([(key, value)], rest.tail)
    else
      let rest ← expect comma rest
      let (fields, rest) ← scanFields fuel depth (skipSpace rest)
      return ((key, value) :: fields, rest)

end

/-- `JSONDecoder.raw_decode`: the value at the start of a text, and what comes after it. -/
def rawDecode (limit : Nat) (s : Str) : Except Failure (Json × Str) :=
  scanValue (2 * s.length + 1) limit s

def byteOrderMark : CodePoint := 0xFEFF

/-- `json.loads` of a text, at most `limit` deep. -/
def loadsWithin (limit : Nat) (s : Str) : Except Failure Json := do
  if s.head? = some byteOrderMark then throw (.malformed s)
  let (value, rest) ← rawDecode limit (skipSpace s)
  let rest := skipSpace rest
  if rest = [] then return value else throw (.malformed rest)

/-- `json.loads` where the text is not nested deeper than the interpreter allows. -/
def loads (s : Str) : Except Failure Json :=
  loadsWithin (s.length + 1) s

end Json

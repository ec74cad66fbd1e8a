import EdgecaseForge.JsonEncode

namespace Json

open Text

/-- A code point between the quotes of a `repr`. -/
def reprPoint (quote c : CodePoint) : Str :=
  if c = quote ∨ c = backslash then [backslash, c]
  else if c = 0x0A then [backslash, 0x6E]
  else if c = 0x0D then [backslash, 0x72]
  else if c = 0x09 then [backslash, 0x74]
  else if c.val < 0x20 ∨ c = 0x7F then [backslash, 0x78, hexDigit (c.val / 0x10), hexDigit c.val]
  else [c]

/-- Single quotes, unless only a single quote is inside. -/
def reprText (s : Str) : Str :=
  let quote : CodePoint := if 0x27 ∈ s ∧ quoteMark ∉ s then quoteMark else 0x27
  quote :: (s.flatMap (reprPoint quote) ++ [quote])

def reprFloat : Binary64.Double → Str
  | .finite f => f.literal.text
  | .infinite neg => lit (if neg then "-inf" else "inf")
  | .nan => lit "nan"

mutual

/-- `repr` of a decoded value. -/
def pyRepr : Json → Str
  | .null => lit "None"
  | .bool b => lit (if b then "True" else "False")
  | .int n => intText n
  | .float x => reprFloat x
  | .str s => reprText s
  | .list items => openBracket :: (pyReprItems items ++ [closeBracket])
  | .obj fields => openBrace :: (pyReprFields fields ++ [closeBrace])

def pyReprItems : List Json → Str
  | [] => []
  | [x] => pyRepr x
  | x :: xs => pyRepr x ++ (lit ", " ++ pyReprItems xs)

def pyReprFields : List (Str × Json) → Str
  | [] => []
  | [(key, x)] => reprText key ++ (lit ": " ++ pyRepr x)
  | (key, x) :: xs => reprText key ++ (lit ": " ++ (pyRepr x ++ (lit ", " ++ pyReprFields xs)))

end

/-- `str(value)`. -/
def pyStr : Json → Str
  | .str s => s
  | j => pyRepr j

end Json

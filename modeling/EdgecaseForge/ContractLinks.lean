import EdgecaseForge.JsonFiles
import EdgecaseForge.SyntaxTrees

namespace EdgecaseForge

open Text

namespace ContractSchema

structure InvariantTarget where
  invariantId : Str

def refuse (message : Str) : Except PyError Unit :=
  .error (.valueError message)

def signature (testName : Str) : Str :=
  lit "def " ++ testName ++ lit "("

/-- The Python library as far as it finds functions in a text: `ast.parse`, the offsets of the `def`
keywords of the functions that it finds, the characters of identifiers, and their normal form. -/
structure ModuleReader where
  parse : Str → Except Str (List Ast)
  headers : Str → List Nat
  identifier : CodePoint → Bool
  normalForm : Str → Str

section Headers

variable {reader : ModuleReader} {code name : Str} {offset : Nat}

end Headers

section Accepted

variable {analysis : ContractAnalysis}

end Accepted

section Payloads

def isWord (c : CodePoint) : Bool :=
  (0x30 ≤ c && c ≤ 0x39) || (0x41 ≤ c && c ≤ 0x5A) || c = 0x5F || (0x61 ≤ c && c ≤ 0x7A)

/-- A library that knows one text. -/
def reading (code : Str) (body : List Ast) (headers : List Nat) : ModuleReader where
  parse text := if text = code then .ok body else .error (lit "SyntaxError")
  headers text := if text = code then headers else []
  identifier := isWord
  normalForm name := name

end Payloads

end ContractSchema

end EdgecaseForge

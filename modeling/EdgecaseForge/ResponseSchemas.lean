import EdgecaseForge.ExceptCore
import EdgecaseForge.JsonRepr
import EdgecaseForge.JsonScan
import EdgecaseForge.ProviderErrors

namespace EdgecaseForge

open Text

namespace ResponseSchema

def removedKeywords : List Str :=
  ["$defs", "$ref", "allOf", "anyOf", "default", "examples", "maxItems", "maxLength", "minItems",
    "minLength", "oneOf", "title"].map lit

def localPrefix : Str :=
  lit "#/$defs/"

/-- The name in a reference of the form `#/$defs/name`. -/
def localName : Json → Option Str
  | .str text => if startsWith text localPrefix then some (text.drop localPrefix.length) else none
  | _ => none

/-- The value of `$ref`, where there is one. -/
def reference? (fields : List (Str × Json)) : Option Json :=
  match (Json.obj fields).get (lit "$ref") with
  | .null => none
  | reference => some reference

/-- The fields of a definition with those beside the reference written over them. -/
def merged (target fields : List (Str × Json)) : List (Str × Json) :=
  (fields.filter fun field => field.1 ≠ lit "$ref").foldl Json.setField target

/-- What stands for a reference, and its name. -/
def dereference (definitions : Json) (active : List Str) (fields : List (Str × Json)) (reference : Json) :
    Except PyError (Str × Json) :=
  match localName reference with
  | none => .error (.valueError (lit "Unsupported response schema reference: " ++ reference.pyStr))
  | some name =>
    if active.contains name then
      .error (.valueError (lit "Recursive response schemas are not supported"))
    else
      match definitions with
      | .obj entries =>
        match (Json.obj entries).get name with
        | .null => .error (.valueError (lit "Unknown response schema reference: " ++ reference.pyStr))
        | .obj target => .ok (name, .obj (merged target fields))
        | _ => .error .attributeError
      | _ => .error .attributeError

section Resolve

variable (follow : List Str → Json → Except PyError Json) (definitions : Json) (active : List Str)

mutual

/-- The body of `_resolve_local_refs`, whose call on what stands for a reference is `follow`. -/
def resolveBody : Json → Except PyError Json
  | .list items => (resolveItems items).map .list
  | .obj fields =>
    match reference? fields with
    | some reference => do
      let (name, target) ← dereference definitions active fields reference
      follow (active ++ [name]) target
    | none => (resolveFields fields).map .obj
  | value => .ok value

def resolveItems : List Json → Except PyError (List Json)
  | [] => .ok []
  | item :: items => do
    let first ← resolveBody item
    let rest ← resolveItems items
    .ok (first :: rest)

def resolveFields : List (Str × Json) → Except PyError (List (Str × Json))
  | [] => .ok []
  | (key, item) :: fields =>
    if key = lit "$defs" then resolveFields fields
    else do
      let first ← resolveBody item
      let rest ← resolveFields fields
      .ok ((key, first) :: rest)

end

end Resolve

/-- `_resolve_local_refs`, up to a depth of references inside references. -/
def resolveLocalRefs (definitions : Json) : Nat → List Str → Json → Except PyError Json
  | 0 => fun _ _ => .error .recursionError
  | depth + 1 => resolveBody (resolveLocalRefs definitions depth) definitions

/-- `result.get("type") == "object"`. -/
def isObjectType (fields : List (Str × Json)) : Bool :=
  match (Json.obj fields).get (lit "type") with
  | .str name => name == lit "object"
  | _ => false

/-- An object-typed schema asks for all of its properties and no others. -/
def close (fields : List (Str × Json)) : Except PyError Json :=
  if isObjectType fields then
    match ((Json.obj fields).get? (lit "properties")).getD (.obj []) with
    | .obj properties =>
      .ok (.obj (Json.setField
        (Json.setField fields (lit "required", .list (properties.map fun field => .str field.1)))
        (lit "additionalProperties", .bool false)))
    | _ => .error (.valueError (lit "Object response schema properties must be an object"))
  else .ok (.obj fields)

mutual

/-- `_normalize`. -/
def normalize : Json → Except PyError Json
  | .list items => (normalizeItems items).map .list
  | .obj fields => normalizeFields fields >>= close
  | value => .ok value

/-- The value of a keyword: the keys of an object below `properties` are no keywords. -/
def normalizeValue (key : Str) : Json → Except PyError Json
  | .list items => (normalizeItems items).map .list
  | .obj fields =>
    if key = lit "properties" then (normalizeProperties fields).map .obj
    else normalizeFields fields >>= close
  | value => .ok value

def normalizeItems : List Json → Except PyError (List Json)
  | [] => .ok []
  | item :: items => do
    let first ← normalize item
    let rest ← normalizeItems items
    .ok (first :: rest)

def normalizeFields : List (Str × Json) → Except PyError (List (Str × Json))
  | [] => .ok []
  | (key, item) :: fields =>
    if removedKeywords.contains key then normalizeFields fields
    else do
      let first ← normalizeValue key item
      let rest ← normalizeFields fields
      .ok ((key, first) :: rest)

def normalizeProperties : List (Str × Json) → Except PyError (List (Str × Json))
  | [] => .ok []
  | (name, schema) :: fields => do
    let first ← normalize schema
    let rest ← normalizeProperties fields
    .ok ((name, first) :: rest)

end

/-- `flat_strict_schema`, on the JSON schema of the response model. -/
def flatStrictSchema (depth : Nat) (source : List (Str × Json)) : Except PyError Json := do
  let definitions := ((Json.obj source).get? (lit "$defs")).getD (.obj [])
  let resolved ← resolveLocalRefs definitions depth [] (.obj source)
  let normalized ← normalize resolved
  if normalized.isObj then
    .ok normalized
  else .error (.valueError (lit "Response model must produce an object schema"))

end ResponseSchema

end EdgecaseForge

import EdgecaseForge.DictCore
import EdgecaseForge.JsonDecoded
import EdgecaseForge.SchemaResolution

namespace EdgecaseForge

open Text Relation

namespace ResponseSchema

/-- A step from a schema to one below it. -/
inductive SchemaStep
  | item (index : Nat)
  | keyword (key : Str)
  | property (name : Str)

/-- What stands at a path, outside `$defs`. The keys of an object below `properties` are names. -/
inductive SchemaAt : Json → List SchemaStep → Json → Prop
  | here {value : Json} : SchemaAt value [] value
  | item {items : List Json} {index : Nat} {x value : Json} {path : List SchemaStep}
      (found : items[index]? = some x) (rest : SchemaAt x path value) :
      SchemaAt (.list items) (.item index :: path) value
  | keyword {fields : List (Str × Json)} {key : Str} {x value : Json} {path : List SchemaStep}
      (mem : (key, x) ∈ fields) (outside : key ≠ lit "$defs") (schema : key = lit "properties" → x.isObj = false)
      (rest : SchemaAt x path value) : SchemaAt (.obj fields) (.keyword key :: path) value
  | property {fields properties : List (Str × Json)} {name : Str} {x value : Json} {path : List SchemaStep}
      (mem : (lit "properties", .obj properties) ∈ fields) (listed : (name, x) ∈ properties)
      (rest : SchemaAt x path value) : SchemaAt (.obj fields) (.property name :: path) value

def PlainProperties (value : Json) : Prop :=
  ∃ properties, value = .obj properties ∧
    ∀ entry ∈ properties, entry.1 ≠ lit "$ref" ∧ entry.1 ≠ lit "$defs"

/-- Each `properties` is an object, and no property is called `$ref` or `$defs`. -/
def Plain (schema : Json) : Prop :=
  ∀ path fields value, SchemaAt schema path (.obj fields) → (lit "properties", value) ∈ fields → PlainProperties value

def propertyNames (fields : List (Str × Json)) : List Str :=
  match (Json.obj fields).get? (lit "properties") with
  | some (.obj properties) => properties.map Prod.fst
  | _ => []

section Plain

variable {items : List Json} {fields inner target : List (Str × Json)} {key name : Str} {x : Json}

theorem Plain.item (plain : Plain (.list items)) (mem : x ∈ items) : Plain x := by
  intro path fields value there
  obtain ⟨index, found⟩ := List.mem_iff_getElem?.mp mem
  exact plain (.item index :: path) fields value (.item found there)

theorem Plain.keyword (plain : Plain (.obj fields)) (mem : (key, x) ∈ fields) (outside : key ≠ lit "$defs")
    (schema : key = lit "properties" → x.isObj = false) : Plain x :=
  fun path inner value there => plain (.keyword key :: path) inner value (.keyword mem outside schema there)

theorem Plain.property (plain : Plain (.obj fields)) (mem : (lit "properties", .obj inner) ∈ fields)
    (listed : (name, x) ∈ inner) : Plain x :=
  fun path inner value there => plain (.property name :: path) inner value (.property mem listed there)

theorem Plain.properties (plain : Plain (.obj fields)) (mem : (lit "properties", x) ∈ fields) : PlainProperties x :=
  plain [] fields x .here mem

theorem Plain.of_fields (properties : ∀ x, (lit "properties", x) ∈ fields → PlainProperties x)
    (keywords : ∀ key x, (key, x) ∈ fields → key ≠ lit "$defs" → (key = lit "properties" → x.isObj = false) → Plain x)
    (below : ∀ inner, (lit "properties", .obj inner) ∈ fields → ∀ entry ∈ inner, Plain entry.2) :
    Plain (.obj fields) := by
  intro path inner value there mem
  cases there with
  | here => exact properties value mem
  | keyword listed outside schema rest => exact keywords _ _ listed outside schema _ _ _ rest mem
  | property listed named rest => exact below _ listed _ named _ _ _ rest mem

theorem mem_merged {field : Str × Json} (h : field ∈ merged target fields) : field ∈ target ∨ field ∈ fields := by
  have fold : ∀ news old : List (Str × Json), field ∈ news.foldl Json.setField old → field ∈ old ∨ field ∈ news := by
    intro news
    induction news with
    | nil => exact fun old mem => Or.inl mem
    | cons new news ih =>
      intro old mem
      rcases ih _ mem with mem | mem
      · rcases Json.mem_setField mem with rfl | mem
        · exact Or.inr (List.mem_cons_self)
        · exact Or.inl mem
      · exact Or.inr (List.mem_cons_of_mem new mem)
  exact (fold _ _ h).imp_right fun mem => (List.mem_filter.mp mem).1

theorem Plain.merged (plain : Plain (.obj fields)) (plain' : Plain (.obj target)) : Plain (.obj (merged target fields)) := by
  refine .of_fields (fun x mem => ?_) (fun key x mem outside schema => ?_) fun inner mem entry listed => ?_
  · rcases mem_merged mem with mem | mem
    · exact plain'.properties mem
    · exact plain.properties mem
  · rcases mem_merged mem with mem | mem
    · exact plain'.keyword mem outside schema
    · exact plain.keyword mem outside schema
  · rcases mem_merged mem with mem | mem
    · exact plain'.property mem listed
    · exact plain.property mem listed

end Plain

section Resolved

variable {definitions value resolved : Json} {active : List Str} {depth : Nat} {properties : List (Str × Json)}

end Resolved

end ResponseSchema

end EdgecaseForge
